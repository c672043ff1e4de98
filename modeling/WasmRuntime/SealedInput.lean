/-
`wasix_worker.rs`, the sealed inputs: how the parent puts bytes into an anonymous file that nothing
can change any more, and how the worker reads such a file.
-/
import WasmRuntime.WorkerProtocol
import WasmRuntime.Monitor

set_option autoImplicit false

namespace WasmRuntime.Worker

open ByteCodec Prog Monitor Function Exec

/-! ## Effects

Both halves are programs over one set of effects, the descriptor calls of the kernel. -/

/-- A file, as both processes that hold a descriptor of it know it. -/
abbrev Fd := ℕ

/-- `rustix::fs::FileType`, as far as the source distinguishes. -/
inductive FileType where
  | RegularFile
  | Other
  deriving DecidableEq

/-- The fields of `rustix::fs::Stat` that the source reads. -/
structure Stat where
  file_type : FileType
  st_nlink : ℕ
  st_size : ℤ
  deriving DecidableEq

/-- `REQUIRED_CHECKPOINT_SEALS`: `F_SEAL_SEAL`, `F_SEAL_SHRINK`, `F_SEAL_GROW` and
`F_SEAL_WRITE`. -/
def REQUIRED_CHECKPOINT_SEALS : UInt32 := 1 ||| 2 ||| 4 ||| 8

/-- `SealFlags::contains(REQUIRED_CHECKPOINT_SEALS)`. -/
def fullySealed (seals : UInt32) : Bool :=
  (seals &&& REQUIRED_CHECKPOINT_SEALS) == REQUIRED_CHECKPOINT_SEALS

/-- The effects of preparing and of reading an input. `cancelled_load` is the flag that tells
a preparation to stop, `rewind` a seek to the start, `pread` one positional read. -/
inductive InputOp where
  | memfd_create (name : String)
  | write_all (file : Fd) (bytes : Bytes)
  | cancelled_load
  | rewind (file : Fd)
  | add_seals (file : Fd) (seals : UInt32)
  | get_seals (file : Fd)
  | fstat (file : Fd)
  | pread (file : Fd) (len offset : ℕ)
  | try_reserve (len : ℕ)

/-- What each effect is answered with. A read returns no more than it was asked for. -/
@[reducible] def InputAnswer : InputOp → Type
  | .memfd_create _ => Except String Fd
  | .write_all _ _ => Except String Unit
  | .cancelled_load => Bool
  | .rewind _ => Except String Unit
  | .add_seals _ _ => Except String Unit
  | .get_seals _ => Except String UInt32
  | .fstat _ => Except String Stat
  | .pread _ len _ => Except String { bytes : Bytes // bytes.length ≤ len }
  | .try_reserve _ => Except String Unit

/-- One byte on the socket over which descriptors are passed, and the descriptor that travels with
it. -/
abbrev Parcel := UInt8 × Option Fd

/-- Bytes without descriptors. -/
def plainly (bytes : Bytes) : List Parcel := bytes.map fun byte => (byte, none)

/-- A program over these effects that may fail with an `ε`. -/
abbrev InputM (ε : Type) := Fallible InputOp InputAnswer ε

/-- One call, and its answer. -/
def ask (op : InputOp) : Prog InputOp InputAnswer (InputAnswer op) := perform op

/-- `option.ok_or_else(..)?`. -/
def orFail {ε α : Type} (e : ε) (o : Option α) : InputM ε α :=
  match o with
  | some a => .ret (.ok a)
  | none => .ret (.error e)

/-! ## The parent: `sealed_checkpoint_input` and `sealed_module_input`

A `memfd` is filled chunk by chunk and sealed, and what the kernel says of it is checked. -/

/-- `slice::chunks`, given at least as much fuel as there are bytes. -/
def chunks (size : ℕ) : ℕ → Bytes → List Bytes
  | 0, _ => []
  | fuel + 1, bytes =>
    if bytes.isEmpty then [] else bytes.take size :: chunks size fuel (bytes.drop size)

/-- The loop that copies the chunks of an input into its file and into the hash. -/
def fill_memfd (label : String) (file : Fd) : Bytes → List Bytes → InputM Error Bytes
  | hash, [] => pure hash
  | hash, chunk :: rest => do
      let cancelled ← Fallible.run (ask .cancelled_load)
      Fallible.reject cancelled .Cancelled
      Fallible.orElse (fun error => .Execution ("failed to fill " ++ label ++ " memfd: " ++ error))
        (ask (.write_all file chunk))
      fill_memfd label file (hash ++ chunk) rest

/-- What both functions do up to the query for the installed seals: the file, the digest of
what went into it, the seals. -/
def seal_memfd (W : Env) (name label : String) (input : Bytes) :
    InputM Error (Fd × String × UInt32) := do
  let file ← Fallible.orElse
    (fun error => .Execution ("failed to create " ++ label ++ " memfd: " ++ error))
    (ask (.memfd_create name))
  let hash ← fill_memfd label file [] (chunks (64 * 1024) input.length input)
  let cancelled ← Fallible.run (ask .cancelled_load)
  Fallible.reject cancelled .Cancelled
  Fallible.orElse (fun error => .Execution ("failed to rewind " ++ label ++ " memfd: " ++ error))
    (ask (.rewind file))
  Fallible.orElse (fun error => .Execution ("failed to seal " ++ label ++ " memfd: " ++ error))
    (ask (.add_seals file REQUIRED_CHECKPOINT_SEALS))
  let installed ← Fallible.orElse
    (fun error => .Execution ("failed to verify " ++ label ++ " memfd seals: " ++ error))
    (ask (.get_seals file))
  pure (file, W.sha256_hex hash, installed)

/-- `u64::try_from(stat.st_size).ok()`. -/
def Stat.size (stat : Stat) : Option ℕ :=
  if 0 ≤ stat.st_size then some stat.st_size.toNat else none

/-- The identity of an anonymous file of so many bytes. -/
def Stat.isMemfdOf (stat : Stat) (bytes : ℕ) : Bool :=
  stat.file_type == .RegularFile && stat.st_nlink == 0 && stat.size == some bytes

structure PreparedCheckpointInput where
  file : Fd
  journal_bytes : ℕ
  journal_sha256 : String

structure PreparedModuleInput where
  file : Fd
  bytes : ℕ
  sha256 : String

def sealed_checkpoint_input (W : Env) (journal : Bytes) : InputM Error PreparedCheckpointInput := do
  let journal_bytes ← orFail (.Checkpoint "checkpoint journal length overflows u64")
    (tryFrom u64_max journal.length)
  let (file, journal_sha256, installed) ←
    seal_memfd W "runtrue-wasix-checkpoint" "checkpoint" journal
  Fallible.reject (!fullySealed installed) (.Execution "checkpoint memfd is not fully sealed")
  let stat ← Fallible.orElse
    (fun error => .Execution ("failed to inspect checkpoint memfd: " ++ error))
    (ask (.fstat file))
  Fallible.reject (!stat.isMemfdOf journal_bytes)
    (.Execution "checkpoint memfd identity is invalid")
  pure ⟨file, journal_bytes, journal_sha256⟩

/-- `sealed_module_input`: the seals are checked after the file, and with it. -/
def sealed_module_input (W : Env) (module : Bytes) : InputM Error PreparedModuleInput := do
  let bytes ← orFail (.Checkpoint "WASIX module length overflows u64")
    (tryFrom u64_max module.length)
  let (file, sha256, installed) ← seal_memfd W "runtrue-wasix-module" "module" module
  let stat ← Fallible.orElse
    (fun error => .Execution ("failed to inspect module memfd: " ++ error))
    (ask (.fstat file))
  Fallible.reject (!fullySealed installed || !stat.isMemfdOf bytes)
    (.Execution "module memfd identity is invalid")
  pure ⟨file, bytes, sha256⟩

/-! ## The worker: `inspect_sealed_worker_input` and `read_sealed_module_bytes`

The worker reads by position: the kernel may answer any read with fewer bytes than were asked for,
so each of the three readers is a loop, here a recursion on fuel. No iteration makes no progress, so
the length of the file is enough fuel and the last case is the loop's exit, not a failure. -/

/-- The texts by which the two functions that hash a descriptor differ. -/
structure HashMessages where
  too_long : String
  cannot_read : String
  ended : String
  overflow : String
  cannot_finish : String
  trailing : String

/-- The loop of both: from `offset` on, every byte up to `bytes` goes into the hash. A `usize`
always fits into a `u64`, so of the conversions only the one to `usize` is kept. -/
def hash_loop (W : Env) (m : HashMessages) (file : Fd) (bytes : ℕ) :
    ℕ → ℕ → Bytes → InputM String Bytes
  | 0, _, hash => pure hash
  | fuel + 1, offset, hash =>
    if offset < bytes then do
      let remaining ← orFail m.too_long
        (tryFrom W.usize_max (min (bytes - offset) (64 * 1024)))
      let read ← Fallible.orElse (m.cannot_read ++ ·) (ask (.pread file remaining offset))
      Fallible.reject read.val.isEmpty m.ended
      let offset ← orFail m.overflow (checkedAdd u64_max offset read.val.length)
      hash_loop W m file bytes fuel offset (hash ++ read.val)
    else pure hash

/-- The loop, and the read past the end that must find nothing. -/
def hash_descriptor (W : Env) (m : HashMessages) (file : Fd) (bytes : ℕ) :
    InputM String String := do
  let hash ← hash_loop W m file bytes bytes 0 []
  let trailing ← Fallible.orElse (m.cannot_finish ++ ·) (ask (.pread file 1 bytes))
  Fallible.reject (!trailing.val.isEmpty) m.trailing
  pure (W.sha256_hex hash)

def sha256_descriptor (W : Env) (descriptor : Fd) (bytes : ℕ) (label : String) :
    InputM String String :=
  hash_descriptor W
    { too_long := label ++ " read length overflows usize"
      cannot_read := "cannot read " ++ label ++ ": "
      ended := label ++ " ended before its pinned length"
      overflow := label ++ " offset overflow"
      cannot_finish := "cannot finish reading " ++ label ++ ": "
      trailing := label ++ " grew while it was pinned" } descriptor bytes

structure SealedWorkerInputMetadata where
  bytes : ℕ
  sha256 : String
  deriving DecidableEq

def inspect_sealed_worker_input (W : Env) (descriptor : Fd) (maximum_bytes : ℕ)
    (label : String) : InputM String SealedWorkerInputMetadata := do
  let installed ← Fallible.orElse (label ++ " descriptor does not expose seals: " ++ ·)
    (ask (.get_seals descriptor))
  Fallible.reject (!fullySealed installed) (label ++ " descriptor is not fully sealed")
  let stat ← Fallible.orElse ("cannot inspect sealed " ++ label ++ " descriptor: " ++ ·)
    (ask (.fstat descriptor))
  let bytes ← orFail (label ++ " descriptor size is negative") stat.size
  let maximum_bytes ← orFail ("worker " ++ label ++ " limit overflows u64")
    (tryFrom u64_max maximum_bytes)
  Fallible.reject (stat.file_type != .RegularFile || stat.st_nlink != 0 || bytes == 0
    || decide (bytes > maximum_bytes)) (label ++ " descriptor identity or size is invalid")
  let sha256 ← hash_descriptor W
    { too_long := label ++ " read length overflows usize"
      cannot_read := "cannot read sealed " ++ label ++ " descriptor: "
      ended := "sealed " ++ label ++ " descriptor ended prematurely"
      overflow := label ++ " read offset overflowed"
      cannot_finish := "cannot finish sealed " ++ label ++ " descriptor: "
      trailing := "sealed " ++ label ++ " descriptor contains trailing bytes" } descriptor bytes
  pure ⟨bytes, sha256⟩

/-- The loop of `read_sealed_module_bytes`: `read` is what the buffer holds before `offset`,
which is its length. -/
def fill_loop (W : Env) (file : Fd) (len : ℕ) : ℕ → Bytes → InputM String Bytes
  | 0, bytes => pure bytes
  | fuel + 1, bytes =>
    if bytes.length < len then do
      let read ← Fallible.orElse ("cannot read sealed restore module: " ++ ·)
        (ask (.pread file (len - bytes.length) bytes.length))
      Fallible.reject read.val.isEmpty
        "sealed restore module ended before its acknowledged length"
      let _ ← orFail "sealed restore module offset overflowed"
        (checkedAdd W.usize_max bytes.length read.val.length)
      fill_loop W file len fuel (bytes ++ read.val)
    else pure bytes

def read_sealed_module_bytes (W : Env) (module : Fd) (module_length : ℕ) :
    InputM String Bytes := do
  let module_length ← orFail "sealed restore module length overflows usize"
    (tryFrom W.usize_max module_length)
  Fallible.orElse ("cannot allocate sealed restore module: " ++ ·)
    (ask (.try_reserve module_length))
  fill_loop W module module_length module_length []

/-! ## Files

The two halves are judged by different histories: the files that the parent has made (`filling`),
and the contents of files that no longer change (`reading`). -/

/-- An anonymous file: what it holds, and its seals. There is no offset: every write of the
source comes before the one seek, and every read is positional. -/
structure File where
  content : Bytes
  seals : UInt32
  deriving DecidableEq

/-- The files there are. -/
abbrev Files := Fd → Option File

/-- The history of a process that makes files: what it knows to be in each. A descriptor the
kernel hands out names a new file, and after a write that failed nothing is known of the
file. -/
def filling : Monitor Files InputOp InputAnswer where
  ok
    | files, .memfd_create _, .ok file => files file = none
    | _, _, _ => True
  after
    | files, .memfd_create _, .ok file => update files file (some ⟨[], 0⟩)
    | files, .write_all file bytes, .ok () =>
      update files file ((files file).map fun f => { f with content := f.content ++ bytes })
    | files, .write_all file _, .error _ => update files file none
    | files, .add_seals file seals, .ok () =>
      update files file ((files file).map fun f => { f with seals := f.seals ||| seals })
    | files, _, _ => files

/-- `bytes` is an answer to a read of `len` bytes at `offset` of a file that holds `content`:
some of what is there, and nothing only where there is nothing. -/
structure ReadOf (content : Bytes) (len offset : ℕ) (bytes : Bytes) : Prop where
  slice : bytes = (content.drop offset).take bytes.length
  nonempty : bytes = [] → 0 < len → content.length ≤ offset

/-- The history of a process that reads files whose contents are settled: there is none, but
the answers are reads of those contents. -/
def reading (image : Fd → Option Bytes) : Monitor Unit InputOp InputAnswer where
  ok
    | _, .pread file len offset, .ok bytes =>
      ∀ content, image file = some content → ReadOf content len offset bytes.val
    | _, _, _ => True
  after _ _ _ := ()

/-! ## What the parent's half makes

What it returns as prepared holds exactly its input, fully sealed. -/

theorem chunks_flatten {size : ℕ} (hsize : 0 < size) (fuel : ℕ) (bytes : Bytes)
    (hfuel : bytes.length ≤ fuel) : (chunks size fuel bytes).flatten = bytes := by
  induction fuel generalizing bytes with
  | zero =>
    have hnil : bytes = [] := List.length_eq_zero_iff.mp (by omega)
    rw [hnil]
    rfl
  | succ fuel ih =>
    unfold chunks
    by_cases hnil : bytes = []
    · simp [hnil]
    · have hlen : 0 < bytes.length := List.length_pos_iff.mpr hnil
      have hrest : (bytes.drop size).length ≤ fuel := by
        rw [List.length_drop]
        omega
      rw [if_neg (by simpa using hnil), List.flatten_cons, ih _ hrest, List.take_append_drop]

theorem ask_upholds {σ : Type} {M : Monitor σ InputOp InputAnswer} {G : σ → InputOp → Prop}
    (op : InputOp) {Q : InputAnswer op → σ → Prop} {s : σ} (hG : G s op)
    (h : ∀ r, M.ok s op r → Q r (M.after s op r)) : M.Upholds G Q (ask op) s := ⟨hG, h⟩

theorem orFail_upholds {σ ε α : Type} {M : Monitor σ InputOp InputAnswer} {G : σ → InputOp → Prop}
    (e : ε) (o : Option α) (s : σ) :
    M.Upholds G (Monitor.Post fun a s' => s = s' ∧ o = some a) (orFail e o) s := by
  cases o with
  | none => exact trivial
  | some a => exact ⟨rfl, rfl⟩

/-- The loop appends every chunk, to the file and to the hash. -/
theorem fill_memfd_upholds (label : String) (file : Fd) (list : List Bytes) (hash : Bytes)
    (files : Files) (f : File) (hf : files file = some f) :
    filling.Upholds (fun _ _ => True)
      (Post fun hash' files' => hash' = hash ++ list.flatten ∧
        files' = update files file (some { f with content := f.content ++ list.flatten }))
      (fill_memfd label file hash list) files := by
  induction list generalizing hash files f with
  | nil =>
    refine ⟨by simp, ?_⟩
    rw [List.flatten_nil, List.append_nil, ← hf, update_eq_self]
  | cons chunk rest ih =>
    unfold fill_memfd
    refine .bindF (.run (Q := fun _ s' => files = s')
      (ask_upholds .cancelled_load trivial fun _ _ => rfl)) ?_
    rintro cancelled _ rfl
    refine .bindF (.reject _ _ _) ?_
    rintro _ _ ⟨rfl, _⟩
    -- A chunk that was written is at the end of the file.
    refine .bindF (.orElse (Q := fun _ files' => files' = update files file
        (some { f with content := f.content ++ chunk }))
      (ask_upholds (.write_all file chunk) trivial ?_)) ?_
    · intro r _
      cases r with
      | error e => exact trivial
      | ok u =>
        show update files file _ = _
        rw [hf]
        rfl
    · rintro _ _ rfl
      refine .monoF (ih (hash ++ chunk) _ _ (update_self _ _ _)) ?_
      rintro hash' files' ⟨rfl, rfl⟩
      exact ⟨by simp, by simp⟩

/-- What `seal_memfd` returns is a new file with the input in it, under all four seals. -/
theorem seal_memfd_upholds (W : Env) (name label : String) (input : Bytes) (files : Files) :
    filling.Upholds (fun _ _ => True)
      (Post fun result files' => files result.1 = none ∧ result.2.1 = W.sha256_hex input ∧
        files' = update files result.1 (some ⟨input, REQUIRED_CHECKPOINT_SEALS⟩))
      (seal_memfd W name label input) files := by
  unfold seal_memfd
  refine .bindF (.orElse (Q := fun file files' => files file = none ∧
    files' = update files file (some ⟨[], 0⟩)) (ask_upholds (.memfd_create name) trivial ?_))
    ?_
  · intro r hr
    cases r with
    | error e => exact trivial
    | ok file => exact ⟨hr, rfl⟩
  rintro file _ ⟨hnew, rfl⟩
  refine .bindF (fill_memfd_upholds label file _ [] _ ⟨[], 0⟩ (update_self _ _ _)) ?_
  rintro hash _ ⟨rfl, rfl⟩
  rw [chunks_flatten (by omega) _ _ le_rfl, update_idem, List.nil_append]
  let filled : Files := update files file (some ⟨input, 0⟩)
  refine .bindF (.run (Q := fun _ s => filled = s)
    (ask_upholds .cancelled_load trivial fun _ _ => rfl)) ?_
  rintro cancelled _ rfl
  refine .bindF (.reject _ _ _) ?_
  rintro _ _ ⟨rfl, _⟩
  refine .bindF (.orElse_any (I := fun s => filled = s)
    (ask_upholds (.rewind file) trivial fun _ _ => rfl)) ?_
  rintro _ _ rfl
  -- The seals go onto a file that had none.
  let sealed : Files := update files file (some ⟨input, REQUIRED_CHECKPOINT_SEALS⟩)
  refine .bindF (.orElse (Q := fun _ s => sealed = s)
    (ask_upholds (.add_seals file REQUIRED_CHECKPOINT_SEALS) trivial ?_)) ?_
  · intro r _
    cases r with
    | error e => exact trivial
    | ok u =>
      have hfile : filled file = some ⟨input, 0⟩ := update_self _ _ _
      show sealed = update filled file ((filled file).map _)
      rw [hfile]
      show sealed = update (update files file (some ⟨input, 0⟩)) file _
      have hseals : 0 ||| REQUIRED_CHECKPOINT_SEALS = REQUIRED_CHECKPOINT_SEALS := by decide
      rw [update_idem, Option.map_some, hseals]
  rintro _ _ rfl
  refine .bindF (.orElse_any (I := fun s => sealed = s)
    (ask_upholds (.get_seals file) trivial fun _ _ => rfl)) ?_
  rintro installed _ rfl
  exact ⟨hnew, rfl, rfl⟩

/-- A prepared input: a file that was not there before, fully sealed, with the input in it, and
its length and digest beside it. -/
structure Prepared (W : Env) (input : Bytes) (files : Files) (file : Fd) (bytes : ℕ)
    (sha256 : String) (files' : Files) : Prop where
  new : files file = none
  files_eq : files' = update files file (some ⟨input, REQUIRED_CHECKPOINT_SEALS⟩)
  bytes_eq : bytes = input.length
  sha256_eq : sha256 = W.sha256_hex input

theorem sealed_checkpoint_input_upholds (W : Env) (journal : Bytes) (files : Files) :
    filling.Upholds (fun _ _ => True)
      (Post fun p files' => Prepared W journal files p.file p.journal_bytes p.journal_sha256 files')
      (sealed_checkpoint_input W journal) files := by
  unfold sealed_checkpoint_input
  refine .bindF (orFail_upholds _ _ _) ?_
  rintro bytes _ ⟨rfl, hbytes⟩
  refine .bindF (seal_memfd_upholds W _ _ journal files) ?_
  rintro ⟨file, sha256, installed⟩ files' ⟨hnew, hsha, hfiles⟩
  refine .bindF (.reject _ _ _) ?_
  rintro _ _ ⟨rfl, _⟩
  refine .bindF (.orElse_any (I := fun s => files' = s)
    (ask_upholds (.fstat file) trivial fun _ _ => rfl)) ?_
  rintro stat _ rfl
  refine .bindF (.reject _ _ _) ?_
  rintro _ _ ⟨rfl, _⟩
  exact ⟨hnew, hfiles, (tryFrom_eq_some.mp hbytes).2, hsha⟩

theorem sealed_module_input_upholds (W : Env) (module : Bytes) (files : Files) :
    filling.Upholds (fun _ _ => True)
      (Post fun p files' => Prepared W module files p.file p.bytes p.sha256 files')
      (sealed_module_input W module) files := by
  unfold sealed_module_input
  refine .bindF (orFail_upholds _ _ _) ?_
  rintro bytes _ ⟨rfl, hbytes⟩
  refine .bindF (seal_memfd_upholds W _ _ module files) ?_
  rintro ⟨file, sha256, installed⟩ files' ⟨hnew, hsha, hfiles⟩
  refine .bindF (.orElse_any (I := fun s => files' = s)
    (ask_upholds (.fstat file) trivial fun _ _ => rfl)) ?_
  rintro stat _ rfl
  refine .bindF (.reject _ _ _) ?_
  rintro _ _ ⟨rfl, _⟩
  exact ⟨hnew, hfiles, (tryFrom_eq_some.mp hbytes).2, hsha⟩

/-! ## What the worker's half reads

The length and the digest it reports and the bytes it later compiles are those of the file, whatever
the kernel's chunks. -/

/-- The effects of the worker's half: none of them changes a file. -/
def readsOnly : Unit → InputOp → Prop
  | _, .get_seals _ | _, .fstat _ | _, .pread _ _ _ | _, .try_reserve _ => True
  | _, _ => False

variable {content : Bytes} {image : Fd → Option Bytes} {file : Fd}

/-- A read extends what has been read. -/
theorem ReadOf.extend {bytes : Bytes} {len offset : ℕ} (h : ReadOf content len offset bytes)
    (hoffset : offset ≤ content.length) :
    content.take offset ++ bytes = content.take (offset + bytes.length) ∧
      offset + bytes.length ≤ content.length := by
  have hlen := congrArg List.length h.slice
  rw [List.length_take, List.length_drop] at hlen
  refine ⟨?_, by omega⟩
  rw [List.take_add, ← h.slice]

/-- One positional read. -/
theorem pread_upholds (himage : image file = some content) (wrap : String → String)
    (len offset : ℕ) (s : Unit) :
    (reading image).Upholds readsOnly
      (Post fun read _ => ReadOf content len offset read.val)
      (Fallible.orElse wrap (ask (.pread file len offset))) s := by
  refine .orElse (ask_upholds (.pread file len offset) trivial ?_)
  intro r hr
  cases r with
  | error e => exact trivial
  | ok read => exact hr content himage

/-- The step of both loops: what a read finds that finds something extends what has been read. -/
theorem piece_upholds (himage : image file = some content) {len offset : ℕ}
    {wrap : String → String} {ended : String}
    {k : { read : Bytes // read.length ≤ len } → InputM String Bytes} {Q : Bytes → Unit → Prop}
    (hread : offset ≤ content.length)
    (hk : ∀ read, 0 < read.val.length → offset + read.val.length ≤ content.length →
      content.take offset ++ read.val = content.take (offset + read.val.length) →
      (reading image).Upholds readsOnly (Post Q) (k read) ()) :
    (reading image).Upholds readsOnly (Post Q)
      (do
        let read ← Fallible.orElse wrap (ask (.pread file len offset))
        Fallible.reject read.val.isEmpty ended
        k read : InputM String Bytes) () := by
  refine .bindF (pread_upholds himage _ _ _ _) ?_
  rintro read _ hpiece
  refine .bindF (.reject _ _ _) ?_
  rintro _ _ ⟨_, hnonempty⟩
  obtain ⟨hextend, hbound⟩ := hpiece.extend hread
  refine hk read ?_ hbound hextend
  exact List.length_pos_iff.mpr (List.isEmpty_eq_false_iff.mp hnonempty)

/-- The loop hashes the file from its first byte to byte `bytes`, in whatever chunks. -/
theorem hash_loop_upholds (W : Env) (m : HashMessages) (himage : image file = some content)
    (bytes fuel offset : ℕ) (hoffset : offset ≤ bytes) (hfuel : bytes - offset ≤ fuel)
    (hread : offset ≤ content.length) :
    (reading image).Upholds readsOnly
      (Post fun hash _ => hash = content.take bytes ∧ bytes ≤ content.length)
      (hash_loop W m file bytes fuel offset (content.take offset)) () := by
  induction fuel generalizing offset with
  | zero =>
    obtain rfl : offset = bytes := by omega
    exact ⟨rfl, hread⟩
  | succ fuel ih =>
    unfold hash_loop
    by_cases hlt : offset < bytes
    · rw [if_pos hlt]
      refine .bindF (orFail_upholds _ _ _) ?_
      rintro remaining _ ⟨_, hremaining⟩
      obtain rfl := (tryFrom_eq_some.mp hremaining).2
      refine piece_upholds himage hread ?_
      intro read hpos hbound hextend
      have hle := read.property
      refine .bindF (orFail_upholds _ _ _) ?_
      rintro offset' _ ⟨_, hadd⟩
      obtain rfl := (checkedAdd_eq_some.mp hadd).2
      -- The read was not empty, so the fuel that is left covers the rest of the file.
      rw [hextend]
      exact ih (offset + read.val.length) (by omega) (by omega) hbound
    · obtain rfl : offset = bytes := by omega
      rw [if_neg hlt]
      exact ⟨rfl, hread⟩

/-- A digest of so many bytes of a file is the digest of the file, and so many is its length. -/
theorem hash_descriptor_upholds (W : Env) (m : HashMessages) (himage : image file = some content)
    (bytes : ℕ) :
    (reading image).Upholds readsOnly
      (Post fun sha256 _ => sha256 = W.sha256_hex content ∧ bytes = content.length)
      (hash_descriptor W m file bytes) () := by
  unfold hash_descriptor
  refine .bindF (hash_loop_upholds W m himage bytes bytes 0 (by omega) (by omega) (by omega)) ?_
  rintro hash _ ⟨rfl, hle⟩
  refine .bindF (pread_upholds himage _ _ _ _) ?_
  rintro ⟨read, hread⟩ _ hpiece
  refine .bindF (.reject _ _ _) ?_
  rintro _ _ ⟨_, hempty⟩
  have hend : content.length ≤ bytes := hpiece.nonempty (by simpa using hempty) (by omega)
  refine ⟨?_, by omega⟩
  rw [List.take_of_length_le hend]

theorem inspect_sealed_worker_input_upholds (W : Env) (himage : image file = some content)
    (maximum_bytes : ℕ) (label : String) :
    (reading image).Upholds readsOnly
      (Post fun md _ => md = ⟨content.length, W.sha256_hex content⟩)
      (inspect_sealed_worker_input W file maximum_bytes label) () := by
  unfold inspect_sealed_worker_input
  refine .bindF (.orElse_any (I := fun _ => True)
    (ask_upholds (.get_seals file) trivial fun _ _ => trivial)) ?_
  intro installed _ _
  refine .bindF (.reject _ _ _) ?_
  intro _ _ _
  refine .bindF (.orElse_any (I := fun _ => True)
    (ask_upholds (.fstat file) trivial fun _ _ => trivial)) ?_
  intro stat _ _
  refine .bindF (orFail_upholds _ _ _) ?_
  intro bytes _ _
  refine .bindF (orFail_upholds _ _ _) ?_
  intro maximum _ _
  refine .bindF (.reject _ _ _) ?_
  intro _ _ _
  refine .bindF (hash_descriptor_upholds W _ himage bytes) ?_
  rintro sha256 _ ⟨rfl, rfl⟩
  rfl

/-- The loop fills its buffer with the file, in whatever chunks. -/
theorem fill_loop_upholds (W : Env) (himage : image file = some content) (len fuel offset : ℕ)
    (hoffset : offset ≤ len) (hfuel : len - offset ≤ fuel) (hread : offset ≤ content.length) :
    (reading image).Upholds readsOnly (Post fun bytes _ => bytes = content.take len)
      (fill_loop W file len fuel (content.take offset)) () := by
  have hlen : ∀ offset ≤ content.length, (content.take offset).length = offset := by
    intro offset hle
    rw [List.length_take]
    omega
  induction fuel generalizing offset with
  | zero =>
    obtain rfl : offset = len := by omega
    rfl
  | succ fuel ih =>
    unfold fill_loop
    rw [hlen offset hread]
    by_cases hlt : offset < len
    · rw [if_pos hlt]
      refine piece_upholds himage hread ?_
      intro read hpos hbound hextend
      have hle := read.property
      refine .bindF (orFail_upholds _ _ _) ?_
      intro _ _ _
      rw [hextend]
      exact ih (offset + read.val.length) (by omega) (by omega) hbound
    · obtain rfl : offset = len := by omega
      rw [if_neg hlt]
      rfl

theorem read_sealed_module_bytes_upholds (W : Env) (himage : image file = some content) :
    (reading image).Upholds readsOnly
      (Post fun bytes _ => bytes = content ∧ bytes.length ≤ W.usize_max)
      (read_sealed_module_bytes W file content.length) () := by
  unfold read_sealed_module_bytes
  refine .bindF (orFail_upholds _ _ _) ?_
  rintro len _ ⟨_, hlen⟩
  obtain ⟨hfit, rfl⟩ := tryFrom_eq_some.mp hlen
  refine .bindF (.orElse_any (I := fun _ => True)
    (ask_upholds (.try_reserve _) trivial fun _ _ => trivial)) ?_
  intro _ _ _
  refine .monoF (fill_loop_upholds W himage content.length content.length 0 (by omega)
    (by omega) (by omega)) ?_
  rintro bytes _ htake
  have hbytes : bytes = content := htake.trans (List.take_length ..)
  refine ⟨hbytes, ?_⟩
  rw [hbytes]
  exact hfit

end WasmRuntime.Worker
