/-
The positional reads of a sealed input see the whole of it.

Three functions of `wasix_worker.rs` walk over a descriptor with `pread`:
`inspect_sealed_worker_input` and `sha256_descriptor` hash it through a window of 64 KiB, and
`read_sealed_module_bytes` fills a buffer of the acknowledged length. `SealedInput` shows that what
the loops return, if they return it, is the file.
-/
import WasmRuntime.SealedInput
import WasmRuntime.CaptureJournal

set_option autoImplicit false

namespace WasmRuntime.Worker

open ByteCodec Prog Monitor Exec

/-! ## The loops end

That their fuel is enough is a fact about the programs, whatever the kernel answers, errors included
(`hash_loop_enough`, `fill_loop_enough`): more fuel gives the same program. -/

section Enough

variable (W : Env) (m : HashMessages) (file : Fd)

theorem hash_loop_done {bytes offset : ℕ} (fuel : ℕ) (hash : Bytes) (hdone : bytes ≤ offset) :
    hash_loop W m file bytes fuel offset hash = pure hash := by
  cases fuel with
  | zero => rfl
  | succ fuel => rw [hash_loop, if_neg (by omega)]

/-- What comes after the check for an empty read matters only if something was read. -/
theorem reject_empty_congr {ε α : Type} {e : ε} {read : Bytes} {p q : InputM ε α}
    (h : 0 < read.length → p = q) :
    (Fallible.reject read.isEmpty e >>= fun _ => p : InputM ε α) =
      (Fallible.reject read.isEmpty e >>= fun _ => q : InputM ε α) := by
  rw [Fallible.reject_bind, Fallible.reject_bind]
  by_cases hempty : read.isEmpty = true
  · rw [if_pos hempty, if_pos hempty]
  · rw [if_neg hempty, if_neg hempty]
    apply h
    apply List.length_pos_iff.mpr
    simpa using hempty

/-- An iteration that goes on has read something, so fuel for the bytes that are left is enough
for any answers. -/
theorem hash_loop_enough {bytes fuel offset : ℕ} (hash : Bytes) (hfuel : bytes - offset ≤ fuel)
    (more : ℕ) :
    hash_loop W m file bytes (fuel + more) offset hash =
      hash_loop W m file bytes fuel offset hash := by
  induction fuel generalizing offset hash with
  | zero => rw [hash_loop_done W m file _ _ (by omega), hash_loop_done W m file _ _ (by omega)]
  | succ fuel ih =>
    rw [Nat.add_right_comm, hash_loop, hash_loop]
    by_cases hlt : offset < bytes
    · rw [if_pos hlt, if_pos hlt]
      refine bind_congr fun remaining => bind_congr fun read => reject_empty_congr fun hpos => ?_
      by_cases hadd : offset + read.val.length ≤ u64_max
      · rw [checkedAdd_of_le hadd]
        exact ih (hash ++ read.val) (by omega)
      · rw [checkedAdd_of_gt (by omega)]
        rfl
    · rw [if_neg hlt, if_neg hlt]

theorem fill_loop_done {len : ℕ} (fuel : ℕ) {bytes : Bytes} (hdone : len ≤ bytes.length) :
    fill_loop W file len fuel bytes = pure bytes := by
  cases fuel with
  | zero => rfl
  | succ fuel => rw [fill_loop, if_neg (by omega)]

theorem fill_loop_enough {len fuel : ℕ} {bytes : Bytes} (hfuel : len - bytes.length ≤ fuel)
    (more : ℕ) : fill_loop W file len (fuel + more) bytes = fill_loop W file len fuel bytes := by
  induction fuel generalizing bytes with
  | zero => rw [fill_loop_done W file _ (by omega), fill_loop_done W file _ (by omega)]
  | succ fuel ih =>
    rw [Nat.add_right_comm, fill_loop, fill_loop]
    by_cases hlt : bytes.length < len
    · rw [if_pos hlt, if_pos hlt]
      refine bind_congr fun read => reject_empty_congr fun hpos => bind_congr fun _ => ih ?_
      rw [List.length_append]
      omega
    · rw [if_neg hlt, if_neg hlt]

end Enough

/-! ## A kernel that answers

Without errors, and otherwise as it likes (`positional`). Both loops take a step in the same way,
`read_piece`. -/

/-- The history of a process that reads one sealed file by position: what its reads have
delivered so far. The file holds `content`, `fstat` says that it has `size` bytes, and nothing
fails; a read delivers some of what is there, and nothing only where there is nothing. -/
def positional (file : Fd) (content : Bytes) (size : ℕ) : Monitor Bytes InputOp InputAnswer where
  ok
    | _, .get_seals f, r => f = file → ∃ seals, r = .ok seals ∧ fullySealed seals = true
    | _, .fstat f, r => f = file → r = .ok ⟨.RegularFile, 0, size⟩
    | _, .pread f len offset, r =>
      f = file → ∃ bytes, r = .ok bytes ∧ ReadOf content len offset bytes.val
    | _, .try_reserve _, r => r = .ok ()
    | _, _, _ => True
  after
    | h, .pread _ _ _, .ok bytes => h ++ bytes.val
    | h, _, _ => h

/-- Every read starts where the last one ended, and what was delivered before it is the file up
to there; no read starts past the length `bytes` that was stated. Nothing is written. -/
def InOrder (file : Fd) (content : Bytes) (bytes : ℕ) : Bytes → InputOp → Prop
  | h, .pread f _ offset =>
    f = file ∧ offset = h.length ∧ h = content.take offset ∧ offset ≤ bytes
  | _, .get_seals _ | _, .fstat _ | _, .try_reserve _ => True
  | _, _ => False

/-- There is an answer to every effect: a read can deliver all that it was asked for. -/
theorem positional_answers (file : Fd) (content : Bytes) (size : ℕ) (h : Bytes) (op : InputOp) :
    ∃ r, (positional file content size).ok h op r := by
  cases op with
  | memfd_create name => exact ⟨.ok 0, trivial⟩
  | write_all f bytes => exact ⟨.ok (), trivial⟩
  | cancelled_load => exact ⟨false, trivial⟩
  | rewind f => exact ⟨.ok (), trivial⟩
  | add_seals f seals => exact ⟨.ok (), trivial⟩
  | get_seals f => exact ⟨.ok REQUIRED_CHECKPOINT_SEALS, fun _ => ⟨_, rfl, by decide⟩⟩
  | fstat f => exact ⟨.ok ⟨.RegularFile, 0, size⟩, fun _ => rfl⟩
  | pread f len offset =>
    have hlen : ((content.drop offset).take len).length ≤ len := List.length_take_le len _
    refine ⟨.ok ⟨(content.drop offset).take len, hlen⟩, fun _ => ⟨_, rfl, ?_, ?_⟩⟩
    · dsimp only
      rw [List.take_eq_take_iff, List.length_take]
      omega
    · intro hempty hpos
      have hnil := List.take_eq_nil_iff.mp hempty
      exact List.drop_eq_nil_iff.mp (hnil.resolve_left (by omega))
  | try_reserve len => exact ⟨.ok (), rfl⟩

theorem positional_yields {file : Fd} {content : Bytes} {size : ℕ} {α : Type}
    {G : Bytes → InputOp → Prop} {Q : α → Bytes → Prop} {p : Prog InputOp InputAnswer α} {h : Bytes}
    (hp : (positional file content size).Upholds G Q p h) :
    (positional file content size).Yields Q p h :=
  Upholds.yields (I := fun _ => True) hp trivial (fun _ _ _ _ _ => trivial)
    fun h op _ => positional_answers file content size h op

/-- What a walk over the first `bytes` bytes of the file comes to. -/
def Walked (content : Bytes) (bytes : ℕ) (ended : String) (r : Except String Bytes)
    (h : Bytes) : Prop :=
  (bytes ≤ content.length ∧ r = .ok (content.take bytes) ∧ h = content.take bytes) ∨
    (content.length < bytes ∧ r = .error ended)

section Steps

variable {file : Fd} {content : Bytes} {size bytes : ℕ}

theorem orFail_upholdsM {σ ε α : Type} {M : Monitor σ InputOp InputAnswer}
    {G : σ → InputOp → Prop} (e : ε) {o : Option α} {a : α} (ho : o = some a) (s : σ) :
    M.Upholds G (Monitor.Must fun b s' => a = b ∧ s = s') (orFail e o) s := by
  rw [ho]
  exact ⟨rfl, rfl⟩

/-- One read at the end of what was read before. -/
theorem pread_in_order {offset : ℕ} (hoffset : offset ≤ bytes) (hread : offset ≤ content.length)
    (wrap : String → String) (len : ℕ) :
    (positional file content size).Upholds (InOrder file content bytes)
      (Must fun read h => ReadOf content len offset read.val ∧ h = content.take offset ++ read.val)
      (Fallible.orElse wrap (ask (.pread file len offset))) (content.take offset) := by
  refine .orElseM (ask_upholds (.pread file len offset) ⟨rfl, ?_, rfl, hoffset⟩ ?_)
  · rw [List.length_take]
    omega
  · intro r hr
    obtain ⟨read, rfl, hpiece⟩ := hr rfl
    exact ⟨hpiece, rfl⟩

/-- The step of both loops: a read that finds nothing has found the end of a file that is too
short, and after any other the walk goes on from where the read ended. -/
theorem read_piece {len offset : ℕ} {wrap : String → String} {ended : String}
    {k : { read : Bytes // read.length ≤ len } → InputM String Bytes}
    (hlt : offset < bytes) (hread : offset ≤ content.length) (hlen : 0 < len)
    (hk : ∀ read, 0 < read.val.length → offset + read.val.length ≤ content.length →
      content.take offset ++ read.val = content.take (offset + read.val.length) →
      (positional file content size).Upholds (InOrder file content bytes)
        (Walked content bytes ended) (k read) (content.take (offset + read.val.length))) :
    (positional file content size).Upholds (InOrder file content bytes)
      (Walked content bytes ended)
      (do
        let read ← Fallible.orElse wrap (ask (.pread file len offset))
        Fallible.reject read.val.isEmpty ended
        k read : InputM String Bytes)
      (content.take offset) := by
  refine .bindM (pread_in_order (by omega) hread wrap len) ?_
  rintro read _ ⟨hpiece, rfl⟩
  rw [Fallible.reject_bind]
  by_cases hempty : read.val = []
  · rw [if_pos (by simpa using hempty)]
    -- A read of nothing is the end of the file, because something was asked for.
    have hend : content.length ≤ offset := hpiece.nonempty hempty hlen
    exact .inr ⟨by omega, rfl⟩
  · rw [if_neg (by simpa using hempty)]
    obtain ⟨hextend, hbound⟩ := hpiece.extend hread
    rw [hextend]
    exact hk read (List.length_pos_iff.mpr hempty) hbound hextend

end Steps

/-! ## The three walks

The loops do return; every read starts where the last one ended, so that no byte is skipped or seen
twice and no offset overflows (`InOrder`). -/

section Walks

variable (W : Env) {file : Fd} {content : Bytes} {size bytes : ℕ}

/-- The hash takes in the file from its first byte to byte `bytes`. -/
theorem hash_loop_walks (m : HashMessages) (hbytes : bytes ≤ u64_max) (fuel offset : ℕ)
    (hoffset : offset ≤ bytes) (hfuel : bytes - offset ≤ fuel) (hread : offset ≤ content.length) :
    (positional file content size).Upholds (InOrder file content bytes)
      (Walked content bytes m.ended)
      (hash_loop W m file bytes fuel offset (content.take offset)) (content.take offset) := by
  have husize := W.u32_max_le_usize_max
  have hwindow : 64 * 1024 ≤ u32_max := by decide
  induction fuel generalizing offset with
  | zero =>
    obtain rfl : offset = bytes := by omega
    exact .inl ⟨hread, rfl, rfl⟩
  | succ fuel ih =>
    unfold hash_loop
    by_cases hlt : offset < bytes
    · rw [if_pos hlt]
      refine .bindM (orFail_upholdsM _ (tryFrom_of_le (by omega)) _) ?_
      rintro _ _ ⟨rfl, rfl⟩
      refine read_piece hlt hread (by omega) ?_
      intro read hpos hbound hextend
      -- The window ends at `bytes` at the latest, so the sum is a `u64`.
      have hle := read.property
      refine .bindM (orFail_upholdsM _ (checkedAdd_of_le (by omega)) _) ?_
      rintro _ _ ⟨rfl, rfl⟩
      rw [hextend]
      exact ih (offset + read.val.length) (by omega) (by omega) hbound
    · obtain rfl : offset = bytes := by omega
      rw [if_neg hlt]
      exact .inl ⟨hread, rfl, rfl⟩

/-- The buffer is filled with the file from its first byte to byte `bytes`. -/
theorem fill_loop_walks (hbytes : bytes ≤ W.usize_max) (fuel offset : ℕ)
    (hoffset : offset ≤ bytes) (hfuel : bytes - offset ≤ fuel) (hread : offset ≤ content.length) :
    (positional file content size).Upholds (InOrder file content bytes)
      (Walked content bytes "sealed restore module ended before its acknowledged length")
      (fill_loop W file bytes fuel (content.take offset)) (content.take offset) := by
  induction fuel generalizing offset with
  | zero =>
    obtain rfl : offset = bytes := by omega
    exact .inl ⟨hread, rfl, rfl⟩
  | succ fuel ih =>
    -- The offset of this loop is the number of bytes in its buffer.
    have hlength : (content.take offset).length = offset := by
      rw [List.length_take]
      omega
    unfold fill_loop
    rw [hlength]
    by_cases hlt : offset < bytes
    · rw [if_pos hlt]
      refine read_piece hlt hread (by omega) ?_
      intro read hpos hbound hextend
      have hle := read.property
      refine .bindM (orFail_upholdsM _ (checkedAdd_of_le (by omega)) _) ?_
      rintro _ _ ⟨-, rfl⟩
      rw [hextend]
      exact ih (offset + read.val.length) (by omega) (by omega) hbound
    · obtain rfl : offset = bytes := by omega
      rw [if_neg hlt]
      exact .inl ⟨hread, rfl, rfl⟩

/-- What hashing a file under a stated length comes to. -/
def digest_under (m : HashMessages) (content : Bytes) (bytes : ℕ) : Except String String :=
  if content.length < bytes then .error m.ended
  else if bytes < content.length then .error m.trailing
  else .ok (W.sha256_hex content)

theorem digest_under_length (m : HashMessages) (content : Bytes) :
    digest_under W m content content.length = .ok (W.sha256_hex content) := by
  unfold digest_under
  rw [if_neg (lt_irrefl _), if_neg (lt_irrefl _)]

theorem digest_under_other (m : HashMessages) (hne : bytes ≠ content.length) :
    ∃ e, digest_under W m content bytes = .error e := by
  unfold digest_under
  by_cases hlt : content.length < bytes
  · rw [if_pos hlt]
    exact ⟨_, rfl⟩
  · rw [if_neg hlt, if_pos (by omega)]
    exact ⟨_, rfl⟩

/-- The digest of the content, from reads in order. -/
theorem hash_descriptor_walks (m : HashMessages) (hbytes : bytes ≤ u64_max) :
    (positional file content size).Upholds (InOrder file content bytes)
      (fun r _ => r = digest_under W m content bytes) (hash_descriptor W m file bytes) [] := by
  unfold hash_descriptor
  have hloop := @hash_loop_walks W file content size bytes m hbytes bytes 0 (by omega) (by omega)
    (by omega)
  rw [List.take_zero] at hloop
  refine .bind hloop ?_
  rintro r h (⟨hle, rfl, rfl⟩ | ⟨hshort, rfl⟩)
  · -- All of it was hashed; one byte more tells whether there is more.
    refine .bindM (pread_in_order le_rfl hle _ 1) ?_
    rintro read _ ⟨hpiece, rfl⟩
    rw [Fallible.reject_bind]
    by_cases hempty : read.val = []
    · have hend : content.length ≤ bytes := hpiece.nonempty hempty (by omega)
      obtain rfl : bytes = content.length := by omega
      rw [if_neg (by simpa using hempty), digest_under_length, List.take_length]
      exact rfl
    · have hpos : 0 < read.val.length := List.length_pos_iff.mpr hempty
      have hbound := (hpiece.extend hle).2
      rw [if_pos (by simpa using hempty)]
      unfold digest_under
      rw [if_neg (by omega), if_pos (by omega)]
      exact rfl
  · unfold digest_under
    rw [if_pos hshort]
    exact rfl

/-- `inspect_sealed_worker_input` takes the length it hashes from `fstat`. -/
theorem inspect_sealed_worker_input_walks {maximum : ℕ} (hmaximum : maximum ≤ W.usize_max)
    (label : String) :
    (positional file content size).Upholds (InOrder file content size)
      (fun r _ => (size = content.length → 0 < size → size ≤ maximum →
          r = .ok ⟨content.length, W.sha256_hex content⟩) ∧
        (size ≠ content.length → ∃ e, r = .error e))
      (inspect_sealed_worker_input W file maximum label) [] := by
  unfold inspect_sealed_worker_input
  have hu64 : maximum ≤ u64_max := hmaximum.trans W.checkpoint.target.usize_max_le_u64_max
  refine .bindM (Q := fun seals h => fullySealed seals = true ∧ [] = h)
    (.orElseM (ask_upholds (.get_seals file) trivial ?_)) ?_
  · intro r hr
    obtain ⟨seals, rfl, hsealed⟩ := hr rfl
    exact ⟨hsealed, rfl⟩
  rintro seals _ ⟨hsealed, rfl⟩
  rw [hsealed, Bool.not_true, Fallible.reject_false_bind]
  refine .bindM (Q := fun stat h => stat = ⟨.RegularFile, 0, size⟩ ∧ [] = h)
    (.orElseM (ask_upholds (.fstat file) trivial ?_)) ?_
  · intro r hr
    have hstat : r = .ok ⟨.RegularFile, 0, size⟩ := hr rfl
    rw [hstat]
    exact ⟨rfl, rfl⟩
  rintro _ _ ⟨rfl, rfl⟩
  have hsize : Stat.size ⟨.RegularFile, 0, size⟩ = some size := by simp [Stat.size]
  refine .bindM (orFail_upholdsM _ hsize _) ?_
  rintro _ _ ⟨rfl, rfl⟩
  refine .bindM (orFail_upholdsM _ (tryFrom_of_le hu64) _) ?_
  rintro _ _ ⟨rfl, rfl⟩
  rw [Fallible.reject_bind]
  -- The file is a regular one without links, so the length alone decides.
  by_cases hvalid : 0 < size ∧ size ≤ maximum
  · rw [if_neg (by simp; omega)]
    refine .bind (hash_descriptor_walks W _ (by omega)) ?_
    rintro _ _ rfl
    by_cases heq : size = content.length
    · rw [heq, digest_under_length]
      exact ⟨fun _ _ _ => rfl, fun hne => absurd rfl hne⟩
    · obtain ⟨e, he⟩ := digest_under_other W _ heq
      rw [he]
      exact ⟨fun hsame => absurd hsame heq, fun _ => ⟨e, rfl⟩⟩
  · rw [if_pos (by simp; omega)]
    exact ⟨fun _ hpos hle => absurd ⟨hpos, hle⟩ hvalid, fun _ => ⟨_, rfl⟩⟩

/-- The content, from reads in order. -/
theorem read_sealed_module_bytes_walks (hfit : content.length ≤ W.usize_max) :
    (positional file content size).Upholds (InOrder file content content.length)
      (fun r _ => r = .ok content) (read_sealed_module_bytes W file content.length) [] := by
  unfold read_sealed_module_bytes
  refine .bindM (orFail_upholdsM _ (tryFrom_of_le hfit) _) ?_
  rintro _ _ ⟨rfl, rfl⟩
  refine .bindM (Q := fun _ h => [] = h)
    (.orElseM (ask_upholds (.try_reserve content.length) trivial ?_)) ?_
  · intro r hr
    have hgranted : r = .ok () := hr
    rw [hgranted]
    exact rfl
  rintro _ _ rfl
  have hloop := @fill_loop_walks W file content size content.length hfit content.length 0
    (by omega) (by omega) (by omega)
  rw [List.take_zero] at hloop
  refine .mono hloop ?_
  rintro r h (⟨-, rfl, -⟩ | ⟨hshort, -⟩)
  · rw [List.take_length]
  · exact absurd hshort (lt_irrefl _)

end Walks

/-! ## The whole input

A length that is not the file's is turned away, by the loop when the file is shorter and by the read
past the end when it is longer. -/

/-- The program, told that the file has `stated` bytes, reads it in order and returns, and `Q`
holds of what it returns. -/
def Reads {α : Type} (file : Fd) (content : Bytes) (stated : ℕ) (Q : Except String α → Prop)
    (p : InputM String α) : Prop :=
  (positional file content stated).Upholds (InOrder file content stated) (fun r _ => Q r) p [] ∧
    (positional file content stated).Yields (fun r _ => Q r) p []

/-- What holds of the positional reads holds of every run. -/
theorem Reads.of_upholds {α : Type} {file : Fd} {content : Bytes} {stated : ℕ}
    {Q Q' : Except String α → Prop} {p : InputM String α}
    (h : (positional file content stated).Upholds (InOrder file content stated)
      (fun r _ => Q r) p [])
    (himp : ∀ r, Q r → Q' r) : Reads file content stated Q' p :=
  have h' := Upholds.mono h fun r _ => himp r
  ⟨h', positional_yields h'⟩

/-- The two steps of the worker's restore: the metadata it acknowledges and, later, the bytes it
compiles. -/
def inspect_then_read (W : Env) (file : Fd) (maximum : ℕ) (label : String) :
    InputM String (SealedWorkerInputMetadata × Bytes) := do
  let accepted ← inspect_sealed_worker_input W file maximum label
  let bytes ← read_sealed_module_bytes W file accepted.bytes
  pure (accepted, bytes)

/-- Whatever the kernel answers, what the worker compiles has the digest it acknowledged. -/
theorem inspect_then_read_upholds (W : Env) {image : Fd → Option Bytes} {file : Fd}
    {content : Bytes} (himage : image file = some content) (maximum : ℕ) (label : String) :
    (reading image).Upholds readsOnly
      (Post fun result _ => result.2 = content ∧ result.1.sha256 = W.sha256_hex result.2)
      (inspect_then_read W file maximum label) () := by
  unfold inspect_then_read
  refine .bindF (inspect_sealed_worker_input_upholds W himage maximum label) ?_
  rintro _ _ rfl
  refine .bindF (read_sealed_module_bytes_upholds W himage) ?_
  rintro bytes _ ⟨rfl, -⟩
  exact ⟨rfl, rfl⟩

/-- The positional reads see the whole input. For every content of a file, and however the kernel
cuts the reads: inspection returns the length and the digest of the content, `sha256_descriptor`
its digest and `read_sealed_module_bytes` the content itself, if a `usize` can hold its length; a
length that is not the file's is an error for the two that hash; each of them reads the file in
order; more fuel changes none of the loops; and what is compiled has the digest that was
acknowledged. -/
theorem sealed_input_read_whole (W : Env) (file : Fd) (content : Bytes)
    (hcontent : content.length ≤ u64_max) :
    (∀ maximum label, maximum ≤ W.usize_max → 0 < content.length → content.length ≤ maximum →
      Reads file content content.length (· = .ok ⟨content.length, W.sha256_hex content⟩)
        (inspect_sealed_worker_input W file maximum label)) ∧
    (∀ label, Reads file content content.length (· = .ok (W.sha256_hex content))
      (sha256_descriptor W file content.length label)) ∧
    (content.length ≤ W.usize_max →
      Reads file content content.length (· = .ok content)
        (read_sealed_module_bytes W file content.length)) ∧
    (W.usize_max < content.length →
      read_sealed_module_bytes W file content.length =
        .ret (.error "sealed restore module length overflows usize")) ∧
    (∀ stated maximum label, stated ≤ u64_max → maximum ≤ W.usize_max →
      stated ≠ content.length →
      Reads file content stated (fun r => ∃ e, r = .error e)
          (inspect_sealed_worker_input W file maximum label) ∧
        Reads file content stated (fun r => ∃ e, r = .error e)
          (sha256_descriptor W file stated label)) ∧
    (∀ m bytes more, hash_loop W m file bytes (bytes + more) 0 [] =
      hash_loop W m file bytes bytes 0 []) ∧
    (∀ len more, fill_loop W file len (len + more) [] = fill_loop W file len len []) ∧
    (∀ image maximum label, image file = some content →
      (reading image).Upholds readsOnly
        (Post fun result _ => result.2 = content ∧ result.1.sha256 = W.sha256_hex result.2)
        (inspect_then_read W file maximum label) ()) := by
  refine ⟨?_, ?_, ?_, ?_, ?_, ?_, ?_, ?_⟩
  · intro maximum label hmaximum hpos hle
    apply Reads.of_upholds (inspect_sealed_worker_input_walks W hmaximum label)
    intro r hr
    exact hr.1 rfl hpos hle
  · intro label
    apply Reads.of_upholds (hash_descriptor_walks W _ hcontent)
    intro r hr
    rw [hr, digest_under_length]
  · intro hfit
    apply Reads.of_upholds (read_sealed_module_bytes_walks W hfit)
    exact fun r hr => hr
  · intro hlong
    -- No call is made for a length that is no `usize`.
    unfold read_sealed_module_bytes tryFrom
    rw [if_neg (by omega)]
    rfl
  · intro stated maximum label hstated hmaximum hne
    constructor
    · apply Reads.of_upholds (inspect_sealed_worker_input_walks W hmaximum label)
      intro r hr
      exact hr.2 hne
    · apply Reads.of_upholds (hash_descriptor_walks W _ hstated)
      intro r hr
      rw [hr]
      exact digest_under_other W _ hne
  · intro m bytes more
    exact hash_loop_enough W m file [] (by omega) more
  · intro len more
    exact fill_loop_enough W file (by simp) more
  · intro image maximum label himage
    exact inspect_then_read_upholds W himage maximum label

/-- The header of a module: it is inspected and read, by some run, and turned away when `fstat`
says that there is a byte more. -/
theorem sealed_input_read_whole_header :
    (∃ r h, (positional 7 [0, 97, 115, 109] 4).Comes
        (inspect_sealed_worker_input sampleWorkerEnv 7 64 "module") [] (.ret r) h ∧
      r = .ok ⟨4, sampleWorkerEnv.sha256_hex [0, 97, 115, 109]⟩) ∧
    (∃ r h, (positional 7 [0, 97, 115, 109] 4).Comes
        (read_sealed_module_bytes sampleWorkerEnv 7 4) [] (.ret r) h ∧
      r = .ok [0, 97, 115, 109]) ∧
    (∃ r h, (positional 7 [0, 97, 115, 109] 5).Comes
        (inspect_sealed_worker_input sampleWorkerEnv 7 64 "module") [] (.ret r) h ∧
      ∃ e, r = .error e) := by
  have hu32 := sampleWorkerEnv.u32_max_le_usize_max
  have hsmall : 64 ≤ u32_max := by decide
  obtain ⟨hinspect, -, hread, -, hrefuse, -⟩ :=
    sealed_input_read_whole sampleWorkerEnv 7 [0, 97, 115, 109] (by decide)
  have hfour : ([0, 97, 115, 109] : Bytes).length = 4 := rfl
  exact ⟨(hinspect 64 "module" (by omega) (by decide) (by decide)).2.returns,
    (hread (by omega)).2.returns,
    (hrefuse 5 64 "module" (by decide) (by omega) (by decide)).1.2.returns⟩

end WasmRuntime.Worker
