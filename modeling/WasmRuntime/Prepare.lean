/-
`RuntimeInner::prepare`, `tier` and `demote`, as programs.

`prepare` tries four sources in turn: the warm map, the warmish map, the disk and the compiler. A
runtime is known by a number, which stands for its own memory; a restart is a number not used
before.
-/
import Mathlib.Data.List.Sort
import Mathlib.Data.List.Destutter
import WasmRuntime.MemoryCache

set_option autoImplicit false

namespace WasmRuntime.Cache

open ByteCodec Prog Function

/-! ## The engine

A parameter: components are an arbitrary type, compilation, serialization and deserialization are
functions on it, and `detect_profile` reads the names of a component's exports. -/

/-- What Wasmtime does for the runtime. An error is its text. -/
structure Engine (κ : Type) where
  from_binary : Bytes → Except String κ
  exports : κ → List String
  serialize : κ → Except String Bytes
  deserialize : Bytes → Except String κ

/-- `str::starts_with`. -/
def starts_with (name start : String) : Bool := start.toList.isPrefixOf name.toList

/-- The profile an export stands for. -/
def export_profile (name : String) : Option WasiProfile :=
  if starts_with name "wasi:cli/run@0.3." then some .Cli0_3
  else if starts_with name "wasi:cli/run@0.2." then some .Cli0_2
  else if starts_with name "wasi:http/handler@0.3." then some .Http0_3
  else if starts_with name "wasi:http/incoming-handler@0.2." then some .Http0_2
  else none

namespace Engine

variable {κ : Type} (engine : Engine κ)

def detect_profile (component : κ) : Except Error WasiProfile :=
  let profiles := (engine.exports component).filterMap export_profile
  let profiles := profiles.insertionSort fun p q => p.cache_id ≤ q.cache_id
  match profiles.destutter (· ≠ ·) with
  | [profile] => .ok profile
  | [] => .error (.UnsupportedComponent "expected a standard WASI CLI or HTTP handler export")
  | _ => .error (.UnsupportedComponent
      "component exports more than one supported WASI world")

def deserialize_component (aot : PreparedAot) : Except Error (PreparedComponent κ) := do
  let component ← (engine.deserialize aot.bytes).mapError Error.Preparation
  let detected ← engine.detect_profile component
  if detected != aot.profile then
    throw (.Cache "deserialized component profile mismatch")
  pure ⟨component, detected⟩

/-- The closure `prepare` hands to `spawn_blocking`. -/
def compile (source : Bytes) : Except Error (PreparedComponent κ × Bytes) := do
  let component ← (engine.from_binary source).mapError Error.Preparation
  let profile ← engine.detect_profile component
  let bytes ← (engine.serialize component).mapError Error.Preparation
  pure (⟨component, profile⟩, bytes)

end Engine

/-! ## Effects

What `prepare` does outside its own thread: the operations on the memory cache, each of which holds
the mutex for its whole length, the look into the map of locks, the lock that was found there, the
file operations, and the wait for the compiler task. -/

/-- What is done to the memory cache under one hold of its mutex. -/
inductive MemoryOp (κ : Type) where
  | warm (digest : Digest)
  | warmish (digest : Digest)
  | insert_warm (digest : Digest) (prepared : PreparedComponent κ)
  | insert (digest : Digest) (aot : PreparedAot) (prepared : PreparedComponent κ)
  | tier (digest : Digest)
  | demote (digest : Digest)

/-- The answers. -/
@[reducible]
def MemoryOp.Answer {κ : Type} : MemoryOp κ → Type
  | .warm _ => Option (PreparedComponent κ)
  | .warmish _ => Option PreparedAot
  | .insert_warm _ _ => Unit
  | .insert _ _ _ => Unit
  | .tier _ => Option PackageTier
  | .demote _ => Unit

/-- Which lock: the `Arc<tokio::sync::Mutex<()>>`s of a runtime, numbered as they are made. -/
abbrev LockId : Type := ℕ

/-- The effects of a runtime; the number says which runtime. A call locks what the map of
preparation locks has handed to it. -/
inductive RtOp (κ : Type) where
  | disk (rid : ℕ) (op : DiskOp)
  | memory (rid : ℕ) (op : MemoryOp κ)
  | preparation_locks (rid : ℕ) (digest : Digest)
  | lock (rid : ℕ) (id : LockId)
  | unlock (rid : ℕ) (id : LockId)
  | spawn_blocking (rid : ℕ)
  | publish_failure (rid : ℕ)

/-- The answers: a mutex may be poisoned and a task may fail to join. -/
@[reducible]
def RtOp.Answer {κ : Type} : RtOp κ → Type
  | .disk _ op => op.Answer
  | .memory _ op => Except Unit op.Answer
  | .preparation_locks _ _ => Except Unit LockId
  | .lock _ _ => Unit
  | .unlock _ _ => Unit
  | .spawn_blocking _ => Except String Unit
  | .publish_failure _ => Unit

/-- A fallible program of a runtime. -/
abbrev RtM (κ : Type) (α : Type) : Type := Fallible (RtOp κ) RtOp.Answer Error α

/-- `RuntimeInner`: its number, its process, and its configuration. -/
structure RuntimeInner where
  rid : ℕ
  pid : UInt32
  config : MemoryLimits
  disk : Option DiskCache

/-! ## The programs

In the order of the source, from the pieces to the three methods. -/

section Programs

variable {κ : Type} (E : CacheEnv) (engine : Engine κ)

/-- A program of the disk cache. -/
def onDisk {α : Type} (rid : ℕ) (p : DiskM α) : RtM κ α :=
  Prog.lift (RtOp.disk rid) (fun _ answer => answer) p

/-- `self.memory.lock().map_err(..)?` and what is done under it. -/
def memory (rid : ℕ) (op : MemoryOp κ) : RtM κ op.Answer :=
  Fallible.orElse (fun _ => Error.Preparation "memory cache is poisoned")
    (.vis (.memory rid op) .ret : Prog (RtOp κ) RtOp.Answer (Except Unit op.Answer))

/-- The lock that stands under the digest in `preparation_locks`. -/
def preparation_lock (rid : ℕ) (digest : Digest) : RtM κ LockId :=
  Fallible.orElse (fun _ => Error.Preparation "preparation lock map is poisoned")
    (.vis (.preparation_locks rid digest) .ret :
      Prog (RtOp κ) RtOp.Answer (Except Unit LockId))

/-- `spawn_blocking(..).await`, without what the task computes. -/
def join (rid : ℕ) : RtM κ Unit :=
  Fallible.orElse (fun error => Error.Preparation ("compiler task failed: " ++ error))
    (.vis (.spawn_blocking rid) .ret : Prog (RtOp κ) RtOp.Answer (Except String Unit))

/-- The loop of `prepare` over the profiles of the disk cache. -/
def load_profiles (rid : ℕ) (disk : DiskCache) (digest : Digest) :
    List WasiProfile → RtM κ (Option (PreparedComponent κ))
  | [] => pure none
  | profile :: rest => do
      match ← onDisk rid (disk.load E digest profile) with
      | none => load_profiles rid disk digest rest
      | some bytes =>
        let aot : PreparedAot := ⟨bytes, profile⟩
        let prepared ← Fallible.ofExcept (engine.deserialize_component aot)
        Fallible.reject (prepared.profile != profile)
          (.Cache "serialized artifact profile does not match its identity")
        memory rid (.insert digest aot prepared)
        pure (some prepared)

/-- `disk.publish(..)`, whose failure is counted and no more. -/
def publish_or_count (self : RuntimeInner) (disk : DiskCache) (digest : Digest)
    (profile : WasiProfile) (bytes : Bytes) : RtM κ Unit :=
  Prog.bind (onDisk self.rid (disk.publish E self.pid digest profile bytes)) fun
    | .ok () => .ret (.ok ())
    | .error _ => .vis (.publish_failure self.rid) fun _ => .ret (.ok ())

/-- `if let Some(disk) = &self.disk` around the publication. -/
def publish_to_disk (self : RuntimeInner) (digest : Digest) (profile : WasiProfile)
    (bytes : Bytes) : RtM κ Unit :=
  match self.disk with
  | some disk => publish_or_count E self disk digest profile bytes
  | none => pure ()

/-- `if let Some(disk) = &self.disk` around the loop over the profiles. -/
def load_from_disk (self : RuntimeInner) (digest : Digest) :
    RtM κ (Option (PreparedComponent κ)) :=
  match self.disk with
  | some disk => load_profiles E engine self.rid disk digest WasiProfile.ALL
  | none => pure none

/-- The rest of `prepare` when neither memory nor disk has the component. -/
def compile_and_publish (self : RuntimeInner) (digest : Digest) (source : Bytes) :
    RtM κ (PreparedComponent κ) := do
  join self.rid
  let (prepared, aot_bytes) ← Fallible.ofExcept (engine.compile source)
  publish_to_disk E self digest prepared.profile aot_bytes
  memory self.rid (.insert digest ⟨aot_bytes, prepared.profile⟩ prepared)
  pure prepared

/-- `prepare` from the disk on. -/
def prepare_cold (self : RuntimeInner) (digest : Digest) (source : Bytes) :
    RtM κ (PreparedComponent κ) := do
  match ← load_from_disk E engine self digest with
  | some prepared => pure prepared
  | none => compile_and_publish E engine self digest source

/-- `prepare` while it holds the lock of the digest. -/
def prepare_locked (self : RuntimeInner) (digest : Digest) (source : Bytes) :
    RtM κ (PreparedComponent κ) := do
  match ← memory self.rid (.warm digest) with
  | some component => pure component
  | none =>
    match ← memory self.rid (.warmish digest) with
    | some aot => do
        let prepared ← Fallible.ofExcept (engine.deserialize_component aot)
        memory self.rid (.insert_warm digest prepared)
        pure prepared
    | none => prepare_cold E engine self digest source

/-- A lock, held around a program and dropped however it ends. -/
def guarded {α : Type} (rid : ℕ) (id : LockId) (p : RtM κ α) : RtM κ α :=
  .vis (.lock rid id) fun _ =>
    Prog.bind p fun result => .vis (.unlock rid id) fun _ => .ret result

/-- `RuntimeInner::prepare`. -/
def prepare (self : RuntimeInner) (digest : Digest) (source : Bytes) :
    RtM κ (PreparedComponent κ) := do
  match ← memory self.rid (.warm digest) with
  | some component => pure component
  | none =>
    let lock ← preparation_lock self.rid digest
    guarded self.rid lock (prepare_locked E engine self digest source)

/-- `any(|profile| disk.contains(digest, profile))`. -/
def contains_any (rid : ℕ) (digest : Digest) : List WasiProfile → RtM κ Bool
  | [] => pure false
  | profile :: rest => do
      if ← onDisk rid (DiskCache.contains digest profile) then pure true
      else contains_any rid digest rest

/-- `self.disk.as_ref().is_some_and(..)`. -/
def on_disk (self : RuntimeInner) (digest : Digest) : RtM κ Bool :=
  match self.disk with
  | some _ => contains_any self.rid digest WasiProfile.ALL
  | none => pure false

/-- `tier` past the memory. -/
def tier_on_disk (self : RuntimeInner) (digest : Digest) : RtM κ PackageTier := do
  if ← on_disk self digest then pure .DiskAot else pure .Cold

/-- `RuntimeInner::tier`; a poisoned mutex is passed over. -/
def tier (self : RuntimeInner) (digest : Digest) : RtM κ PackageTier :=
  .vis (.memory self.rid (.tier digest)) fun
    | .ok (some tier) => .ret (.ok tier)
    | _ => tier_on_disk self digest

/-- `RuntimeInner::demote`. -/
def demote (self : RuntimeInner) (digest : Digest) : RtM κ Unit :=
  .vis (.memory self.rid (.demote digest)) fun _ => .ret (.ok ())

end Programs

/-! ## The map of locks

`preparation_locks` is a map from digests to locks, behind a mutex. A lock is made by the first
call that asks for its digest, stays in the map for the life of the runtime, and every call gets
a clone of the `Arc`, that is the lock's number. Which calls exclude each other is decided by the
numbers that they were handed, and not by the digest. -/

/-- `preparation_locks` of a runtime, with the locks that were made and which of them are held. -/
structure PreparationLocks where
  entries : Digest → Option LockId
  /-- How many locks were made: the number of the next one. -/
  made : ℕ
  held : LockId → Bool

namespace PreparationLocks

/-- `HashMap::new()`. -/
def new : PreparationLocks := ⟨fun _ => none, 0, fun _ => false⟩

/-- `entry(digest).or_insert_with(|| Arc::new(Mutex::new(()))).clone()`. -/
def entry (locks : PreparationLocks) (digest : Digest) : LockId × PreparationLocks :=
  match locks.entries digest with
  | some id => (id, locks)
  | none =>
    (locks.made,
      { entries := update locks.entries digest (some locks.made)
        made := locks.made + 1
        held := update locks.held locks.made false })

/-- A lock is taken or given back. -/
def set_held (locks : PreparationLocks) (id : LockId) (held : Bool) : PreparationLocks :=
  { locks with held := update locks.held id held }

variable {locks : PreparationLocks} {digest : Digest}

/-- A lock that is there is handed out again. -/
theorem entry_of_some {id : LockId} (h : locks.entries digest = some id) :
    locks.entry digest = (id, locks) := by
  rw [entry, h]

/-- A lock that is not there is made. -/
theorem entry_of_none (h : locks.entries digest = none) :
    locks.entry digest = (locks.made,
      ⟨update locks.entries digest (some locks.made), locks.made + 1,
        update locks.held locks.made false⟩) := by
  rw [entry, h]

end PreparationLocks

/-! ## The system

All runtimes over one directory, without faults and with them. -/

/-- The disk that all share, and the memory, the locks and the counter of each runtime. -/
structure System (κ : Type) where
  world : World
  memory : ℕ → MemoryCache κ
  locks : ℕ → PreparationLocks
  disk_publish_failures : ℕ → UInt64

section Steps

variable {κ : Type}

/-- An operation on the memory cache. -/
def MemoryOp.run (usize_max : ℕ) (m : MemoryCache κ) :
    (op : MemoryOp κ) → op.Answer × MemoryCache κ
  | .warm digest => m.get_warm digest.text
  | .warmish digest => m.get_warmish digest.text
  | .insert_warm digest prepared => ((), m.insert_warm digest.text prepared)
  | .insert digest aot prepared =>
    ((), (m.insert_warmish usize_max digest.text aot).insert_warm digest.text prepared)
  | .tier digest => m.tier digest.text
  | .demote digest => ((), m.demote digest.text)

/-- What the operation puts into the maps satisfies `P` and `Q`. -/
def MemoryOp.Puts (P : String → PreparedComponent κ → Prop) (Q : String → PreparedAot → Prop) :
    MemoryOp κ → Prop
  | .insert_warm digest prepared => P digest.text prepared
  | .insert digest aot prepared => Q digest.text aot ∧ P digest.text prepared
  | .warm _ | .warmish _ | .tier _ | .demote _ => True

/-- What the operation takes from them does. -/
def MemoryOp.Gives (P : String → PreparedComponent κ → Prop) (Q : String → PreparedAot → Prop) :
    (op : MemoryOp κ) → op.Answer → Prop
  | .warm digest, found => ∀ prepared, found = some prepared → P digest.text prepared
  | .warmish digest, found => ∀ aot, found = some aot → Q digest.text aot
  | .insert_warm _ _, _ | .insert _ _ _, _ | .tier _, _ | .demote _, _ => True

/-- If only such entries are put into the maps, only such are ever found. -/
theorem MemoryOp.run_all {P : String → PreparedComponent κ → Prop}
    {Q : String → PreparedAot → Prop} (usize_max : ℕ) {m : MemoryCache κ} (h : m.All P Q)
    (op : MemoryOp κ) (hputs : op.Puts P Q) :
    (op.run usize_max m).2.All P Q ∧ op.Gives P Q (op.run usize_max m).1 := by
  cases op with
  | warm d => exact h.get_warm d.text
  | warmish d => exact h.get_warmish d.text
  | insert_warm d prepared => exact ⟨h.insert_warm hputs, trivial⟩
  | insert d aot prepared =>
    exact ⟨(h.insert_warmish usize_max hputs.1).insert_warm hputs.2, trivial⟩
  | demote d => exact ⟨h.demote d.text, trivial⟩
  | tier d => exact ⟨h.tier d.text, trivial⟩

/-- The system with the locks of one runtime replaced. -/
def System.set_locks (s : System κ) (rid : ℕ) (locks : PreparationLocks) : System κ :=
  { s with locks := update s.locks rid locks }

/-- An effect when nothing goes wrong. -/
def RtOp.run (usize_max : ℕ) (s : System κ) : (op : RtOp κ) → op.Answer × System κ
  | .disk _ op => ((op.run s.world).1, { s with world := (op.run s.world).2 })
  | .memory rid op =>
    (.ok (op.run usize_max (s.memory rid)).1,
      { s with memory := update s.memory rid (op.run usize_max (s.memory rid)).2 })
  | .preparation_locks rid digest =>
    (.ok ((s.locks rid).entry digest).1, s.set_locks rid ((s.locks rid).entry digest).2)
  | .lock rid id => ((), s.set_locks rid ((s.locks rid).set_held id true))
  | .unlock rid id => ((), s.set_locks rid ((s.locks rid).set_held id false))
  | .spawn_blocking _ => (.ok (), s)
  | .publish_failure rid =>
    ((), { s with
      disk_publish_failures :=
        update s.disk_publish_failures rid (s.disk_publish_failures rid + 1) })

/-- A lock is taken when nobody holds it; nothing else waits. -/
def RtOp.Enabled (s : System κ) : RtOp κ → Prop
  | .lock rid id => (s.locks rid).held id = false
  | _ => True

/-- A step of a run in which nothing goes wrong. -/
def rt_step (usize_max : ℕ) (s : System κ) (op : RtOp κ) (answer : op.Answer) (s' : System κ) :
    Prop := op.Enabled s ∧ op.run usize_max s = (answer, s')

/-- What may go wrong with an effect: the file operation fails, the mutex is poisoned, or
the task cannot be joined. -/
inductive RtOp.Fault (s : System κ) : (op : RtOp κ) → op.Answer → System κ → Prop where
  | disk (rid : ℕ) (op : FsOp) (answer : op.Answer) (dir : Dir)
      (h : op.Fault s.world.dir answer dir) :
      Fault s (.disk rid (.fs op)) answer { s with world := { s.world with dir } }
  | memory (rid : ℕ) (op : MemoryOp κ) : Fault s (.memory rid op) (.error ()) s
  | preparation_locks (rid : ℕ) (digest : Digest) :
      Fault s (.preparation_locks rid digest) (.error ()) s
  | spawn_blocking (rid : ℕ) (message : String) :
      Fault s (.spawn_blocking rid) (.error message) s

/-- A step of a run in which anything may. -/
def rt_fault_step (usize_max : ℕ) (s : System κ) (op : RtOp κ) (answer : op.Answer)
    (s' : System κ) : Prop :=
  rt_step usize_max s op answer s' ∨ op.Fault s answer s'

/-- What happens by itself: a file is deleted, or a call is dropped and its lock with it. -/
inductive Accident (s : System κ) : System κ → Prop where
  | deleted (name : String) :
      Accident s { s with world := { s.world with dir := update s.world.dir name none } }
  | dropped (rid : ℕ) (id : LockId) :
      Accident s (s.set_locks rid ((s.locks rid).set_held id false))

end Steps

/-! ## Looks that miss

A digest that a tier does not have costs one reading of the recency clock and changes nothing
else. -/

section Misses

variable {κ : Type} {m : MemoryCache κ} {key : String}

theorem MemoryCache.get_warm_none (h : m.warm.lookup key = none) :
    m.get_warm key = (none, m.tick.2) := by
  have htick : m.tick.2.warm.lookup key = none := h
  unfold MemoryCache.get_warm
  dsimp only
  rw [htick]

theorem MemoryCache.get_warmish_none (h : m.warmish.lookup key = none) :
    m.get_warmish key = (none, m.tick.2) := by
  have htick : m.tick.2.warmish.lookup key = none := h
  unfold MemoryCache.get_warmish
  dsimp only
  rw [htick]

/-- Neither map has the digest. -/
def System.Missing (s : System κ) (rid : ℕ) (d : Digest) : Prop :=
  (s.memory rid).warm.lookup d.text = none ∧ (s.memory rid).warmish.lookup d.text = none

end Misses

/-! ## Answers

The answer to an effect when nothing goes wrong is computed, so a run can be followed along a
schedule that says whose turn it is. -/

section Answers

variable {κ : Type} {usize_max : ℕ}

instance (s : System κ) (op : RtOp κ) : Decidable (op.Enabled s) := by
  cases op <;> unfold RtOp.Enabled <;> infer_instance

/-- The answer to an effect, if it need not wait and nothing goes wrong. -/
def RtOp.answer (usize_max : ℕ) (s : System κ) (op : RtOp κ) : Option (op.Answer × System κ) :=
  if op.Enabled s then some (op.run usize_max s) else none

theorem rt_step_of_answer (s : System κ) (op : RtOp κ) (r : op.Answer) (s' : System κ)
    (h : RtOp.answer usize_max s op = some (r, s')) : rt_step usize_max s op r s' := by
  unfold RtOp.answer at h
  split at h
  · exact ⟨by assumption, Option.some.inj h⟩
  · cases h

end Answers

end WasmRuntime.Cache
