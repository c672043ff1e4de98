/-
Concurrent calls of `prepare` on one digest.

Any number of calls run at once in one runtime, in any interleaving of their accesses to the memory
cache, to the map of preparation locks, to the locks that it hands out and to the disk. The digest
is in neither tier at the start, and nobody else uses the caches.
-/
import Mathlib.Data.UInt
import WasmRuntime.Accounts
import WasmRuntime.MemoryCacheClock
import WasmRuntime.TierTransparency

set_option autoImplicit false

namespace WasmRuntime.Cache

open Prog Function

/-! ## Calls and their history

File operations may fail in any way: a file that is not there is not there for a query that fails
either, and a publication that fails is only counted. -/

/-- Where a call is: before its lock is taken or after it is given back, just past the lock,
past the first or the second lookup that missed, or past the compiler. -/
inductive Phase where
  | outside | locked | missed | cold | spawned
  deriving DecidableEq, Repr

/-- The history of a call. -/
structure Account where
  phase : Phase := .outside
  /-- The lock that the map has handed to the call. -/
  lock : Option LockId := none
  /-- The call has found the component in the warm map, or has put it there. -/
  ready : Bool := false
  /-- The files that the call has put in place since the compiler ran, the last one first. -/
  renamed : List String := []

/-- The runtime, and the history of the calls. -/
structure Flight (ι κ : Type) where
  system : System κ
  accounts : ι → Account
  /-- How many compiler tasks were spawned. -/
  compiled : ℕ
  /-- How many insertions into both maps there were. -/
  inserted : ℕ
  /-- The files that were put in place, the last one first. -/
  renamed : List String
  /-- How often the counter of the memory cache was read. -/
  reads : ℕ

section Flights

variable {ι κ : Type}

/-- The account after an operation. -/
def Account.next (a : Account) : (op : RtOp κ) → op.Answer → Account
  | .preparation_locks _ _, .ok id => { a with lock := some id }
  | .lock _ _, _ => { a with phase := .locked }
  | .unlock _ _, _ => { a with phase := .outside }
  | .memory _ (.warm _), .ok (some _) => { a with ready := true }
  | .memory _ (.warm _), .ok none =>
    if a.phase = .locked then { a with phase := .missed } else a
  | .memory _ (.warmish _), .ok none => { a with phase := .cold }
  | .memory _ (.insert _ _ _), _ => { a with ready := true }
  | .spawn_blocking _, _ => { a with phase := .spawned, renamed := [] }
  | .disk _ (.fs (.rename _ dst)), _ => { a with renamed := dst :: a.renamed }
  | _, _ => a

/-- Compiler tasks spawned by an operation. -/
def RtOp.compiles : RtOp κ → ℕ
  | .spawn_blocking _ => 1
  | _ => 0

/-- Insertions by an operation. -/
def RtOp.inserts : RtOp κ → ℕ
  | .memory _ (.insert _ _ _) => 1
  | _ => 0

/-- Reads of the counter by an operation. -/
def RtOp.reads (s : System κ) : RtOp κ → ℕ
  | .memory rid op => op.reads (s.memory rid)
  | _ => 0

/-- The file that an operation puts in place. -/
def RtOp.renames : RtOp κ → List String
  | .disk _ (.fs (.rename _ dst)) => [dst]
  | _ => []

/-- What an operation does to the runtime: what it should, or a file operation that fails. -/
def RtOp.Does (usize_max : ℕ) (s : System κ) (op : RtOp κ) (answer : op.Answer) (s' : System κ) :
    Prop :=
  rt_step usize_max s op answer s' ∨
    ∃ rid fs, op = .disk rid (.fs fs) ∧ op.Fault s answer s'

variable [DecidableEq ι]

/-- The flight after an operation of a call. -/
def Flight.after (s : Flight ι κ) (i : ι) (op : RtOp κ) (answer : op.Answer) (system : System κ) :
    Flight ι κ where
  system
  accounts := update s.accounts i ((s.accounts i).next op answer)
  compiled := s.compiled + op.compiles
  inserted := s.inserted + op.inserts
  renamed := op.renames ++ s.renamed
  reads := s.reads + op.reads s.system

/-- An operation of call `i`, with its history. -/
def Flight.Performs (usize_max : ℕ) (i : ι) (s : Flight ι κ) (op : RtOp κ) (answer : op.Answer)
    (s' : Flight ι κ) : Prop :=
  ∃ system, op.Does usize_max s.system answer system ∧ s' = s.after i op answer system

/-- The calls; one that has returned stays with its result. -/
abbrev Calls (ι κ : Type) : Type :=
  Tasks ι (Flight ι κ) (RtOp κ) RtOp.Answer (Except Error (PreparedComponent κ))

/-- A call that has returned. -/
def settled (result : Except Error (PreparedComponent κ)) :
    Prog (RtOp κ) RtOp.Answer (Option (Except Error (PreparedComponent κ))) := .ret (some result)

/-- Calls of `prepare` on one digest, over a runtime. -/
def Calls.start (E : CacheEnv) (engine : Engine κ) (self : RuntimeInner) (digest : Digest)
    (source : Bytes) (s : System κ) : Calls ι κ where
  state := ⟨s, fun _ => {}, 0, 0, [], 0⟩
  threads _ := Prog.bind (prepare E engine self digest source) settled

/-- Any interleaving. -/
def Calls.Run (usize_max : ℕ) : Calls ι κ → Calls ι κ → Prop :=
  Tasks.Run (Flight.Performs usize_max) (fun _ _ => False) settled

end Flights

/-! ## The ledger

`Account` says how far a call is, and `Ledger` how the accounts and the counts go together. -/

/-- How the accounts of the calls and the counts go together, where the source compiles or does
not. -/
structure Ledger {ι : Type} (compiles : Prop) (accounts : ι → Account) (compiled inserted : ℕ)
    (renamed : List String) : Prop where
  exclusive : ∀ i j, (accounts i).phase ≠ .outside → (accounts j).phase ≠ .outside → i = j
  /-- A call that has missed is the first to get so far. -/
  missed : ∀ i, (accounts i).phase = .missed ∨ (accounts i).phase = .cold →
    inserted = 0 ∧ (compiles → compiled = 0)
  /-- What has been put in place, the call past the compiler has put there. -/
  spawned : ∀ i, (accounts i).phase = .spawned → 0 < compiled ∧ renamed = (accounts i).renamed
  ready : ∀ i, (accounts i).ready = true → 0 < inserted
  sources : 0 < inserted → compiles ∧ 0 < compiled
  once : compiles → compiled ≤ 1
  /-- What was compiled has been inserted, or the call that compiled it is on its way. -/
  landed : compiles → 0 < compiled → 0 < inserted ∨ ∃ i, (accounts i).phase = .spawned
  nodup : renamed.Nodup
  clean : compiled = 0 ∨ ¬ compiles → renamed = []

namespace Ledger

variable {ι : Type} {compiles : Prop} {accounts : ι → Account} {compiled inserted : ℕ}
  {renamed : List String}

theorem start (compiles : Prop) : Ledger compiles (fun _ : ι => ({} : Account)) 0 0 [] where
  exclusive _ _ h := absurd rfl h
  missed _ h := by rcases h with h | h <;> cases h
  spawned _ h := by cases h
  ready _ h := by cases h
  sources h := absurd h (Nat.lt_irrefl 0)
  once _ := Nat.zero_le 1
  landed _ h := absurd h (Nat.lt_irrefl 0)
  nodup := List.nodup_nil
  clean _ := rfl

variable [DecidableEq ι]

/-- One account changes, and the counts stay. -/
theorem change (h : Ledger compiles accounts compiled inserted renamed) (i : ι) {a : Account}
    (hinside : a.phase ≠ .outside →
      (accounts i).phase ≠ .outside ∨ ∀ j, (accounts j).phase = .outside)
    (hmissed : a.phase = .missed ∨ a.phase = .cold → inserted = 0 ∧ (compiles → compiled = 0))
    (hspawned : a.phase = .spawned → 0 < compiled ∧ renamed = a.renamed)
    (hready : a.ready = true → 0 < inserted)
    (hlanded : compiles → (accounts i).phase = .spawned → a.phase = .spawned ∨ 0 < inserted) :
    Ledger compiles (update accounts i a) compiled inserted renamed where
  exclusive j k hj hk := by
    have hold := h.exclusive
    grind [update_apply]
  missed j hj := by
    have hold := h.missed j
    grind [update_apply]
  spawned j hj := by
    have hold := h.spawned j
    grind [update_apply]
  ready j hj := by
    have hold := h.ready j
    grind [update_apply]
  sources := h.sources
  once := h.once
  landed hcompiles hpos := by
    rcases h.landed hcompiles hpos with hinserted | ⟨j, hj⟩
    · exact .inl hinserted
    · by_cases hji : j = i
      · subst hji
        exact (hlanded hcompiles hj).symm.imp_right fun hphase => ⟨j, by rwa [update_self]⟩
      · exact .inr ⟨j, by rwa [update_of_ne hji]⟩
  nodup := h.nodup
  clean := h.clean

/-- The compiler runs: nobody else is inside, and if it succeeds it has not run before. -/
theorem spawn (h : Ledger compiles accounts compiled inserted renamed) {i : ι}
    (hi : (accounts i).phase = .cold) :
    Ledger compiles (update accounts i { accounts i with phase := .spawned, renamed := [] })
      (compiled + 1) inserted renamed where
  exclusive j k hj hk := by
    have hold := h.exclusive
    grind [update_apply]
  missed j hj := by
    have hold := h.exclusive j i
    grind [update_apply]
  spawned j hj := by
    have hold := h.exclusive j i
    have hclean := h.clean
    have hfirst := h.missed i (.inr hi)
    grind [update_apply]
  ready j hj := by
    have hold := h.ready j
    grind [update_apply]
  sources hpos := ⟨(h.sources hpos).1, Nat.succ_pos _⟩
  once hcompiles := by
    have hfirst := (h.missed i (.inr hi)).2 hcompiles
    omega
  landed _ _ := .inr ⟨i, by rw [update_self]⟩
  nodup := h.nodup
  clean hor := by
    have hclean := h.clean
    grind

/-- A file is put in place. -/
theorem rename (h : Ledger compiles accounts compiled inserted renamed) {i : ι}
    (hcompiles : compiles) (hi : (accounts i).phase = .spawned) {dst : String}
    (hnew : dst ∉ (accounts i).renamed) :
    Ledger compiles (update accounts i { accounts i with renamed := dst :: (accounts i).renamed })
      compiled inserted (dst :: renamed) where
  exclusive j k hj hk := by
    have hold := h.exclusive
    grind [update_apply]
  missed j hj := by
    have hold := h.missed j
    grind [update_apply]
  spawned j hj := by
    have hold := h.exclusive j i
    have hown := h.spawned i hi
    grind [update_apply]
  ready j hj := by
    have hold := h.ready j
    grind [update_apply]
  sources := h.sources
  once := h.once
  landed _ _ := .inr ⟨i, by rwa [update_self]⟩
  nodup := List.nodup_cons.mpr ⟨by rwa [(h.spawned i hi).2], h.nodup⟩
  clean hor := by
    have hown := h.spawned i hi
    grind

/-- What was compiled is inserted. -/
theorem insert (h : Ledger compiles accounts compiled inserted renamed) {i : ι}
    (hcompiles : compiles) (hi : (accounts i).phase = .spawned) :
    Ledger compiles (update accounts i { accounts i with ready := true })
      compiled (inserted + 1) renamed where
  exclusive j k hj hk := by
    have hold := h.exclusive
    grind [update_apply]
  missed j hj := by
    have hold := h.exclusive j i
    grind [update_apply]
  spawned j hj := by
    have hold := h.spawned j
    grind [update_apply]
  ready _ _ := Nat.succ_pos _
  sources _ := ⟨hcompiles, (h.spawned i hi).1⟩
  once := h.once
  landed _ _ := .inl (Nat.succ_pos _)
  nodup := h.nodup
  clean := h.clean

end Ledger

/-! ## A cold start

`Stocked` is what the memory holds after some insertions. -/

/-- A runtime in which a digest is nowhere, with the number of times that the clock of its
memory has been read, and what the compiler makes of the source. -/
structure ColdStart (κ : Type) where
  rid : ℕ
  digest : Digest
  outcome : Except Error (PreparedComponent κ × Bytes)
  limits : MemoryLimits
  system : System κ
  reads : ℕ
  room : 0 < limits.max_warm_components
  clocked : (system.memory rid).Clocked limits reads
  missing : system.Missing rid digest
  absent : ∀ profile kind, kind = .artifact ∨ kind = .metadata →
    system.world.dir (file_name digest profile kind) = none

/-- A lookup finds what is there, and leaves it. -/
theorem MemoryCache.mem_get_warm {κ : Type} {m : MemoryCache κ} {key : String} (h : key ∈ m.warm) :
    key ∈ (m.get_warm key).2.warm ∧ (m.get_warm key).1.isSome := by
  have hsome : (m.tick.2.warm.lookup key).isSome := AList.lookup_isSome.mpr h
  obtain ⟨entry, hentry⟩ := Option.isSome_iff_exists.mp hsome
  unfold MemoryCache.get_warm
  dsimp only
  rw [hentry]
  exact ⟨(AList.mem_insert _).mpr (.inl rfl), rfl⟩

namespace ColdStart

variable {ι κ : Type} (c : ColdStart κ)

/-- The source compiles. -/
def Compiles : Prop := ∃ made, c.outcome = .ok made

/-- What an entry of the digest holds: the component that the compiler makes. -/
def Made (key : String) (component : PreparedComponent κ) : Prop :=
  key = c.digest.text → ∃ bytes, c.outcome = .ok (component, bytes)

/-- The memory after some insertions, its counter read `n` times. -/
structure Stocked (inserted n : ℕ) (m : MemoryCache κ) : Prop where
  clocked : m.Clocked c.limits n
  components : m.All c.Made fun _ _ => True
  quiet : inserted = 0 → m.warm = (c.system.memory c.rid).warm ∧
    m.warmish = (c.system.memory c.rid).warmish
  present : 0 < inserted → c.digest.text ∈ m.warm

variable {c} {inserted n : ℕ} {m : MemoryCache κ}

/-- At the start nothing is stocked. -/
theorem Stocked.start : c.Stocked 0 c.reads (c.system.memory c.rid) where
  clocked := c.clocked
  components := by
    refine ⟨?_, fun _ _ _ => trivial⟩
    rintro key entry hlookup rfl
    rw [c.missing.1] at hlookup
    cases hlookup
  quiet _ := ⟨rfl, rfl⟩
  present h := absurd h (Nat.lt_irrefl 0)

/-- As long as nothing is inserted the digest is in neither map. -/
theorem Stocked.lookup_none (h : c.Stocked 0 n m) :
    m.warm.lookup c.digest.text = none ∧ m.warmish.lookup c.digest.text = none := by
  obtain ⟨hwarm, hwarmish⟩ := h.quiet rfl
  rw [hwarm, hwarmish]
  exact c.missing

/-- A look at the warm map finds the component if and only if it has been inserted. -/
theorem Stocked.warm (h : c.Stocked inserted n m) (hn : n + 1 < 2 ^ 64) :
    c.Stocked inserted (n + 1) (m.get_warm c.digest.text).2 ∧
      (∀ component, (m.get_warm c.digest.text).1 = some component →
        0 < inserted ∧ ∃ bytes, c.outcome = .ok (component, bytes)) ∧
      ((m.get_warm c.digest.text).1 = none → inserted = 0) := by
  obtain ⟨hcomponents, hfound⟩ := h.components.get_warm c.digest.text
  have hclocked := h.clocked.get_warm hn c.digest.text
  -- Before the first insertion there is nothing to find, and after it there is no miss.
  rcases Nat.eq_zero_or_pos inserted with rfl | hpos
  · have hnone := MemoryCache.get_warm_none h.lookup_none.1
    refine ⟨⟨hclocked, hcomponents, ?_, fun hlt => absurd hlt (Nat.lt_irrefl 0)⟩, ?_, fun _ => rfl⟩
    · intro _
      rw [hnone]
      exact h.quiet rfl
    · intro component hsome
      rw [hnone] at hsome
      cases hsome
  · obtain ⟨hmem, hsome⟩ := MemoryCache.mem_get_warm (h.present hpos)
    refine ⟨⟨hclocked, hcomponents, fun hzero => absurd hzero (by omega), fun _ => hmem⟩, ?_, ?_⟩
    · exact fun component heq => ⟨hpos, hfound component heq rfl⟩
    · intro hnone
      rw [hnone] at hsome
      cases hsome

theorem Stocked.warmish (h : c.Stocked 0 n m) (hn : n + 1 < 2 ^ 64) :
    c.Stocked 0 (n + 1) (m.get_warmish c.digest.text).2 ∧
      (m.get_warmish c.digest.text).1 = none := by
  have hnone := MemoryCache.get_warmish_none h.lookup_none.2
  refine ⟨⟨h.clocked.get_warmish hn _, (h.components.get_warmish _).1, ?_,
    fun hlt => absurd hlt (Nat.lt_irrefl 0)⟩, by rw [hnone]⟩
  intro _
  rw [hnone]
  exact h.quiet rfl

/-- An insertion stocks the component. -/
theorem Stocked.insert (h : c.Stocked inserted n m) (usize_max : ℕ) (aot : PreparedAot)
    (hn : n + m.insert_warmish_reads aot + 1 < 2 ^ 64) {prepared : PreparedComponent κ}
    {bytes : Bytes} (hmade : c.outcome = .ok (prepared, bytes)) :
    c.Stocked (inserted + 1) (n + m.insert_warmish_reads aot + 1)
      ((m.insert_warmish usize_max c.digest.text aot).insert_warm c.digest.text prepared) := by
  have hwarmish := h.clocked.insert_warmish usize_max c.digest.text aot (by omega)
  refine ⟨hwarmish.insert_warm hn _ _, ?_, fun hzero => absurd hzero (by omega), ?_⟩
  · exact (h.components.insert_warmish usize_max trivial).insert_warm fun _ => ⟨bytes, hmade⟩
  · exact fun _ => hwarmish.mem_insert_warm_self hn c.room _ _

/-! ## What a call may do

The first call that asks for the lock of the digest makes it, if it was not there before, and all
the others are handed the same one (`Shares`); so at most one is past it. -/

/-- Whoever has asked for the lock of the digest was handed the one that stands in the map, and
whoever is inside holds it. -/
structure Shares (digest : Digest) (accounts : ι → Account) (locks : PreparationLocks) : Prop where
  one : ∀ i id, (accounts i).lock = some id → locks.entries digest = some id
  held : ∀ i, (accounts i).phase ≠ .outside →
    ∃ id, (accounts i).lock = some id ∧ locks.held id = true

/-- The invariant of the calls. -/
structure Sound (c : ColdStart κ) (s : Flight ι κ) : Prop where
  ledger : Ledger c.Compiles s.accounts s.compiled s.inserted s.renamed
  shares : Shares c.digest s.accounts (s.system.locks c.rid)
  stocked : c.Stocked s.inserted (c.reads + s.reads) (s.system.memory c.rid)
  dir : s.compiled = 0 ∨ ¬ c.Compiles → s.system.world.dir = c.system.world.dir

/-- What the account of a call allows it to do. -/
def Allowed (c : ColdStart κ) (a : Account) : RtOp κ → Prop
  | .memory rid (.warm digest) => rid = c.rid ∧ digest = c.digest
  | .memory rid (.warmish digest) => rid = c.rid ∧ digest = c.digest ∧ a.phase = .missed
  | .memory rid (.insert digest aot prepared) =>
    rid = c.rid ∧ digest = c.digest ∧ a.phase = .spawned ∧ c.outcome = .ok (prepared, aot.bytes)
  | .memory _ (.insert_warm _ _) | .memory _ (.tier _) | .memory _ (.demote _) => False
  | .preparation_locks rid digest => rid = c.rid ∧ digest = c.digest
  | .publish_failure _ => True
  | .lock rid id => rid = c.rid ∧ a.lock = some id
  | .unlock rid _ =>
    -- Whoever has compiled the component gives the lock back only when others can find it.
    rid = c.rid ∧ a.phase ≠ .outside ∧ (a.phase = .spawned → c.Compiles → a.ready = true)
  | .spawn_blocking _ => a.phase = .cold
  | .disk _ (.fs (.exists_ path)) =>
    a.phase = .cold ∧ ∃ profile kind, (kind = .artifact ∨ kind = .metadata) ∧
      path = file_name c.digest profile kind
  | .disk _ (.fs (.is_file _)) | .disk _ (.fs (.read _)) => False
  | .disk _ (.fs (.rename _ dst)) => a.phase = .spawned ∧ c.Compiles ∧ dst ∉ a.renamed
  | .disk _ _ => a.phase = .spawned ∧ c.Compiles

/-- What a call learns from an answer. -/
def Told (c : ColdStart κ) : (op : RtOp κ) → op.Answer → Prop
  | .memory _ (.warm _), answer => ∃ found, answer = .ok found ∧
      ∀ component, found = some component → ∃ bytes, c.outcome = .ok (component, bytes)
  | .memory _ (.warmish _), answer => answer = .ok none
  | .memory _ (.insert _ _ _), answer => answer = .ok ()
  | .disk _ (.fs (.exists_ _)), answer => answer = false
  | .preparation_locks _ _, answer => ∃ id, answer = .ok id
  | .spawn_blocking _, answer => answer = .ok ()
  | _, _ => True

/-- The system as the calls find it. -/
theorem Sound.start (c : ColdStart κ) :
    Sound c (⟨c.system, fun _ => {}, 0, 0, [], 0⟩ : Flight ι κ) where
  ledger := .start _
  shares := ⟨fun _ _ h => (by cases h), fun _ h => absurd rfl h⟩
  stocked := .start
  dir _ := rfl

/-! What each operation does to the ledger. -/

section Ledgers

variable [DecidableEq ι] {compiles : Prop} {accounts : ι → Account} {compiled : ℕ}
  {renamed : List String} {i : ι}

theorem ledger_same (h : Ledger compiles accounts compiled inserted renamed) {a : Account}
    (ha : a = accounts i) : Ledger compiles (update accounts i a) compiled inserted renamed := by
  rwa [ha, update_eq_self]

/-- A look at the warm map. Whoever misses under the lock is the first: anyone who had compiled
before would have inserted, or would still be inside. -/
theorem ledger_warm (h : Ledger compiles accounts compiled inserted renamed)
    (rid : ℕ) (digest : Digest) (found : Option (PreparedComponent κ))
    (hsome : ∀ component, found = some component → 0 < inserted)
    (hnone : found = none → inserted = 0) :
    Ledger compiles (update accounts i ((accounts i).next (.memory rid (.warm digest)) (.ok found)))
      compiled inserted renamed := by
  cases found with
  | some component =>
    refine h.change i (a := { accounts i with ready := true }) .inl (h.missed i) (h.spawned i)
      (fun _ => hsome component rfl) (fun _ => .inl)
  | none =>
    by_cases hlocked : (accounts i).phase = .locked
    · have hnext : (accounts i).next (.memory rid (.warm digest) : RtOp κ) (.ok none)
          = { accounts i with phase := .missed } := if_pos hlocked
      rw [hnext]
      have hzero := hnone rfl
      -- Had somebody compiled without an insertion yet, they would still be inside.
      have hfirst : compiles → compiled = 0 := by
        intro hcompiles
        by_contra hne
        rcases h.landed hcompiles (Nat.pos_of_ne_zero hne) with hpos | ⟨j, hj⟩
        · omega
        · have hsame := h.exclusive j i (by rw [hj]; exact fun hout => by cases hout)
            (by rw [hlocked]; exact fun hout => by cases hout)
          rw [hsame, hlocked] at hj
          cases hj
      refine h.change i (fun _ => .inl (by rw [hlocked]; exact fun hout => by cases hout))
        (fun _ => ⟨hzero, hfirst⟩) (fun hout => by cases hout) (h.ready i) ?_
      intro _ hspawned
      rw [hlocked] at hspawned
      cases hspawned
    · have hnext : (accounts i).next (.memory rid (.warm digest) : RtOp κ) (.ok none)
          = accounts i := if_neg hlocked
      exact ledger_same h hnext

theorem ledger_warmish (h : Ledger compiles accounts compiled inserted renamed)
    (hphase : (accounts i).phase = .missed) :
    Ledger compiles (update accounts i { accounts i with phase := .cold }) compiled inserted
      renamed := by
  refine h.change i ?_ (fun _ => h.missed i (.inl hphase)) (fun hout => by cases hout)
    (h.ready i) ?_
  · intro _
    rw [hphase]
    exact .inl fun hout => by cases hout
  · intro _ hspawned
    rw [hphase] at hspawned
    cases hspawned

/-- The lock is taken. -/
theorem ledger_lock (h : Ledger compiles accounts compiled inserted renamed)
    (hfree : ∀ j, (accounts j).phase = .outside) :
    Ledger compiles (update accounts i { accounts i with phase := .locked }) compiled inserted
      renamed := by
  refine h.change i (fun _ => .inr hfree) ?_ (fun hout => by cases hout) (h.ready i) ?_
  · rintro (hout | hout) <;> cases hout
  · intro _ hspawned
    rw [hfree i] at hspawned
    cases hspawned

/-- It is given back. -/
theorem ledger_unlock (h : Ledger compiles accounts compiled inserted renamed)
    (hready : (accounts i).phase = .spawned → compiles → (accounts i).ready = true) :
    Ledger compiles (update accounts i { accounts i with phase := .outside }) compiled inserted
      renamed := by
  refine h.change i (fun hout => absurd rfl hout) ?_ (fun hout => by cases hout) (h.ready i) ?_
  · rintro (hout | hout) <;> cases hout
  · exact fun hcompiles hspawned => .inr (h.ready i (hready hspawned hcompiles))

end Ledgers

/-! ## What an operation keeps

One lemma for each operation, and `Sound.law` for all. -/

section Law

variable [DecidableEq ι] {s : Flight ι κ} {i : ι} {usize_max : ℕ}

variable {system : System κ} {rid : ℕ}

theorem Does.step {op : RtOp κ} {system' : System κ} {answer : op.Answer}
    (h : op.Does usize_max system answer system') (hop : ∀ rid fs, op ≠ .disk rid (.fs fs)) :
    rt_step usize_max system op answer system' := by
  rcases h with h | ⟨rid, fs, hdisk, -⟩
  · exact h
  · exact absurd hdisk (hop rid fs)

/-- An operation that lets nobody in and gets no lock. -/
theorem Shares.change {digest : Digest} {accounts : ι → Account} {locks : PreparationLocks}
    (h : Shares digest accounts locks) {a : Account} (hlock : a.lock = (accounts i).lock)
    (ha : a.phase ≠ .outside → (accounts i).phase ≠ .outside) :
    Shares digest (update accounts i a) locks where
  one j id hj := by
    have hold := h.one j id
    grind [update_apply]
  held j hj := by
    have hold := h.held j
    grind [update_apply]

/-- A look at the warm map is one. -/
theorem Shares.warm {digest : Digest} {accounts : ι → Account} {locks : PreparationLocks}
    (h : Shares digest accounts locks) (rid : ℕ) (digest' : Digest)
    (found : Option (PreparedComponent κ)) : Shares digest (update accounts i
      ((accounts i).next (.memory rid (.warm digest')) (.ok found))) locks := by
  cases found with
  | some component => exact h.change rfl id
  | none =>
    by_cases hlocked : (accounts i).phase = .locked
    · have hnext : (accounts i).next (.memory rid (.warm digest') : RtOp κ) (.ok none)
          = { accounts i with phase := .missed } := if_pos hlocked
      rw [hnext]
      exact h.change rfl fun _ => by rw [hlocked]; exact fun hout => by cases hout
    · have hnext : (accounts i).next (.memory rid (.warm digest') : RtOp κ) (.ok none)
          = accounts i := if_neg hlocked
      rw [hnext, update_eq_self]
      exact h

/-- A lookup in the warm map. -/
theorem Sound.warm (h : Sound c s) {answer : Except Unit (Option (PreparedComponent κ))}
    (hstep : rt_step usize_max s.system (.memory c.rid (.warm c.digest)) answer system)
    (hfew : c.reads + s.reads + 1 < 2 ^ 64) :
    Sound c (s.after i (.memory c.rid (.warm c.digest)) answer system) ∧
      c.Told (.memory c.rid (.warm c.digest)) answer := by
  obtain ⟨-, hrun⟩ := hstep
  obtain ⟨rfl, rfl⟩ := Prod.mk.inj hrun
  obtain ⟨hstocked, hfound, hnone⟩ := h.stocked.warm hfew
  refine ⟨⟨?_, ?_, ?_, h.dir⟩, _, rfl, fun component hcomponent => (hfound component hcomponent).2⟩
  · exact ledger_warm h.ledger _ _ _ (fun component heq => (hfound component heq).1) hnone
  · exact h.shares.warm _ _ _
  · show c.Stocked _ _ (update s.system.memory c.rid _ c.rid)
    rw [update_self]
    exact hstocked

/-- A lookup in the warmish map. -/
theorem Sound.warmish (h : Sound c s) (hphase : (s.accounts i).phase = .missed)
    {answer : Except Unit (Option PreparedAot)}
    (hstep : rt_step usize_max s.system (.memory c.rid (.warmish c.digest)) answer system)
    (hfew : c.reads + s.reads + 1 < 2 ^ 64) :
    Sound c (s.after i (.memory c.rid (.warmish c.digest)) answer system) ∧
      c.Told (.memory c.rid (.warmish c.digest)) answer := by
  obtain ⟨-, hrun⟩ := hstep
  obtain ⟨hanswer, rfl⟩ := Prod.mk.inj hrun
  have hzero := (h.ledger.missed i (.inl hphase)).1
  have hbefore := h.stocked
  rw [hzero] at hbefore
  obtain ⟨hstocked, hnone⟩ := hbefore.warmish hfew
  have hmiss : answer = .ok none := by
    rw [← hanswer]
    exact congrArg Except.ok hnone
  subst hmiss
  refine ⟨⟨ledger_warmish h.ledger hphase, ?_, ?_, h.dir⟩, rfl⟩
  · exact h.shares.change rfl fun _ => by rw [hphase]; exact fun hout => by cases hout
  · show c.Stocked (s.inserted + 0) _ (update s.system.memory c.rid _ c.rid)
    rw [update_self, hzero]
    exact hstocked

/-- The insertion of what was compiled. -/
theorem Sound.insert (h : Sound c s) (hphase : (s.accounts i).phase = .spawned) {aot : PreparedAot}
    {prepared : PreparedComponent κ} (hmade : c.outcome = .ok (prepared, aot.bytes))
    {answer : Except Unit Unit}
    (hstep : rt_step usize_max s.system (.memory c.rid (.insert c.digest aot prepared)) answer
      system)
    (hfew : c.reads + (s.reads + ((s.system.memory c.rid).insert_warmish_reads aot + 1)) < 2 ^ 64) :
    Sound c (s.after i (.memory c.rid (.insert c.digest aot prepared)) answer system) ∧
      c.Told (.memory c.rid (.insert c.digest aot prepared)) answer := by
  obtain ⟨-, hrun⟩ := hstep
  obtain ⟨rfl, rfl⟩ := Prod.mk.inj hrun
  refine ⟨⟨h.ledger.insert ⟨_, hmade⟩ hphase, h.shares.change rfl id, ?_, h.dir⟩, rfl⟩
  show c.Stocked _ (c.reads + (s.reads + ((s.system.memory c.rid).insert_warmish_reads aot + 1)))
    (update s.system.memory c.rid _ c.rid)
  rw [← Nat.add_assoc, ← Nat.add_assoc] at hfew ⊢
  rw [update_self]
  exact h.stocked.insert usize_max aot hfew hmade

/-- Asking for the lock of the digest: whoever asks first makes it, and then nobody has one yet;
all the others are handed the same. -/
theorem Sound.preparation_locks (h : Sound c s) {answer : Except Unit LockId}
    (hstep : rt_step usize_max s.system (.preparation_locks c.rid c.digest) answer system) :
    Sound c (s.after i (.preparation_locks c.rid c.digest) answer system) ∧
      c.Told (.preparation_locks c.rid c.digest) answer := by
  obtain ⟨-, hrun⟩ := hstep
  obtain ⟨rfl, rfl⟩ := Prod.mk.inj hrun
  have hledger := h.ledger.change i (a := { s.accounts i with
    lock := some ((s.system.locks c.rid).entry c.digest).1 }) .inl (h.ledger.missed i)
    (h.ledger.spawned i) (h.ledger.ready i) fun _ => .inl
  refine ⟨⟨hledger, ?_, h.stocked, h.dir⟩, _, rfl⟩
  show Shares c.digest (update s.accounts i { s.accounts i with
    lock := some ((s.system.locks c.rid).entry c.digest).1 })
    (update s.system.locks c.rid ((s.system.locks c.rid).entry c.digest).2 c.rid)
  rw [update_self]
  obtain ⟨hone, hheld⟩ := h.shares
  cases hentry : (s.system.locks c.rid).entries c.digest with
  | some id =>
    rw [PreparationLocks.entry_of_some hentry]
    refine ⟨fun j id' hj => ?_, fun j hj => ?_⟩
    · have hold := hone j id'
      grind [update_apply]
    · have hold := hheld j
      grind [update_apply]
  | none =>
    -- Nobody has a lock, so nobody is inside.
    have hfree : ∀ j, (s.accounts j).lock = none := by
      intro j
      cases hj : (s.accounts j).lock with
      | none => rfl
      | some id => cases hentry.symm.trans (hone j id hj)
    have hout : ∀ j, (s.accounts j).phase = .outside := by
      intro j
      by_contra hin
      obtain ⟨id, hj, -⟩ := hheld j hin
      cases (hfree j).symm.trans hj
    rw [PreparationLocks.entry_of_none hentry]
    refine ⟨fun j id' hj => ?_, fun j hj => ?_⟩
    · have hold := hfree j
      grind [update_apply]
    · have hold := hout j
      grind [update_apply]

/-- Whoever takes the lock that stands in the map is alone inside. -/
theorem Sound.lock (h : Sound c s) {id : LockId} (hid : (s.accounts i).lock = some id)
    {answer : Unit} (hstep : rt_step usize_max s.system (.lock c.rid id) answer system) :
    Sound c (s.after i (.lock c.rid id) answer system) := by
  obtain ⟨hfree, hrun⟩ := hstep
  obtain ⟨-, rfl⟩ := Prod.mk.inj hrun
  have hout : ∀ j, (s.accounts j).phase = .outside := by
    intro j
    by_contra hin
    obtain ⟨id', hj, hheld⟩ := h.shares.held j hin
    -- The lock of anybody inside is the one in the map, which is this one.
    have hsame : some id = some id' :=
      (h.shares.one i id hid).symm.trans (h.shares.one j id' hj)
    rw [RtOp.Enabled, Option.some.inj hsame, hheld] at hfree
    cases hfree
  refine ⟨ledger_lock h.ledger hout, ?_, h.stocked, h.dir⟩
  show Shares c.digest (update s.accounts i { s.accounts i with phase := .locked })
    (update s.system.locks c.rid ((s.system.locks c.rid).set_held id true) c.rid)
  rw [update_self]
  refine ⟨fun j id' hj => ?_, fun j hj => ?_⟩
  · have hold : (s.accounts j).lock = some id' := by grind [update_apply]
    exact h.shares.one j id' hold
  · have hji : j = i := by
      have hold := hout j
      grind [update_apply]
    subst hji
    exact ⟨id, by rw [update_self]; exact hid, update_self ..⟩

/-- Who compiled leaves only after the insertion. -/
theorem Sound.unlock (h : Sound c s) {id : LockId} (hphase : (s.accounts i).phase ≠ .outside)
    (hready : (s.accounts i).phase = .spawned → c.Compiles → (s.accounts i).ready = true)
    {answer : Unit} (hstep : rt_step usize_max s.system (.unlock c.rid id) answer system) :
    Sound c (s.after i (.unlock c.rid id) answer system) := by
  obtain ⟨-, hrun⟩ := hstep
  obtain ⟨-, rfl⟩ := Prod.mk.inj hrun
  refine ⟨ledger_unlock h.ledger hready, ?_, h.stocked, h.dir⟩
  show Shares c.digest (update s.accounts i { s.accounts i with phase := .outside })
    (update s.system.locks c.rid ((s.system.locks c.rid).set_held id false) c.rid)
  rw [update_self]
  refine ⟨fun j id' hj => ?_, fun j hj => ?_⟩
  · have hold : (s.accounts j).lock = some id' := by grind [update_apply]
    exact h.shares.one j id' hold
  · -- Nobody is inside any more.
    have hold := h.ledger.exclusive j i
    grind [update_apply]

/-- The compiler's task. -/
theorem Sound.spawn (h : Sound c s) (hphase : (s.accounts i).phase = .cold)
    {answer : Except String Unit}
    (hstep : rt_step usize_max s.system (.spawn_blocking rid) answer system) :
    Sound c (s.after i (.spawn_blocking rid) answer system) ∧
      c.Told (.spawn_blocking rid) answer := by
  obtain ⟨-, hrun⟩ := hstep
  obtain ⟨rfl, rfl⟩ := Prod.mk.inj hrun
  refine ⟨⟨h.ledger.spawn hphase, ?_, h.stocked, ?_⟩, rfl⟩
  · exact h.shares.change rfl fun _ => by rw [hphase]; exact fun hout => by cases hout
  · intro hor
    rcases hor with hzero | hfails
    · exact absurd hzero (Nat.succ_ne_zero _)
    · exact h.dir (.inr hfails)

/-- A file operation touches neither the memory nor the locks. -/
theorem Does.disk {op : DiskOp} {answer : op.Answer} {system' : System κ}
    (h : (RtOp.disk rid op).Does usize_max system answer system') :
    system'.memory = system.memory ∧ system'.locks = system.locks := by
  rcases h with ⟨-, hrun⟩ | ⟨_, _, -, hfault⟩
  · rw [← (Prod.mk.inj hrun).2]
    exact ⟨rfl, rfl⟩
  · cases hfault
    exact ⟨rfl, rfl⟩

/-- A file operation of the call that has compiled the component. -/
theorem Sound.disk (h : Sound c s) (hphase : (s.accounts i).phase = .spawned)
    (hcompiles : c.Compiles) {op : DiskOp} {answer : op.Answer}
    (hdoes : (RtOp.disk rid op).Does usize_max s.system answer system)
    (hledger : Ledger c.Compiles (s.after i (.disk rid op) answer system).accounts s.compiled
      s.inserted ((RtOp.disk rid op : RtOp κ).renames ++ s.renamed))
    (hsame : ((s.accounts i).next (.disk rid op : RtOp κ) answer).phase = (s.accounts i).phase ∧
      ((s.accounts i).next (.disk rid op : RtOp κ) answer).lock = (s.accounts i).lock) :
    Sound c (s.after i (.disk rid op) answer system) := by
  obtain ⟨hmemory, hlocks⟩ := Does.disk hdoes
  refine ⟨hledger, ?_, ?_, ?_⟩
  · show Shares c.digest (update s.accounts i _) (system.locks c.rid)
    rw [hlocks]
    exact h.shares.change hsame.2 fun hin => hsame.1 ▸ hin
  · show c.Stocked _ _ (system.memory c.rid)
    rw [hmemory]
    exact h.stocked
  · -- The compiler has run, and has made something: nothing is asked of the directory.
    rintro (hzero | hfails)
    · exact absurd hzero (Nat.pos_iff_ne_zero.mp (h.ledger.spawned i hphase).1)
    · exact absurd hcompiles hfails

/-- A call that has missed asks for a file of the digest: nothing is there yet. -/
theorem Sound.exists_ (h : Sound c s) (hphase : (s.accounts i).phase = .cold)
    (profile : WasiProfile) {kind : FileKind} (hkind : kind = .artifact ∨ kind = .metadata)
    {answer : Bool}
    (hdoes : (RtOp.disk rid (.fs (.exists_ (file_name c.digest profile kind)))).Does usize_max
      s.system answer system) :
    Sound c (s.after i (.disk rid (.fs (.exists_ (file_name c.digest profile kind)))) answer
      system) ∧ answer = false := by
  -- While this call is cold nobody has published.
  have hdir : s.system.world.dir = c.system.world.dir := by
    by_cases hcompiles : c.Compiles
    · exact h.dir (.inl ((h.ledger.missed i (.inr hphase)).2 hcompiles))
    · exact h.dir (.inr hcompiles)
  have hboth : system = s.system ∧ answer = false := by
    rcases hdoes with ⟨-, hrun⟩ | ⟨_, _, -, hfault⟩
    · obtain ⟨rfl, rfl⟩ := Prod.mk.inj hrun
      refine ⟨rfl, ?_⟩
      show (s.system.world.dir _).isSome = false
      rw [hdir, c.absent profile kind hkind]
      rfl
    · cases hfault with
      | disk _ _ _ _ hfs =>
        cases hfs
        exact ⟨rfl, rfl⟩
  obtain ⟨rfl, hanswer⟩ := hboth
  exact ⟨⟨ledger_same h.ledger rfl, h.shares.change rfl id, h.stocked, h.dir⟩, hanswer⟩

/-- A failed publication is counted, and nothing else changes. -/
theorem Sound.publish_failure (h : Sound c s) {answer : Unit}
    (hstep : rt_step usize_max s.system (.publish_failure rid) answer system) :
    Sound c (s.after i (.publish_failure rid) answer system) := by
  obtain ⟨-, hrun⟩ := hstep
  obtain ⟨-, rfl⟩ := Prod.mk.inj hrun
  exact ⟨ledger_same h.ledger rfl, h.shares.change rfl id, h.stocked, h.dir⟩

/-- What an account allows keeps the invariant, as long as the clock has not wrapped. -/
theorem Sound.law (h : Sound c s) {op : RtOp κ} (hallowed : c.Allowed (s.accounts i) op)
    {answer : op.Answer} (hdoes : op.Does usize_max s.system answer system)
    (hfew : c.reads + (s.reads + op.reads s.system) < 2 ^ 64) :
    Sound c (s.after i op answer system) ∧ c.Told op answer := by
  cases op with
  | memory rid mop =>
    -- Only a call to the file system may be answered with a fault.
    have hstep := Does.step hdoes (fun _ _ hdisk => by cases hdisk)
    cases mop with
    | warm digest =>
      obtain ⟨rfl, rfl⟩ := hallowed
      exact h.warm hstep hfew
    | warmish digest =>
      obtain ⟨rfl, rfl, hphase⟩ := hallowed
      exact h.warmish hphase hstep hfew
    | insert digest aot prepared =>
      obtain ⟨rfl, rfl, hphase, hmade⟩ := hallowed
      exact h.insert hphase hmade hstep hfew
    | insert_warm digest prepared => exact hallowed.elim
    | tier digest => exact hallowed.elim
    | demote digest => exact hallowed.elim
  | preparation_locks rid digest =>
    obtain ⟨rfl, rfl⟩ := hallowed
    exact h.preparation_locks (Does.step hdoes (fun _ _ hdisk => by cases hdisk))
  | publish_failure rid =>
    exact ⟨h.publish_failure (Does.step hdoes (fun _ _ hdisk => by cases hdisk)), trivial⟩
  | lock rid id =>
    obtain ⟨rfl, hid⟩ := hallowed
    exact ⟨h.lock hid (Does.step hdoes (fun _ _ hdisk => by cases hdisk)), trivial⟩
  | unlock rid id =>
    obtain ⟨rfl, hphase, hready⟩ := hallowed
    exact ⟨h.unlock hphase hready (Does.step hdoes (fun _ _ hdisk => by cases hdisk)), trivial⟩
  | spawn_blocking rid =>
    exact h.spawn hallowed (Does.step hdoes (fun _ _ hdisk => by cases hdisk))
  | disk rid dop =>
    cases dop with
    | fetch_add pid =>
      exact ⟨h.disk hallowed.1 hallowed.2 hdoes (ledger_same h.ledger rfl) ⟨rfl, rfl⟩, trivial⟩
    | fs fop =>
      cases fop with
      | exists_ path =>
        obtain ⟨hphase, profile, kind, hkind, rfl⟩ := hallowed
        exact h.exists_ hphase profile hkind hdoes
      | is_file path => exact hallowed.elim
      | read path => exact hallowed.elim
      | write path bytes =>
        exact ⟨h.disk hallowed.1 hallowed.2 hdoes (ledger_same h.ledger rfl) ⟨rfl, rfl⟩,
          trivial⟩
      | set_permissions path =>
        exact ⟨h.disk hallowed.1 hallowed.2 hdoes (ledger_same h.ledger rfl) ⟨rfl, rfl⟩,
          trivial⟩
      | rename src dst =>
        obtain ⟨hphase, hcompiles, hnew⟩ := hallowed
        exact ⟨h.disk hphase hcompiles hdoes (h.ledger.rename hcompiles hphase hnew)
          ⟨rfl, rfl⟩, trivial⟩

/-- The accounts of the calls. -/
def accounts (ι : Type) [DecidableEq ι] (c : ColdStart κ) (usize_max : ℕ) :
    Accounts ι (Flight ι κ) (RtOp κ) RtOp.Answer Account where
  account := Flight.accounts
  sound := Sound c
  step i s op answer s' :=
    Flight.Performs usize_max i s op answer s' ∧ c.reads + s'.reads < 2 ^ 64
  allowed := c.Allowed
  next a op answer a' := a' = a.next op answer ∧ c.Told op answer
  law := by
    rintro i s op answer s' hsound hallowed ⟨⟨system, hdoes, rfl⟩, hfew⟩
    obtain ⟨hsound', htold⟩ := hsound.law hallowed hdoes hfew
    refine ⟨hsound', ⟨update_self .., htold⟩, fun j hj => update_of_ne hj ..⟩

end Law

/-! ## The programs

The first call that takes the lock finds nothing, compiles, publishes and inserts; while it holds
the lock the others can only look at the warm map. After it whoever looks finds the component. -/

section Checks

variable [DecidableEq ι] {usize_max : ℕ} {a : Account} {α β : Type}

variable {Q : Except Error β → Account → Prop} {prepared : PreparedComponent κ} {engine : Engine κ}
  {self : RuntimeInner} {source : Bytes}

theorem check_warm {k : Option (PreparedComponent κ) → RtM κ β}
    (hhit : ∀ component bytes, c.outcome = .ok (component, bytes) →
      (accounts ι c usize_max).Check Q (k (some component)) { a with ready := true })
    (hmiss : (accounts ι c usize_max).Check Q (k none)
      (if a.phase = .locked then { a with phase := .missed } else a)) :
    (accounts ι c usize_max).Check Q (memory c.rid (.warm c.digest) >>= k : RtM κ β) a := by
  refine ⟨⟨rfl, rfl⟩, ?_⟩
  rintro _ _ ⟨rfl, found, rfl, hfound⟩
  cases found with
  | none => exact hmiss
  | some component =>
    obtain ⟨bytes, hmade⟩ := hfound component rfl
    exact hhit component bytes hmade

theorem check_warmish {k : Option PreparedAot → RtM κ β} (hphase : a.phase = .missed)
    (hmiss : (accounts ι c usize_max).Check Q (k none) { a with phase := .cold }) :
    (accounts ι c usize_max).Check Q (memory c.rid (.warmish c.digest) >>= k : RtM κ β) a := by
  refine ⟨⟨rfl, rfl, hphase⟩, ?_⟩
  rintro _ _ ⟨rfl, rfl⟩
  exact hmiss

theorem check_insert {k : Unit → RtM κ β} {aot : PreparedAot} (hphase : a.phase = .spawned)
    (hmade : c.outcome = .ok (prepared, aot.bytes))
    (hk : (accounts ι c usize_max).Check Q (k ()) { a with ready := true }) :
    (accounts ι c usize_max).Check Q
      (memory c.rid (.insert c.digest aot prepared) >>= k : RtM κ β) a := by
  refine ⟨⟨rfl, rfl, hphase, hmade⟩, ?_⟩
  rintro _ _ ⟨rfl, rfl⟩
  exact hk

theorem check_preparation_lock {k : LockId → RtM κ β}
    (hk : ∀ id, (accounts ι c usize_max).Check Q (k id) { a with lock := some id }) :
    (accounts ι c usize_max).Check Q (preparation_lock c.rid c.digest >>= k : RtM κ β) a := by
  refine ⟨⟨rfl, rfl⟩, ?_⟩
  rintro _ _ ⟨rfl, id, rfl⟩
  exact hk id

theorem check_join {k : Unit → RtM κ β} {rid : ℕ} (hphase : a.phase = .cold)
    (hk : (accounts ι c usize_max).Check Q (k ()) { a with phase := .spawned, renamed := [] }) :
    (accounts ι c usize_max).Check Q (join rid >>= k : RtM κ β) a := by
  refine ⟨hphase, ?_⟩
  rintro _ _ ⟨rfl, rfl⟩
  exact hk

/-- Nothing of the digest is on the disk. -/
theorem check_load (E : CacheEnv) (rid : ℕ) (disk : DiskCache) (profile : WasiProfile)
    (hphase : a.phase = .cold) :
    (accounts ι c usize_max).Check (fun result a' => result = .ok none ∧ a' = a)
      (onDisk rid (disk.load E c.digest profile)) a := by
  unfold DiskCache.load
  rw [paths_eq]
  refine ⟨⟨hphase, profile, .artifact, .inl rfl, rfl⟩, ?_⟩
  rintro _ _ ⟨rfl, rfl⟩
  refine ⟨⟨hphase, profile, .metadata, .inr rfl, rfl⟩, ?_⟩
  rintro _ _ ⟨rfl, rfl⟩
  exact ⟨rfl, rfl⟩

theorem check_load_profiles (E : CacheEnv) (engine : Engine κ) (rid : ℕ) (disk : DiskCache)
    (hphase : a.phase = .cold) (profiles : List WasiProfile) :
    (accounts ι c usize_max).Check (fun result a' => result = .ok none ∧ a' = a)
      (load_profiles E engine rid disk c.digest profiles) a := by
  induction profiles with
  | nil => exact ⟨rfl, rfl⟩
  | cons profile rest ih =>
    refine .bindF (check_load E rid disk profile hphase) ?_ ?_
    · rintro e a' ⟨hcontra, -⟩
      cases hcontra
    · rintro found a' ⟨hnone, rfl⟩
      cases hnone
      exact ih

/-- Nothing is found on disk. -/
theorem check_load_from_disk (E : CacheEnv) (engine : Engine κ) (self : RuntimeInner)
    (hphase : a.phase = .cold) :
    (accounts ι c usize_max).Check (fun result a' => result = .ok none ∧ a' = a)
      (load_from_disk E engine self c.digest) a := by
  unfold load_from_disk
  cases self.disk with
  | none => exact ⟨rfl, rfl⟩
  | some disk => exact check_load_profiles E engine self.rid disk hphase _

/-- One file is put in place, or the attempt ends before. -/
theorem check_atomic_publish (hphase : a.phase = .spawned) (hcompiles : c.Compiles) (rid : ℕ)
    (pid : UInt32) {path : String} (bytes : Bytes) (hnew : path ∉ a.renamed) :
    (accounts ι c usize_max).Check
      (fun _ a' => a' = a ∨ a' = { a with renamed := path :: a.renamed })
      (onDisk rid (atomic_publish pid path bytes)) a := by
  unfold atomic_publish
  refine ⟨⟨hphase, hcompiles⟩, ?_⟩
  rintro sequence _ ⟨rfl, -⟩
  refine ⟨⟨hphase, hcompiles⟩, ?_⟩
  rintro written _ ⟨rfl, -⟩
  cases written with
  | error e => exact .inl rfl
  | ok u =>
    refine ⟨⟨hphase, hcompiles⟩, ?_⟩
    rintro permitted _ ⟨rfl, -⟩
    cases permitted with
    | error e => exact .inl rfl
    | ok u =>
      refine ⟨⟨hphase, hcompiles, hnew⟩, ?_⟩
      rintro renamed _ ⟨rfl, -⟩
      cases renamed <;> exact .inr rfl

/-- A publication puts either file in place at most once. -/
theorem check_publish (E : CacheEnv) (disk : DiskCache) (hphase : a.phase = .spawned)
    (hcompiles : c.Compiles) (hnone : a.renamed = []) (rid : ℕ) (pid : UInt32)
    (profile : WasiProfile) (bytes : Bytes) :
    (accounts ι c usize_max).Check (fun _ a' => a'.phase = .spawned)
      (onDisk rid (disk.publish E pid c.digest profile bytes)) a := by
  unfold DiskCache.publish
  rw [paths_eq]
  dsimp only
  by_cases hlarge : bytes.length > disk.config.max_entry_bytes
  · rw [decide_eq_true hlarge, Fallible.reject_true_bind]
    exact hphase
  rw [decide_eq_false hlarge, Fallible.reject_false_bind]
  unfold onDisk
  rw [lift_bindF]
  refine .bindF (check_atomic_publish hphase hcompiles rid pid bytes
    (by rw [hnone]; exact List.not_mem_nil)) ?_ ?_
  · rintro e a' (rfl | rfl) <;> exact hphase
  · intro _ a' ha'
    -- The other file has another name.
    have hother : a'.phase = .spawned ∧ file_name c.digest profile .metadata ∉ a'.renamed := by
      rcases ha' with rfl | rfl
      · exact ⟨hphase, by rw [hnone]; exact List.not_mem_nil⟩
      · refine ⟨hphase, ?_⟩
        rw [hnone, List.mem_singleton]
        exact fun heq => by cases (file_name_inj heq).2.2
    refine .mono (check_atomic_publish hother.1 hcompiles rid pid _ hother.2) ?_
    rintro _ a'' (rfl | rfl) <;> exact hother.1

theorem check_publish_to_disk (E : CacheEnv) (self : RuntimeInner) (hphase : a.phase = .spawned)
    (hcompiles : c.Compiles) (hnone : a.renamed = []) (profile : WasiProfile) (bytes : Bytes) :
    (accounts ι c usize_max).Check (fun result a' => result = .ok () ∧ a'.phase = .spawned)
      (publish_to_disk E self c.digest profile bytes) a := by
  unfold publish_to_disk
  cases self.disk with
  | none => exact ⟨rfl, hphase⟩
  | some disk =>
    refine .bind (check_publish E disk hphase hcompiles hnone self.rid self.pid
      profile bytes) ?_
    intro result a' hphase'
    cases result with
    | ok u => exact ⟨rfl, hphase'⟩
    | error e =>
      refine ⟨trivial, ?_⟩
      rintro _ _ ⟨rfl, -⟩
      exact ⟨rfl, hphase'⟩

/-- What a call may return: the component that the compiler makes, which is then in the warm
map, or an error if it makes none. -/
def Returned (c : ColdStart κ) (result : Except Error (PreparedComponent κ)) (a : Account) : Prop :=
  match c.outcome with
  | .ok (prepared, _) => result = .ok prepared ∧ a.ready = true
  | .error _ => ∃ e, result = .error e

theorem Returned.of_made {bytes : Bytes} (hmade : c.outcome = .ok (prepared, bytes))
    (hready : a.ready = true) : c.Returned (.ok prepared) a := by
  unfold Returned
  rw [hmade]
  exact ⟨rfl, hready⟩

/-- A source that compiles. -/
theorem Returned.ok {result : Except Error (PreparedComponent κ)} {bytes : Bytes}
    (hmade : c.outcome = .ok (prepared, bytes)) (h : c.Returned result a) :
    result = .ok prepared ∧ a.ready = true := by
  unfold Returned at h
  rw [hmade] at h
  exact h

/-- A source that does not. -/
theorem Returned.error {result : Except Error (PreparedComponent κ)} {e : Error}
    (hfails : c.outcome = .error e) (h : c.Returned result a) : ∃ e', result = .error e' := by
  unfold Returned at h
  rw [hfails] at h
  exact h

/-- A call that has missed everywhere. -/
theorem check_compile_and_publish (E : CacheEnv) (hrid : self.rid = c.rid)
    (hcompile : engine.compile source = c.outcome) (hphase : a.phase = .cold) :
    (accounts ι c usize_max).Check (fun result a' => c.Returned result a' ∧ a'.phase ≠ .outside)
      (compile_and_publish E engine self c.digest source) a := by
  unfold compile_and_publish
  rw [hcompile, hrid]
  refine check_join hphase ?_
  cases hmade : c.outcome with
  | error e =>
    refine ⟨?_, fun hout => by cases hout⟩
    unfold Returned
    rw [hmade]
    exact ⟨e, rfl⟩
  | ok made =>
    obtain ⟨prepared, bytes⟩ := made
    rw [Fallible.ofExcept_ok_bind]
    refine .bindF (check_publish_to_disk E self rfl ⟨_, hmade⟩ rfl
      prepared.profile bytes) ?_ ?_
    · rintro e a' ⟨hcontra, -⟩
      cases hcontra
    · rintro _ a' ⟨-, hphase'⟩
      refine check_insert hphase' hmade ⟨.of_made hmade rfl, ?_⟩
      show a'.phase ≠ .outside
      rw [hphase']
      exact fun hout => by cases hout

/-- A call that holds the lock. -/
theorem check_prepare_locked (E : CacheEnv) (hrid : self.rid = c.rid)
    (hcompile : engine.compile source = c.outcome) (hphase : a.phase = .locked) :
    (accounts ι c usize_max).Check (fun result a' => c.Returned result a' ∧ a'.phase ≠ .outside)
      (prepare_locked E engine self c.digest source) a := by
  unfold prepare_locked
  rw [hrid]
  refine check_warm ?_ ?_
  · intro component bytes hmade
    refine ⟨.of_made hmade rfl, ?_⟩
    show a.phase ≠ .outside
    rw [hphase]
    exact fun hout => by cases hout
  rw [if_pos hphase]
  refine check_warmish rfl ?_
  refine .bindF (check_load_from_disk E engine self rfl) ?_ ?_
  · rintro e a' ⟨hcontra, -⟩
    cases hcontra
  · rintro found a' ⟨hnone, rfl⟩
    cases hnone
    exact check_compile_and_publish E hrid hcompile rfl

/-- A call, from its first lookup to its result. -/
theorem check_prepare (E : CacheEnv) (hrid : self.rid = c.rid)
    (hcompile : engine.compile source = c.outcome) (hphase : a.phase = .outside) :
    (accounts ι c usize_max).Check c.Returned (prepare E engine self c.digest source) a := by
  unfold prepare
  rw [hrid]
  refine check_warm (fun component bytes hmade => .of_made hmade rfl) ?_
  rw [if_neg (by rw [hphase]; exact fun hout => by cases hout)]
  refine check_preparation_lock fun id => ?_
  unfold guarded
  refine ⟨⟨rfl, rfl⟩, ?_⟩
  rintro _ _ ⟨rfl, -⟩
  refine .bind (check_prepare_locked E hrid hcompile rfl) ?_
  rintro result a' ⟨hreturned, hinside⟩
  refine ⟨⟨rfl, hinside, ?_⟩, ?_⟩
  · rintro - ⟨made, hmade⟩
    exact (hreturned.ok hmade).2
  · rintro _ _ ⟨rfl, -⟩
    exact hreturned

/-- In every interleaving of calls from a cold start the invariant holds, and what a call has
returned is what it may return. -/
theorem run (E : CacheEnv) (hrid : self.rid = c.rid) (hcompile : engine.compile source = c.outcome)
    {T : Calls ι κ}
    (hrun : Calls.Run usize_max (Calls.start E engine self c.digest source c.system) T)
    (hfew : c.reads + T.state.reads < 2 ^ 64) :
    Sound c T.state ∧ ∀ i result, T.threads i = settled result →
      c.Returned result (T.state.accounts i) := by
  -- The bound on the reads of the whole run holds at each of its steps.
  have hbelow : Tasks.Run (accounts ι c usize_max).step (fun _ _ => False) settled
      (Calls.start E engine self c.digest source c.system) T := by
    refine Tasks.Run.below (fun s => c.reads + s.reads) ?_ (fun _ _ h => h.elim) hrun hfew
    rintro i s op answer s' ⟨system, -, rfl⟩
    exact Nat.add_le_add_left (Nat.le_add_right _ _) _
  have hsettled : ∀ result a, c.Returned result a →
      (accounts ι c usize_max).Check (Tasks.Post (fun _ => True) c.Returned) (settled result) a :=
    fun _ _ h => h
  have hstart : ∀ i, (accounts ι c usize_max).Check (Tasks.Post (fun _ => True) c.Returned)
      ((Calls.start (ι := ι) E engine self c.digest source c.system).threads i) {} :=
    fun i => Accounts.Check.bind (check_prepare E hrid hcompile rfl) hsettled
  obtain ⟨hsound, hthreads⟩ := Accounts.run (L := accounts ι c usize_max)
    (T := Calls.start E engine self c.digest source c.system) (fun _ _ _ h => h.elim) hsettled
    (Sound.start c) hstart hbelow
  refine ⟨hsound, fun i result hi => ?_⟩
  have hthis := hthreads i
  rw [hi] at hthis
  exact hthis

end Checks

end ColdStart

/-! ## One flight

The history before the calls counts only by how often the counter was read. -/

/-- The call is between its lock and its unlock. -/
def Flight.Inside {ι κ : Type} (s : Flight ι κ) (i : ι) : Prop := (s.accounts i).phase ≠ .outside

section Result

variable {ι κ : Type} [DecidableEq ι]

/-- Any number of calls on one digest that is neither in memory nor on disk, in any
interleaving, as long as the counter of the memory has not wrapped, whatever locks the map holds
at the start: all that have asked for the lock of the digest were handed the same one, and at
most one is inside at a time. If the source compiles it is compiled once, no file is put in place
twice, and every call returns what was compiled; otherwise every call returns an error, and
memory and disk hold what they held. -/
theorem single_flight (E : CacheEnv) (engine : Engine κ) (self : RuntimeInner) (digest : Digest)
    (source : Bytes) (usize_max : ℕ) {config : RuntimeConfig}
    (hconfig : validate_config config = .ok ()) (history : List (MemoryOp κ)) (s : System κ)
    (hmemory : s.memory self.rid = MemoryOp.runs usize_max history (.new config.memory))
    (hmissing : s.Missing self.rid digest)
    (habsent : ∀ profile kind, kind = .artifact ∨ kind = .metadata →
      s.world.dir (file_name digest profile kind) = none)
    {T : Calls ι κ} (hrun : Calls.Run usize_max (Calls.start E engine self digest source s) T)
    (hfew : MemoryOp.runs_reads usize_max history (.new config.memory) + T.state.reads < 2 ^ 64) :
    (∀ i j id id', (T.state.accounts i).lock = some id → (T.state.accounts j).lock = some id' →
      id = id') ∧
    (∀ i j, T.state.Inside i → T.state.Inside j → i = j) ∧
    (∀ prepared bytes, engine.compile source = .ok (prepared, bytes) →
      T.state.compiled ≤ 1 ∧ T.state.renamed.Nodup ∧
      ∀ i result, T.threads i = settled result → result = .ok prepared ∧ T.state.compiled = 1) ∧
    (∀ e, engine.compile source = .error e →
      (∀ i result, T.threads i = settled result → ∃ e', result = .error e') ∧
      (T.state.system.memory self.rid).warm = (s.memory self.rid).warm ∧
      (T.state.system.memory self.rid).warmish = (s.memory self.rid).warmish ∧
      T.state.system.world.dir = s.world.dir) := by
  -- The counter of the cache has room for the reads of the history and of this run.
  have hclocked := MemoryCache.Clocked.runs usize_max history
    (.new config.memory) (by omega)
  rw [Nat.zero_add, ← hmemory] at hclocked
  let c : ColdStart κ :=
    { rid := self.rid, digest, outcome := engine.compile source, limits := config.memory,
      system := s, reads := _, room := (validate_config_memory hconfig).1,
      clocked := hclocked, missing := hmissing, absent := habsent }
  obtain ⟨hsound, hreturned⟩ := ColdStart.run (c := c) E rfl rfl hrun hfew
  refine ⟨?_, hsound.ledger.exclusive, ?_, ?_⟩
  · intro i j id id' hi hj
    exact Option.some.inj ((hsound.shares.one i id hi).symm.trans (hsound.shares.one j id' hj))
  · intro prepared bytes hmade
    have hcompiles : c.Compiles := ⟨_, hmade⟩
    have honce := hsound.ledger.once hcompiles
    refine ⟨honce, hsound.ledger.nodup, fun i result hi => ?_⟩
    obtain ⟨hresult, hready⟩ := ColdStart.Returned.ok hmade (hreturned i result hi)
    have hpos := (hsound.ledger.sources (hsound.ledger.ready i hready)).2
    exact ⟨hresult, by omega⟩
  · intro e hfails
    have hnot : ¬ c.Compiles := by
      rintro ⟨made, hmade⟩
      cases hmade.symm.trans hfails
    -- An insertion needs a component, and there is none.
    have hzero : T.state.inserted = 0 := by
      by_contra hne
      exact hnot (hsound.ledger.sources (Nat.pos_of_ne_zero hne)).1
    obtain ⟨hwarm, hwarmish⟩ := hsound.stocked.quiet hzero
    refine ⟨fun i result hi => ?_, hwarm, hwarmish, hsound.dir (.inr hnot)⟩
    exact ColdStart.Returned.error hfails (hreturned i result hi)

end Result

/-! ## Two calls

They ask for the lock before either holds it. -/

section Answers

variable {ι κ : Type}

/-- The call has returned. -/
def Calls.hasSettled (T : Calls ι κ) (i : ι) : Bool :=
  match T.threads i with
  | .ret (some _) => true
  | _ => false

theorem Calls.settled_of_hasSettled {T : Calls ι κ} {i : ι} (h : T.hasSettled i = true) :
    ∃ result, T.threads i = settled result := by
  unfold Calls.hasSettled at h
  split at h
  · exact ⟨_, by assumption⟩
  · cases h

variable [DecidableEq ι]

/-- The answer to an operation, if it need not wait and nothing goes wrong. -/
def Flight.answer (usize_max : ℕ) (i : ι) (s : Flight ι κ) (op : RtOp κ) :
    Option (op.Answer × Flight ι κ) :=
  (RtOp.answer usize_max s.system op).map fun r => (r.1, s.after i op r.1 r.2)

theorem Flight.performs_of_answer {usize_max : ℕ} (i : ι) (s : Flight ι κ) (op : RtOp κ)
    (answer : op.Answer) (s' : Flight ι κ) (h : s.answer usize_max i op = some (answer, s')) :
    Flight.Performs usize_max i s op answer s' := by
  obtain ⟨⟨answer, system⟩, hanswer, h⟩ := Option.map_eq_some_iff.mp h
  obtain ⟨rfl, rfl⟩ := Prod.mk.inj h
  exact ⟨system, .inl (rt_step_of_answer _ _ _ _ hanswer), rfl⟩

/-- The calls take turns as the schedule says. -/
def Calls.follow (usize_max : ℕ) (T : Calls ι κ) (schedule : List ι) : Option (Calls ι κ) :=
  Tasks.follow (Flight.answer usize_max) settled T schedule

end Answers

/-- Two calls from an empty runtime. -/
def coldPair : Calls Bool Unit :=
  Calls.start sampleCacheEnv sampleEngine (sampleRuntime 0 1) sampleDigest sampleComponent
    emptySystem

/-- Both look into the warm map and ask for the lock; then the first goes on to its end, and
after it the second. -/
def inTurns : List Bool :=
  [false, true, false, true] ++ List.replicate 22 false ++ List.replicate 3 true

/-- The default capacities. -/
def sampleConfig : RuntimeConfig := ⟨64, 1024, 512 * 1024 * 1024, 1, 1, 1⟩

/-- The first makes the lock, and the second is handed the same. The first compiles, publishes
and inserts, and the second finds what it inserted. -/
theorem single_flight_pair : ∃ T, Calls.Run (2 ^ 64 - 1) coldPair T ∧
    (∀ i, (T.state.accounts i).lock = some 0) ∧ T.state.compiled = 1 ∧
    T.state.renamed.Nodup ∧ ∀ i, T.threads i = settled (.ok ⟨(), .Cli0_2⟩) := by
  have hcomputed : (coldPair.follow (2 ^ 64 - 1) inTurns).map (fun T =>
      (T.state.reads, fun i => ((T.state.accounts i).lock, T.hasSettled i)))
        = some (7, fun _ => (some 0, true)) := by
    decide +kernel
  obtain ⟨T, hpair, hcomputed⟩ := Option.map_eq_some_iff.mp hcomputed
  obtain ⟨hreads, hcalls⟩ := Prod.mk.inj hcomputed
  have hcall : ∀ i, (T.state.accounts i).lock = some 0 ∧ T.hasSettled i = true :=
    fun i => Prod.mk.inj (congrFun hcalls i)
  have hrun : Calls.Run (2 ^ 64 - 1) coldPair T := Tasks.follow_run Flight.performs_of_answer hpair
  have hconfig : validate_config sampleConfig = .ok () := rfl
  obtain ⟨-, -, hmade, -⟩ := single_flight sampleCacheEnv sampleEngine (sampleRuntime 0 1)
    sampleDigest sampleComponent (2 ^ 64 - 1) hconfig [] emptySystem rfl ⟨rfl, rfl⟩
    (fun _ _ _ => rfl) hrun (by rw [hreads]; decide)
  obtain ⟨-, hnodup, hresults⟩ := hmade _ _ sampleEngine_compile
  have hsettled : ∀ i, T.threads i = settled (.ok ⟨(), .Cli0_2⟩) ∧ T.state.compiled = 1 := by
    intro i
    obtain ⟨result, hresult⟩ := Calls.settled_of_hasSettled (hcall i).2
    obtain ⟨rfl, hcompiled⟩ := hresults i result hresult
    exact ⟨hresult, hcompiled⟩
  exact ⟨T, hrun, fun i => (hcall i).1, (hsettled true).2, hnodup, fun i => (hsettled i).1⟩

/-! ## After the clock has wrapped

What the first call inserts is evicted at once, and the second compiles again. -/

/-- Room for one component, and for one byte of artifacts. -/
def tightConfig : RuntimeConfig := ⟨1, 1, 1, 1, 1, 1⟩

/-- Another package, with an artifact of one byte. -/
def otherDigest : Digest := repeated 'a' rfl

/-- The memory of a runtime that has prepared the other package and then looked it up until
the counter stood at `n`. -/
def lookedUp (n : UInt64) : MemoryCache Unit where
  warm := (∅ : Entries (PreparedComponent Unit)).insert otherDigest.text ⟨⟨(), .Cli0_2⟩, n⟩
  warmish := (∅ : Entries PreparedAot).insert otherDigest.text ⟨⟨[1], .Cli0_2⟩, 1⟩
  warmish_bytes := 1
  sequence := n
  max_warm := 1
  max_warmish := 1
  max_warmish_bytes := 1

theorem get_warm_lookedUp {n : UInt64} (h : n + 1 ≠ 0) :
    ((lookedUp n).get_warm otherDigest.text).2 = lookedUp (n + 1) := by
  have htick : (lookedUp n).tick = (n + 1, { lookedUp n with sequence := n + 1 }) := by
    unfold MemoryCache.tick
    rw [if_neg (show (lookedUp n).sequence + 1 ≠ 0 from h)]
    rfl
  unfold MemoryCache.get_warm
  rw [htick]
  dsimp only [lookedUp]
  rw [AList.lookup_insert]
  dsimp only
  rw [AList.insert_insert]

theorem runs_lookedUp (usize_max k : ℕ) {n : UInt64} (h : n.toNat + k < 2 ^ 64) :
    MemoryOp.runs usize_max (List.replicate k (.warm otherDigest)) (lookedUp n)
      = lookedUp (n + UInt64.ofNat k) := by
  induction k generalizing n with
  | zero => simp [MemoryOp.runs]
  | succ k ih =>
    have hnext : (n + 1).toNat = n.toNat + 1 := by
      rw [UInt64.toNat_add]
      exact Nat.mod_eq_of_lt (by show n.toNat + 1 < 2 ^ 64; omega)
    have hne : n + 1 ≠ 0 := by
      intro hzero
      rw [hzero] at hnext
      cases hnext
    rw [List.replicate_succ]
    show MemoryOp.runs usize_max (List.replicate k (.warm otherDigest))
      ((lookedUp n).get_warm otherDigest.text).2 = _
    rw [get_warm_lookedUp hne, ih (by omega), UInt64.add_assoc]
    congr 2
    rw [UInt64.ofNat_add]
    exact UInt64.add_comm _ _

/-- All there was before: one preparation and many lookups. -/
def longHistory (k : ℕ) : List (MemoryOp Unit) :=
  .insert otherDigest ⟨[1], .Cli0_2⟩ ⟨(), .Cli0_2⟩ :: List.replicate k (.warm otherDigest)

/-- So many lookups take the counter so far. -/
theorem runs_longHistory {k : ℕ} (h : 2 + k < 2 ^ 64) :
    MemoryOp.runs (2 ^ 64 - 1) (longHistory k) (.new tightConfig.memory)
      = lookedUp (2 + UInt64.ofNat k) := by
  have hfirst : (MemoryOp.run (2 ^ 64 - 1) (.new tightConfig.memory)
      (.insert otherDigest ⟨[1], .Cli0_2⟩ ⟨(), .Cli0_2⟩)).2 = lookedUp 2 := rfl
  rw [← runs_lookedUp (2 ^ 64 - 1) k (n := 2) h, ← hfirst]
  rfl

/-- A runtime without a disk, with that memory. -/
def wrapped : System Unit where
  world := emptyWorld
  memory _ := lookedUp (2 ^ 64 - 1)
  locks _ := .new
  disk_publish_failures _ := 0

/-- Two calls on a package whose artifact is too large for the warmish map. -/
def wrappedPair : Calls Bool Unit :=
  Calls.start sampleCacheEnv sampleEngine ⟨0, 1, tightConfig.memory, none⟩ sampleDigest
    sampleComponent wrapped

/-- The counter wraps with the first lookup, so that what the first call inserts is the oldest
entry of a full map and is evicted at once: the second call finds nothing and compiles again. -/
theorem wrapped_clock_compiles_twice : validate_config tightConfig = .ok () ∧
    wrapped.memory 0
      = MemoryOp.runs (2 ^ 64 - 1) (longHistory (2 ^ 64 - 3)) (.new tightConfig.memory) ∧
    wrapped.Missing 0 sampleDigest ∧ wrapped.world = emptyWorld ∧
    ∃ T, Calls.Run (2 ^ 64 - 1) wrappedPair T ∧ (∀ i, ∃ result, T.threads i = settled result) ∧
      T.state.compiled = 2 := by
  have hclock : 2 + UInt64.ofNat (2 ^ 64 - 3) = 2 ^ 64 - 1 := by decide +kernel
  refine ⟨rfl, ?_, ⟨by decide +kernel, by decide +kernel⟩, rfl, ?_⟩
  · rw [runs_longHistory (by decide), hclock]
    rfl
  have hcomputed : (wrappedPair.follow (2 ^ 64 - 1)
      (List.replicate 8 false ++ List.replicate 8 true)).map
        (fun T => (T.state.compiled, T.hasSettled)) = some (2, fun _ => true) := by
    decide +kernel
  obtain ⟨T, hpair, hcomputed⟩ := Option.map_eq_some_iff.mp hcomputed
  obtain ⟨hcompiled, hsettled⟩ := Prod.mk.inj hcomputed
  exact ⟨T, Tasks.follow_run Flight.performs_of_answer hpair,
    fun i => Calls.settled_of_hasSettled (congrFun hsettled i), hcompiled⟩

end WasmRuntime.Cache
