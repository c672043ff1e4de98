/-
Whether a warm package is warmish as well.

`validate_config` asks for at least as many warmish entries as warm ones, so that a package that is
demoted falls to the warmish tier. The two maps evict on their own, though, each by its own stamps,
and a hit in the warm map renews the warm stamp only. A package that is hit often grows old in the
warmish map while it stays young in the warm one: the next insertion into a full warmish map takes
it from there, and when it is demoted it is gone from memory.
-/
import Mathlib.Algebra.BigOperators.Group.Finset.Basic
import Mathlib.Algebra.Order.BigOperators.Group.Finset
import WasmRuntime.MemoryCacheLru
import WasmRuntime.Prepare

set_option autoImplicit false

namespace WasmRuntime.Cache

open Recency

/-! ## One insertion evicts at most one entry

A map that was within its bound is one over it. -/

section Victim

variable {α : Type}

/-- What a map one entry over its bound loses. -/
def victim (bound : ℕ) (entries : Entries α) : Option String :=
  if entries.keys.length > bound then least_recent entries else none

theorem victim_eq_none {bound : ℕ} {entries : Entries α} (h : entries.keys.length ≤ bound) :
    victim bound entries = none :=
  if_neg (Nat.not_lt.mpr h)

theorem evict_warm_of_le {max_warm : ℕ} {entries : Entries α}
    (h : entries.keys.length ≤ max_warm) (fuel : ℕ) :
    evict_warm max_warm fuel entries = entries := by
  cases fuel with
  | zero => rfl
  | succ fuel =>
    rw [evict_warm]
    exact if_neg (Nat.not_lt.mpr h)

theorem evict_warmish_of_le {max_warmish max_warmish_bytes bytes : ℕ}
    {entries : Entries PreparedAot} (h : entries.keys.length ≤ max_warmish)
    (hbytes : bytes ≤ max_warmish_bytes) (fuel : ℕ) :
    evict_warmish max_warmish max_warmish_bytes fuel (entries, bytes) = (entries, bytes) := by
  cases fuel with
  | zero => rfl
  | succ fuel =>
    rw [evict_warmish]
    exact if_neg (by omega)

/-- A map over its bound has a victim, without which it is within the bound. -/
theorem victim_of_gt {bound : ℕ} {entries : Entries α} (hover : entries.keys.length > bound)
    (hone : entries.keys.length ≤ bound + 1) :
    ∃ key, least_recent entries = some key ∧ victim bound entries = some key ∧
      (entries.erase key).keys.length ≤ bound := by
  cases hkey : least_recent entries with
  | none =>
    rw [least_recent_eq_none hkey] at hover
    exact absurd hover (Nat.not_lt_zero _)
  | some key =>
    have hlen := length_erase (least_recent_mem hkey)
    exact ⟨key, rfl, (if_pos hover).trans hkey, by omega⟩

theorem mem_evict_warm {max_warm : ℕ} {entries : Entries α}
    (hone : entries.keys.length ≤ max_warm + 1) (key : String) :
    key ∈ evict_warm max_warm entries.keys.length entries ↔
      key ∈ entries ∧ victim max_warm entries ≠ some key := by
  by_cases hover : entries.keys.length > max_warm
  · obtain ⟨key', hleast, hvictim, hrest⟩ := victim_of_gt hover hone
    obtain ⟨fuel, hfuel⟩ := Nat.exists_eq_succ_of_ne_zero (Nat.ne_zero_of_lt hover)
    rw [hfuel, evict_warm, if_pos hover, hleast, hvictim]
    dsimp only
    rw [evict_warm_of_le hrest, AList.mem_erase]
    simp only [ne_eq, Option.some.injEq]
    tauto
  · rw [evict_warm_of_le (Nat.not_lt.mp hover), victim_eq_none (Nat.not_lt.mp hover)]
    simp only [ne_eq, reduceCtorEq, not_false_eq_true, and_true]

theorem mem_evict_warmish {max_warmish max_warmish_bytes bytes : ℕ}
    {entries : Entries PreparedAot} (hone : entries.keys.length ≤ max_warmish + 1)
    (hbytes : bytes ≤ max_warmish_bytes) (key : String) :
    key ∈ (evict_warmish max_warmish max_warmish_bytes entries.keys.length (entries, bytes)).1 ↔
      key ∈ entries ∧ victim max_warmish entries ≠ some key := by
  by_cases hover : entries.keys.length > max_warmish
  · obtain ⟨key', hleast, hvictim, hrest⟩ := victim_of_gt hover hone
    obtain ⟨fuel, hfuel⟩ := Nat.exists_eq_succ_of_ne_zero (Nat.ne_zero_of_lt hover)
    have hmem : key' ∈ entries := least_recent_mem hleast
    obtain ⟨entry, hentry⟩ := Option.isSome_iff_exists.mp (AList.lookup_isSome.mpr hmem)
    rw [hfuel, evict_warmish, if_pos (.inl hover), hleast, hvictim]
    dsimp only
    rw [hentry]
    dsimp only
    rw [evict_warmish_of_le hrest (by omega), AList.mem_erase]
    simp only [ne_eq, Option.some.injEq]
    tauto
  · rw [evict_warmish_of_le (Nat.not_lt.mp hover) hbytes, victim_eq_none (Nat.not_lt.mp hover)]
    simp only [ne_eq, reduceCtorEq, not_false_eq_true, and_true]

theorem length_insert_le (entries : Entries α) (key : String) (entry : CacheEntry α) :
    (entries.insert key entry).keys.length ≤ entries.keys.length + 1 := by
  rw [AList.keys_insert, List.length_cons]
  exact Nat.succ_le_succ List.length_erase_le

end Victim

/-! ## The packages of a run

The artifacts are taken to fit in the byte bound together, so that only the number of entries ever
evicts; nothing is assumed of the stamps. -/

section Packages

variable {κ : Type}

/-- The digest and the artifact that an operation inserts. -/
def MemoryOp.inserts : MemoryOp κ → Option (String × PreparedAot)
  | .insert digest aot _ => some (digest.text, aot)
  | _ => none

/-- The digests prepared in a run. -/
def packages (ops : List (MemoryOp κ)) : Finset String :=
  ((ops.filterMap MemoryOp.inserts).map Prod.fst).toFinset

/-- The artifacts of all packages together are no more than `bytes`; a package counts once,
for the largest of its artifacts. -/
def PackagesFit (bytes : ℕ) (ops : List (MemoryOp κ)) : Prop :=
  ∃ size : String → ℕ,
    (∀ p ∈ ops.filterMap MemoryOp.inserts, p.2.bytes.length ≤ size p.1) ∧
      ∑ digest ∈ packages ops, size digest ≤ bytes

/-- A map of such artifacts is no larger than all of them. -/
theorem Entries.bytes_le_sum {D : Finset String} {size : String → ℕ}
    {entries : Entries PreparedAot}
    (h : Entries.All (fun digest aot => digest ∈ D ∧ aot.bytes.length ≤ size digest) entries) :
    entries.bytes ≤ ∑ digest ∈ D, size digest := by
  have hentry : ∀ e ∈ entries.entries, e.1 ∈ D ∧ e.2.value.bytes.length ≤ size e.1 := by
    intro e he
    exact h e.1 e.2 (AList.mem_lookup_iff.mpr he)
  have hsub : entries.keys.toFinset ⊆ D := by
    intro key hkey
    obtain ⟨e, he, rfl⟩ := List.mem_map.mp (List.mem_toFinset.mp hkey)
    exact (hentry e he).1
  calc entries.bytes
      ≤ (entries.entries.map fun e => size e.1).sum :=
        List.sum_le_sum fun e he => (hentry e he).2
    _ = (entries.keys.map size).sum := by
        rw [AList.keys, List.keys, List.map_map]
        rfl
    _ = ∑ digest ∈ entries.keys.toFinset, size digest :=
        (List.sum_toFinset size entries.keys_nodup).symm
    _ ≤ ∑ digest ∈ D, size digest := Finset.sum_le_sum_of_subset hsub

end Packages

/-! ## The cover

What an operation on the memory cache has to meet for the cover to survive it is `Keeps`: an
insertion takes from the warmish map nothing that is warm afterwards, and a promotion finds its
artifact still there. The cover holds along a run exactly when every operation of the run meets
it. -/

section Cover

variable {κ : Type} {limits : MemoryLimits} {usize_max : ℕ} {m : MemoryCache κ}

/-- Every warm digest is a warmish digest. -/
def MemoryCache.Covered (m : MemoryCache κ) : Prop := ∀ digest ∈ m.warm, digest ∈ m.warmish

/-- What an operation has to find for the cover to survive it. -/
def MemoryOp.Keeps (m : MemoryCache κ) : MemoryOp κ → Prop
  | .insert digest aot prepared =>
    -- The two calls read the counter one after the other.
    let warmish := m.warmish.insert digest.text ⟨aot, m.tick.1⟩
    let warm := m.warm.insert digest.text ⟨prepared, m.tick.2.tick.1⟩
    ∀ key ∈ victim m.max_warmish warmish, key ∈ warm → victim m.max_warm warm = some key
  | .insert_warm digest prepared =>
    digest.text ∈ m.warmish ∨
      victim m.max_warm (m.warm.insert digest.text ⟨prepared, m.tick.1⟩) = some digest.text
  | _ => True

instance (m : MemoryCache κ) (op : MemoryOp κ) : Decidable (op.Keeps m) := by
  cases op <;> unfold MemoryOp.Keeps <;> infer_instance

/-- The memory after a run. -/
def MemoryOp.runs (usize_max : ℕ) (ops : List (MemoryOp κ)) (m : MemoryCache κ) : MemoryCache κ :=
  ops.foldl (fun m op => (op.run usize_max m).2) m

/-- Every operation of a run finds it. -/
def KeepsAlong (usize_max : ℕ) : MemoryCache κ → List (MemoryOp κ) → Prop
  | _, [] => True
  | m, op :: rest => op.Keeps m ∧ KeepsAlong usize_max (op.run usize_max m).2 rest

instance (usize_max : ℕ) (m : MemoryCache κ) (ops : List (MemoryOp κ)) :
    Decidable (KeepsAlong usize_max m ops) := by
  induction ops generalizing m with
  | nil => exact isTrue trivial
  | cons op rest ih => exact @instDecidableAnd _ _ inferInstance (ih (op.run usize_max m).2)

/-- A memory that has room for all artifacts of the packages `D`. -/
structure MemoryCache.Roomy (limits : MemoryLimits) (D : Finset String) (size : String → ℕ)
    (m : MemoryCache κ) : Prop where
  bounded : m.Bounded limits
  exact : m.Exact
  all : m.All (fun _ _ => True) (fun digest aot => digest ∈ D ∧ aot.bytes.length ≤ size digest)

/-- What an operation inserts is one of them. -/
def MemoryOp.Among (D : Finset String) (size : String → ℕ) (op : MemoryOp κ) : Prop :=
  ∀ p ∈ op.inserts, p.1 ∈ D ∧ p.2.bytes.length ≤ size p.1

theorem MemoryOp.among_packages {ops : List (MemoryOp κ)} {size : String → ℕ}
    (hsize : ∀ p ∈ ops.filterMap MemoryOp.inserts, p.2.bytes.length ≤ size p.1) :
    ∀ op ∈ ops, op.Among (packages ops) size := by
  intro op hop p hp
  have hmem : p ∈ ops.filterMap MemoryOp.inserts := List.mem_filterMap.mpr ⟨op, hop, hp⟩
  exact ⟨List.mem_toFinset.mpr (List.mem_map_of_mem hmem), hsize p hmem⟩

variable {D : Finset String} {size : String → ℕ}

theorem MemoryCache.Roomy.new (limits : MemoryLimits) (D : Finset String) (size : String → ℕ) :
    (MemoryCache.new limits : MemoryCache κ).Roomy limits D size :=
  ⟨.new limits, rfl, .new limits⟩

variable {digest : String} {aot : PreparedAot}

/-- An artifact of one of the packages is counted and kept within the byte bound. -/
theorem MemoryCache.Roomy.bytes_insert (h : m.Roomy limits D size)
    (hroom : ∑ digest ∈ D, size digest ≤ limits.max_warmish_bytes)
    (haot : digest ∈ D ∧ aot.bytes.length ≤ size digest) (last_used : UInt64) :
    Entries.bytes (m.warmish.insert digest ⟨aot, last_used⟩) ≤ limits.max_warmish_bytes :=
  (Entries.bytes_le_sum (h.all.warmish.insert ⟨aot, last_used⟩ haot)).trans hroom

theorem MemoryCache.Roomy.length_le (h : m.Roomy limits D size)
    (hroom : ∑ digest ∈ D, size digest ≤ limits.max_warmish_bytes)
    (haot : digest ∈ D ∧ aot.bytes.length ≤ size digest) :
    aot.bytes.length ≤ m.max_warmish_bytes := by
  have hinsert := h.bytes_insert hroom haot 0
  rw [Entries.bytes_insert] at hinsert
  rw [h.bounded.max_warmish_bytes]
  exact (Nat.le_add_right _ _).trans hinsert

/-- What both lookups keep, `tier` keeps. -/
theorem MemoryCache.tier_keeps {P : MemoryCache κ → Prop}
    (hwarm : ∀ m, P m → P (m.get_warm digest).2) (hwarmish : ∀ m, P m → P (m.get_warmish digest).2)
    (h : P m) : P (m.tier digest).2 := by
  have hfirst := hwarm m h
  unfold MemoryCache.tier
  generalize m.get_warm digest = r at hfirst ⊢
  obtain ⟨found, m'⟩ := r
  cases found with
  | some prepared => exact hfirst
  | none =>
    have hsecond := hwarmish m' hfirst
    dsimp only at hsecond ⊢
    generalize m'.get_warmish digest = r' at hsecond ⊢
    obtain ⟨found', m''⟩ := r'
    cases found' <;> exact hsecond

/-- The operations keep the room. -/
theorem MemoryCache.Roomy.run (h : m.Roomy limits D size)
    (hroom : ∑ digest ∈ D, size digest ≤ limits.max_warmish_bytes)
    (husize : limits.max_warmish_bytes ≤ usize_max) {op : MemoryOp κ} (hop : op.Among D size) :
    (op.run usize_max m).2.Roomy limits D size := by
  have hputs : op.Puts (fun _ _ => True)
      (fun digest aot => digest ∈ D ∧ aot.bytes.length ≤ size digest) := by
    cases op with
    | insert digest aot prepared => exact ⟨hop _ rfl, trivial⟩
    | warm | warmish | insert_warm | tier | demote => trivial
  have hall := (MemoryOp.run_all usize_max h.all op hputs).1
  cases op with
  | warm digest => exact ⟨h.bounded.get_warm _, h.exact.get_warm _, hall⟩
  | warmish digest => exact ⟨h.bounded.get_warmish _, h.exact.get_warmish _, hall⟩
  | insert_warm digest prepared => exact ⟨h.bounded.insert_warm _ _, h.exact, hall⟩
  | insert digest aot prepared =>
    have hfits := (h.bytes_insert hroom (hop _ rfl) m.tick.1).trans husize
    exact ⟨(h.bounded.insert_warmish usize_max _ _).insert_warm _ _,
      h.exact.insert_warmish hfits, hall⟩
  | tier digest =>
    exact ⟨tier_keeps (fun _ h => h.get_warm _) (fun _ h => h.get_warmish _) h.bounded,
      tier_keeps (fun _ h => h.get_warm _) (fun _ h => h.get_warmish _) h.exact, hall⟩
  | demote digest => exact ⟨h.bounded.demote _, h.exact, hall⟩

/-! ### One operation

A hit and a demotion keep the cover; what an insertion evicts may not. -/

theorem mem_insert_of_lookup {α : Type} {entries : Entries α} {key : String}
    {entry : CacheEntry α} (h : entries.lookup key = some entry) (entry' : CacheEntry α)
    (key' : String) : key' ∈ entries.insert key entry' ↔ key' ∈ entries := by
  rw [AList.mem_insert]
  constructor
  · rintro (rfl | hmem)
    · exact AList.lookup_isSome.mp (Option.isSome_iff_exists.mpr ⟨entry, h⟩)
    · exact hmem
  · exact .inr

/-- A warm hit. -/
theorem MemoryCache.Covered.get_warm (h : m.Covered) (digest : String) :
    (m.get_warm digest).2.Covered := by
  unfold MemoryCache.get_warm
  dsimp only
  cases hlookup : m.tick.2.warm.lookup digest with
  | none => exact h
  | some entry =>
    intro key hkey
    exact h key ((mem_insert_of_lookup hlookup _ key).mp hkey)

/-- A warmish hit. -/
theorem MemoryCache.Covered.get_warmish (h : m.Covered) (digest : String) :
    (m.get_warmish digest).2.Covered := by
  unfold MemoryCache.get_warmish
  dsimp only
  cases hlookup : m.tick.2.warmish.lookup digest with
  | none => exact h
  | some entry =>
    intro key hkey
    exact (mem_insert_of_lookup hlookup _ key).mpr (h key hkey)

/-- A demotion. -/
theorem MemoryCache.Covered.demote (h : m.Covered) (digest : String) :
    (m.demote digest).Covered := by
  intro key hkey
  exact h key (AList.mem_erase.mp hkey).2

theorem MemoryCache.mem_insert_warm (h : m.Bounded limits) (digest : String)
    (value : PreparedComponent κ) (key : String) :
    key ∈ (m.insert_warm digest value).warm ↔
      key ∈ m.warm.insert digest ⟨value, m.tick.1⟩ ∧
        victim m.max_warm (m.warm.insert digest ⟨value, m.tick.1⟩) ≠ some key := by
  apply mem_evict_warm
  have hlen := length_insert_le m.warm digest ⟨value, m.tick.1⟩
  have hle := h.warm_le
  rw [← h.max_warm] at hle
  exact hlen.trans (Nat.succ_le_succ hle)

theorem MemoryCache.Roomy.mem_insert_warmish (h : m.Roomy limits D size)
    (hroom : ∑ digest ∈ D, size digest ≤ limits.max_warmish_bytes)
    (husize : limits.max_warmish_bytes ≤ usize_max)
    (haot : digest ∈ D ∧ aot.bytes.length ≤ size digest) (key : String) :
    key ∈ (m.insert_warmish usize_max digest aot).warmish ↔
      key ∈ m.warmish.insert digest ⟨aot, m.tick.1⟩ ∧
        victim m.max_warmish (m.warmish.insert digest ⟨aot, m.tick.1⟩) ≠ some key := by
  have hbytes := h.bytes_insert hroom haot m.tick.1
  have hcount := warmish_bytes_after_eq h.exact (hbytes.trans husize)
  rw [insert_warmish_eq (h.length_le hroom haot)]
  apply mem_evict_warmish
  · have hlen := length_insert_le m.warmish digest ⟨aot, m.tick.1⟩
    have hle := h.bounded.warmish_le
    rw [← h.bounded.max_warmish] at hle
    exact hlen.trans (Nat.succ_le_succ hle)
  · rw [hcount, h.bounded.max_warmish_bytes]
    exact hbytes

/-- A promotion keeps the cover if the artifact is still warmish, or if the promoted component
is evicted at once. -/
theorem MemoryCache.Covered.insert_warm_iff (h : m.Covered) (hbounded : m.Bounded limits)
    (digest : Digest) (prepared : PreparedComponent κ) :
    (m.insert_warm digest.text prepared).Covered ↔
      (MemoryOp.insert_warm digest prepared).Keeps m := by
  have hmem := MemoryCache.mem_insert_warm hbounded digest.text prepared
  constructor
  · intro hafter
    by_cases hvictim : victim m.max_warm
        (m.warm.insert digest.text ⟨prepared, m.tick.1⟩) = some digest.text
    · exact .inr hvictim
    · have hwarm := (hmem digest.text).mpr ⟨(AList.mem_insert _).mpr (.inl rfl), hvictim⟩
      exact .inl (hafter digest.text hwarm)
  · intro hkeeps key hkey
    obtain ⟨hkey, hvictim⟩ := (hmem key).mp hkey
    rcases (AList.mem_insert _).mp hkey with rfl | hkey
    · rcases hkeeps with hwarmish | hevicted
      · exact hwarmish
      · exact absurd hevicted hvictim
    · exact h key hkey

/-- An insertion keeps the cover if what it takes from the warmish map is not warm after it. -/
theorem MemoryCache.Covered.insert_iff (hcovered : m.Covered) (h : m.Roomy limits D size)
    (hroom : ∑ digest ∈ D, size digest ≤ limits.max_warmish_bytes)
    (husize : limits.max_warmish_bytes ≤ usize_max) {digest : Digest}
    (haot : digest.text ∈ D ∧ aot.bytes.length ≤ size digest.text)
    (prepared : PreparedComponent κ) :
    ((m.insert_warmish usize_max digest.text aot).insert_warm digest.text prepared).Covered ↔
      (MemoryOp.insert digest aot prepared).Keeps m := by
  have hwarmish := h.mem_insert_warmish hroom husize haot
  have hwarm := MemoryCache.mem_insert_warm (h.bounded.insert_warmish usize_max digest.text aot)
    digest.text prepared
  -- The first insertion leaves the warm part alone, so its victim is known beforehand.
  obtain ⟨hsame, hmax, htick⟩ := @insert_warmish_frame _ m usize_max digest.text aot
    (h.length_le hroom haot)
  rw [hsame, hmax, htick] at hwarm
  constructor
  · intro hafter key hvictim hkey
    by_contra hstays
    exact ((hwarmish key).mp (hafter key ((hwarm key).mpr ⟨hkey, hstays⟩))).2 hvictim
  · intro hkeeps key hkey
    obtain ⟨hkey, hstays⟩ := (hwarm key).mp hkey
    refine (hwarmish key).mpr ⟨?_, fun hvictim => hstays (hkeeps key hvictim hkey)⟩
    rcases (AList.mem_insert _).mp hkey with rfl | hkey
    · exact (AList.mem_insert _).mpr (.inl rfl)
    · exact (AList.mem_insert _).mpr (.inr (hcovered key hkey))

/-- One operation keeps the cover exactly if it finds what it has to. -/
theorem MemoryOp.covered_run_iff (h : m.Roomy limits D size)
    (hroom : ∑ digest ∈ D, size digest ≤ limits.max_warmish_bytes)
    (husize : limits.max_warmish_bytes ≤ usize_max) {op : MemoryOp κ} (hop : op.Among D size)
    (hcovered : m.Covered) : (op.run usize_max m).2.Covered ↔ op.Keeps m := by
  cases op with
  | warm digest => exact iff_of_true (hcovered.get_warm _) trivial
  | warmish digest => exact iff_of_true (hcovered.get_warmish _) trivial
  | tier digest =>
    have htier := MemoryCache.tier_keeps (P := MemoryCache.Covered)
      (fun _ h => h.get_warm digest.text) (fun _ h => h.get_warmish digest.text) hcovered
    exact iff_of_true htier trivial
  | demote digest => exact iff_of_true (hcovered.demote _) trivial
  | insert_warm digest prepared => exact hcovered.insert_warm_iff h.bounded digest prepared
  | insert digest aot prepared =>
    exact hcovered.insert_iff h hroom husize (hop _ rfl) prepared

/-! ### Runs

By induction on the operations. -/

/-- A demoted package is found in the warmish map. -/
theorem MemoryCache.Covered.tier_demote (h : m.Covered) (hwarm : digest ∈ m.warm) :
    ((m.demote digest).tier digest).1 = some .Warmish := by
  have hmiss : (m.demote digest).warm.lookup digest = none := AList.lookup_erase _ _
  have hmem : digest ∈ (m.demote digest).tick.2.warmish := h digest hwarm
  have hfound := (m.demote digest).tick.2.get_warmish_found digest
  obtain ⟨entry, hentry⟩ := Option.isSome_iff_exists.mp (AList.lookup_isSome.mpr hmem)
  rw [hentry, Option.map_some] at hfound
  rw [MemoryCache.tier, MemoryCache.get_warm_none hmiss]
  dsimp only
  generalize (m.demote digest).tick.2.get_warmish digest = r at hfound ⊢
  obtain ⟨found, m'⟩ := r
  obtain rfl : found = some entry.value := hfound
  rfl

/-- The cover holds along a run exactly if every operation keeps it. -/
theorem covered_along_iff (hroom : ∑ digest ∈ D, size digest ≤ limits.max_warmish_bytes)
    (husize : limits.max_warmish_bytes ≤ usize_max) {ops : List (MemoryOp κ)}
    (hops : ∀ op ∈ ops, op.Among D size) (h : m.Roomy limits D size) (hcovered : m.Covered) :
    (∀ done, done <+: ops → (MemoryOp.runs usize_max done m).Covered) ↔
      KeepsAlong usize_max m ops := by
  induction ops generalizing m with
  | nil =>
    refine iff_of_true ?_ trivial
    intro done hdone
    rw [List.prefix_nil.mp hdone]
    exact hcovered
  | cons op rest ih =>
    have hop := hops op List.mem_cons_self
    have hstep := MemoryOp.covered_run_iff h hroom husize hop hcovered
    have hrest := fun hnext => ih (fun op hop => hops op (List.mem_cons_of_mem _ hop))
      (h.run hroom husize hop) hnext
    constructor
    · intro hall
      have hnext : (op.run usize_max m).2.Covered :=
        hall [op] (List.prefix_cons_inj op |>.mpr List.nil_prefix)
      refine ⟨hstep.mp hnext, (hrest hnext).mp ?_⟩
      intro done hdone
      exact hall (op :: done) ((List.prefix_cons_inj op).mpr hdone)
    · rintro ⟨hkeeps, halong⟩ done hdone
      have hnext := hstep.mpr hkeeps
      rcases List.prefix_cons_iff.mp hdone with rfl | ⟨done', rfl, hdone'⟩
      · exact hcovered
      · exact (hrest hnext).mpr halong done' hdone'

end Cover

/-- Warm is covered by warmish in every state of a run, and a demoted package is warmish,
exactly if every insertion takes from the warmish map what is not warm after it and every
promotion finds its artifact still there. -/
theorem warm_covered_iff_keeps {κ : Type} {usize_max : ℕ} (config : RuntimeConfig)
    (husize : config.max_warmish_bytes ≤ usize_max) {ops : List (MemoryOp κ)}
    (hfit : PackagesFit config.max_warmish_bytes ops) :
    (∀ done, done <+: ops →
      let m := MemoryOp.runs usize_max done (MemoryCache.new config.memory)
      m.Covered ∧ ∀ digest ∈ m.warm, ((m.demote digest).tier digest).1 = some .Warmish) ↔
      KeepsAlong usize_max (MemoryCache.new config.memory) ops := by
  obtain ⟨size, hsize, hroom⟩ := hfit
  have hops := MemoryOp.among_packages hsize
  have hempty : (MemoryCache.new config.memory : MemoryCache κ).Covered :=
    fun digest hdigest => absurd hdigest (AList.notMem_empty digest)
  rw [← covered_along_iff hroom husize hops (.new config.memory _ size) hempty]
  constructor
  · intro h done hdone
    exact (h done hdone).1
  · intro h done hdone
    exact ⟨h done hdone, fun digest hdigest => (h done hdone).tier_demote hdigest⟩

/-! ## What disturbs the cover

As long as nothing is found in a map or taken out of it, the two lines of the reference are
renewed together: the warm line is the younger part of the warmish one, and each insertion takes
the oldest of either. It is a hit, which renews one of the two lines, or a demotion, which leaves
a young digest to the warmish line alone, that puts them out of step. -/

section Level

variable {κ : Type} {limits : MemoryLimits} {usize_max n : ℕ} {m : MemoryCache κ}
  {c : LruCache κ} {D : Finset String} {size : String → ℕ}

/-- The operation finds an entry, or moves one from one map alone. -/
def MemoryOp.Finds (m : MemoryCache κ) : MemoryOp κ → Prop
  | .insert _ _ _ => False
  | .insert_warm _ _ => True
  | .warm digest | .demote digest => digest.text ∈ m.warm
  | .warmish digest => digest.text ∈ m.warmish
  | .tier digest => digest.text ∈ m.warm ∨ digest.text ∈ m.warmish

/-- The warm line is the younger part of the warmish one. -/
def LruCache.Level (c : LruCache κ) : Prop := c.warm.map Prod.fst <:+ c.warmish.map Prod.fst

/-- Two lines in step, each cut down to its bound. -/
theorem suffix_drop {α : Type} {a b : List α} {p q : ℕ} (h : a <:+ b) (hle : p ≤ q) :
    a.drop (a.length - p) <:+ b.drop (b.length - q) := by
  refine List.suffix_of_suffix_length_le ((List.drop_suffix _ _).trans h) (List.drop_suffix _ _) ?_
  have hlen := h.length_le
  rw [List.length_drop, List.length_drop]
  omega

theorem lineBytes_suffix {l l' : Line String PreparedAot} (h : l' <:+ l) :
    lineBytes l' ≤ lineBytes l := by
  obtain ⟨older, rfl⟩ := h
  rw [lineBytes, lineBytes, List.map_append, List.sum_append]
  exact Nat.le_add_left _ _

/-- An insertion keeps them in step. -/
theorem LruCache.Level.insert (h : c.Level)
    (hcover : limits.max_warm_components ≤ limits.max_warmish_entries) (digest : String)
    {aot : PreparedAot} (hlen : aot.bytes.length ≤ limits.max_warmish_bytes)
    (hbytes : lineBytes (put digest aot c.warmish) ≤ limits.max_warmish_bytes)
    (prepared : PreparedComponent κ) :
    ((c.insert_warmish limits digest aot).insert_warm limits digest prepared).Level := by
  have hwarm : trim (warmWithin limits) (put digest prepared c.warm) = _ :=
    trim_eq_drop fun l' _ => decide_eq_true_iff
  have hwarmish : trim (warmishWithin limits) (put digest aot c.warmish) = _ :=
    trim_eq_drop fun l' hl' => by
      rw [warmishWithin, decide_eq_true_iff, and_iff_left ((lineBytes_suffix hl').trans hbytes)]
  have hput : (put digest prepared c.warm).map Prod.fst
      <:+ (put digest aot c.warmish).map Prod.fst := by
    rw [keys_put, keys_put]
    obtain ⟨older, hline⟩ := h.filter fun k => decide (k ≠ digest)
    exact ⟨older, by rw [← hline, List.append_assoc]⟩
  unfold LruCache.Level LruCache.insert_warm LruCache.insert_warmish
  rw [if_neg (Nat.not_lt.mpr hlen)]
  dsimp only
  rw [hwarm, hwarmish, List.map_drop, List.map_drop]
  have hdrop := suffix_drop hput hcover
  rwa [List.length_map, List.length_map] at hdrop

/-- The memory with its reference, as long as the two lines are in step. -/
structure MemoryCache.InStep (limits : MemoryLimits) (D : Finset String) (size : String → ℕ)
    (n : ℕ) (m : MemoryCache κ) : Prop where
  roomy : m.Roomy limits D size
  level : ∃ c : LruCache κ, m.Refines limits n c ∧ c.Level

/-- Maps in step have the warm packages in the warmish one. -/
theorem MemoryCache.InStep.covered (h : m.InStep limits D size n) : m.Covered := by
  obtain ⟨c, hrefines, hlevel⟩ := h.level
  have hwarm : ∀ digest, digest ∈ m.warm → digest ∈ c.warm.map Prod.fst := by
    intro digest hmem
    rw [← find_isSome, ← hrefines.warm.lookup, Option.isSome_map]
    exact AList.lookup_isSome.mpr hmem
  intro digest hmem
  rw [← AList.lookup_isSome, ← Option.isSome_map, hrefines.warmish.lookup, find_isSome]
  exact hlevel.subset (hwarm digest hmem)

/-- An operation that finds nothing keeps it. -/
theorem MemoryCache.InStep.run (h : m.InStep limits D size n)
    (hcover : limits.max_warm_components ≤ limits.max_warmish_entries)
    (hroom : ∑ digest ∈ D, size digest ≤ limits.max_warmish_bytes)
    (husize : limits.max_warmish_bytes ≤ usize_max) (hn : n + 2 < 2 ^ 64) {op : MemoryOp κ}
    (hop : op.Among D size) (hfinds : ¬ op.Finds m) :
    (op.run usize_max m).2.InStep limits D size (n + 2) := by
  refine ⟨h.roomy.run hroom husize hop, ?_⟩
  obtain ⟨c, hrefines, hlevel⟩ := h.level
  have hlate : ∀ {m' : MemoryCache κ} {c' : LruCache κ}, m'.Refines limits (n + 1) c' →
      m'.Refines limits (n + 2) c' :=
    fun hm => { hm with sequence := hm.sequence.trans (Nat.le_succ _) }
  have htick := hrefines.tick (by omega)
  cases op with
  | warm digest =>
    have hmiss := AList.lookup_eq_none.mpr hfinds
    exact ⟨c, by rw [MemoryOp.run, get_warm_none hmiss]; exact hlate htick, hlevel⟩
  | warmish digest =>
    have hmiss := AList.lookup_eq_none.mpr hfinds
    exact ⟨c, by rw [MemoryOp.run, get_warmish_none hmiss]; exact hlate htick, hlevel⟩
  | tier digest =>
    rw [MemoryOp.Finds, not_or] at hfinds
    have hwarm := AList.lookup_eq_none.mpr hfinds.1
    have hwarmish : m.tick.2.warmish.lookup digest.text = none :=
      AList.lookup_eq_none.mpr hfinds.2
    refine ⟨c, ?_, hlevel⟩
    rw [MemoryOp.run, MemoryCache.tier, get_warm_none hwarm]
    dsimp only
    rw [get_warmish_none hwarmish]
    exact htick.tick (by omega)
  | demote digest =>
    have hmiss : (m.demote digest.text).warm = m.warm :=
      AList.ext (List.kerase_of_notMem_keys hfinds)
    refine ⟨c, ?_, hlevel⟩
    exact { hlate htick with
      exact := hrefines.exact
      sequence := hrefines.sequence.trans (by omega)
      warm := by rw [MemoryOp.run, hmiss]; exact hrefines.warm
      warmish := hrefines.warmish }
  | insert_warm digest prepared => exact absurd trivial hfinds
  | insert digest aot prepared =>
    have haot := hop _ rfl
    have hput := hrefines.stamp (by omega) hrefines.warmish digest.text aot
    have hbytes := h.roomy.bytes_insert hroom haot m.tick.1
    have hlen := h.roomy.length_le hroom haot
    rw [h.roomy.bounded.max_warmish_bytes] at hlen
    refine ⟨_, (hrefines.insert_warmish (by omega) (hbytes.trans husize)).insert_warm (by omega)
      _ _, hlevel.insert hcover digest.text hlen ?_ prepared⟩
    rw [← hput.bytes]
    exact hbytes

/-- A whole run of such operations keeps it. -/
theorem MemoryCache.InStep.runs {ops : List (MemoryOp κ)} (h : m.InStep limits D size n)
    (hcover : limits.max_warm_components ≤ limits.max_warmish_entries)
    (hroom : ∑ digest ∈ D, size digest ≤ limits.max_warmish_bytes)
    (husize : limits.max_warmish_bytes ≤ usize_max) (hn : n + 2 * ops.length < 2 ^ 64)
    (hops : ∀ op ∈ ops, op.Among D size)
    (hfinds : ∀ done op rest, ops = done ++ op :: rest →
      ¬ op.Finds (MemoryOp.runs usize_max done m)) :
    (MemoryOp.runs usize_max ops m).InStep limits D size (n + 2 * ops.length) := by
  induction ops generalizing m n with
  | nil => exact h
  | cons op rest ih =>
    rw [List.length_cons] at hn ⊢
    have hstep := h.run hcover hroom husize (by omega) (hops op List.mem_cons_self)
      (hfinds [] op rest rfl)
    have hrest := ih hstep (by omega) (fun op hop => hops op (List.mem_cons_of_mem _ hop))
      fun done op' rest' hsplit => hfinds (op :: done) op' rest' (by rw [hsplit]; rfl)
    rwa [show n + 2 + 2 * rest.length = n + 2 * (rest.length + 1) by omega] at hrest

/-- Before the cover is lost something was hit, promoted or demoted. -/
theorem hit_before_uncovered {config : RuntimeConfig} (hvalid : validate_config config = .ok ())
    (husize : config.max_warmish_bytes ≤ usize_max) {ops : List (MemoryOp κ)}
    (hfit : PackagesFit config.max_warmish_bytes ops) (hfew : 2 * ops.length < 2 ^ 64)
    (hlost : ¬ (MemoryOp.runs usize_max ops (MemoryCache.new config.memory)).Covered) :
    ∃ done op rest, ops = done ++ op :: rest ∧
      op.Finds (MemoryOp.runs usize_max done (MemoryCache.new config.memory)) := by
  by_contra hnone
  obtain ⟨size, hsize, hroom⟩ := hfit
  have hstart : (MemoryCache.new config.memory : MemoryCache κ).InStep config.memory (packages ops)
      size 0 := ⟨.new _ _ _, _, .new _, List.suffix_rfl⟩
  refine hlost (hstart.runs (validate_config_memory hvalid).2.1 hroom husize
    (by rwa [Nat.zero_add]) (MemoryOp.among_packages hsize) ?_).covered
  intro done op rest hsplit hfinds
  exact hnone ⟨done, op, rest, hsplit, hfinds⟩

end Level

/-- The digest of 64 times the same character. -/
def repeated (c : Char) (hex : isHexChar c = true) : Digest where
  text := String.ofList (List.replicate 64 c)
  length_eq := by rw [String.toList_ofList, List.length_replicate]
  hex := by
    rw [String.toList_ofList, List.all_replicate]
    simpa using hex

/-- With one warm component and two artifacts nothing that is warm leaves the warmish map. -/
theorem warm_covered_iff_keeps_one :
    let config : RuntimeConfig := ⟨1, 2, 16, 1, 1, 1⟩
    let a := repeated 'a' rfl
    let b := repeated 'b' rfl
    let c := repeated 'c' rfl
    let ops : List (MemoryOp Unit) :=
      [.insert a ⟨[1], .Cli0_2⟩ ⟨(), .Cli0_2⟩, .insert b ⟨[2], .Cli0_2⟩ ⟨(), .Cli0_2⟩,
        .insert c ⟨[3], .Cli0_2⟩ ⟨(), .Cli0_2⟩]
    PackagesFit config.max_warmish_bytes ops ∧
      ∀ done, done <+: ops →
        (MemoryOp.runs (2 ^ 64 - 1) done (MemoryCache.new config.memory)).Covered := by
  intro config a b c ops
  have hfit : PackagesFit config.max_warmish_bytes ops :=
    ⟨fun _ => 1, by decide +kernel, by decide +kernel⟩
  refine ⟨hfit, ?_⟩
  intro done hdone
  exact ((warm_covered_iff_keeps config (by decide) hfit).mpr (by decide +kernel) done hdone).1

/-- Two packages are prepared, the first is hit in the warm map, and a third is prepared: the
first is still warm and no longer warmish, and once demoted it is cold. -/
theorem warm_hit_outlives_warmish :
    let config : RuntimeConfig := ⟨2, 2, 16, 1, 1, 1⟩
    let a := repeated 'a' rfl
    let b := repeated 'b' rfl
    let c := repeated 'c' rfl
    let ops : List (MemoryOp Unit) :=
      [.insert a ⟨[1], .Cli0_2⟩ ⟨(), .Cli0_2⟩, .insert b ⟨[2], .Cli0_2⟩ ⟨(), .Cli0_2⟩, .warm a,
        .insert c ⟨[3], .Cli0_2⟩ ⟨(), .Cli0_2⟩]
    let m := MemoryOp.runs (2 ^ 64 - 1) ops (MemoryCache.new config.memory)
    validate_config config = .ok () ∧ PackagesFit config.max_warmish_bytes ops ∧
      a.text ∈ m.warm ∧ a.text ∉ m.warmish ∧ ((m.demote a.text).tier a.text).1 = none ∧
      (tier_on_disk ⟨0, 0, config.memory, none⟩ a : RtM Unit PackageTier) = pure .Cold := by
  refine ⟨rfl, ⟨fun _ => 1, by decide +kernel, by decide +kernel⟩, ?_, ?_, ?_, rfl⟩
  · decide +kernel
  · decide +kernel
  · decide +kernel

end WasmRuntime.Cache
