/-
`MemoryCache`: the two in-memory tiers of a runtime.

A warm entry is a compiled component, a warmish entry its serialized form.
-/
import Mathlib.Data.List.AList
import Mathlib.Data.List.MinMax
import Mathlib.Data.Prod.Lex
import Mathlib.Data.String.Basic
import WasmRuntime.DiskCache

set_option autoImplicit false

namespace WasmRuntime.Cache

open ByteCodec

/-! ## Types

A `HashMap` is an `AList`: the code never depends on the order of iteration, since `least_recent`
has a unique answer. -/

/-- `PreparedComponent`, over the engine's type of components. -/
@[ext]
structure PreparedComponent (κ : Type) where
  component : κ
  profile : WasiProfile
  deriving DecidableEq

@[ext]
structure PreparedAot where
  bytes : Bytes
  profile : WasiProfile

structure CacheEntry (α : Type) where
  value : α
  last_used : UInt64

/-- A map of entries by digest. -/
abbrev Entries (α : Type) := AList fun _ : String => CacheEntry α

structure MemoryCache (κ : Type) where
  warm : Entries (PreparedComponent κ)
  warmish : Entries PreparedAot
  warmish_bytes : ℕ
  sequence : UInt64
  max_warm : ℕ
  max_warmish : ℕ
  max_warmish_bytes : ℕ

inductive PackageTier where
  | Cold | DiskAot | Warmish | Warm
  deriving DecidableEq, Repr

/-- The part of `RuntimeConfig` that bounds the memory tiers. -/
structure MemoryLimits where
  max_warm_components : ℕ
  max_warmish_entries : ℕ
  max_warmish_bytes : ℕ

/-! ## Eviction

Both maps are bounded, the second in bytes as well, and evict the entry used least recently, where
the clock is a 64-bit counter that skips zero and two entries of one age are told apart by their
keys. -/

def least_recent {α : Type} (entries : Entries α) : Option String :=
  (entries.entries.argmin fun e => toLex (e.2.last_used.toNat, e.1)).map Sigma.fst

/-- The loop of `insert_warm`. -/
def evict_warm {α : Type} (max_warm : ℕ) : ℕ → Entries α → Entries α
  | 0, entries => entries
  | fuel + 1, entries =>
    if entries.keys.length > max_warm then
      match least_recent entries with
      | some key => evict_warm max_warm fuel (entries.erase key)
      | none => evict_warm max_warm fuel entries
    else entries

/-- The loop of `insert_warmish`, which keeps the byte count as it goes. -/
def evict_warmish (max_warmish max_warmish_bytes : ℕ) :
    ℕ → Entries PreparedAot × ℕ → Entries PreparedAot × ℕ
  | 0, s => s
  | fuel + 1, (entries, bytes) =>
    if entries.keys.length > max_warmish ∨ bytes > max_warmish_bytes then
      match least_recent entries with
      | none => (entries, bytes)
      | some key =>
        match entries.lookup key with
        | some entry => evict_warmish max_warmish max_warmish_bytes fuel
            (entries.erase key, bytes - entry.value.bytes.length)
        | none => evict_warmish max_warmish max_warmish_bytes fuel (entries.erase key, bytes)
    else (entries, bytes)

namespace MemoryCache

variable {κ : Type}

/-- `MemoryCache::new`. -/
def new (config : MemoryLimits) : MemoryCache κ where
  warm := ∅
  warmish := ∅
  warmish_bytes := 0
  sequence := 0
  max_warm := config.max_warm_components
  max_warmish := config.max_warmish_entries
  max_warmish_bytes := config.max_warmish_bytes

/-- `MemoryCache::tick`: `wrapping_add(1).max(1)`. -/
def tick (m : MemoryCache κ) : UInt64 × MemoryCache κ :=
  let sequence := if m.sequence + 1 = 0 then 1 else m.sequence + 1
  (sequence, { m with sequence })

/-- `MemoryCache::warm`. -/
def get_warm (m : MemoryCache κ) (digest : String) :
    Option (PreparedComponent κ) × MemoryCache κ :=
  let (tick, m) := m.tick
  match m.warm.lookup digest with
  | none => (none, m)
  | some entry =>
    (some entry.value, { m with warm := m.warm.insert digest { entry with last_used := tick } })

/-- `MemoryCache::warmish`. -/
def get_warmish (m : MemoryCache κ) (digest : String) : Option PreparedAot × MemoryCache κ :=
  let (tick, m) := m.tick
  match m.warmish.lookup digest with
  | none => (none, m)
  | some entry =>
    (some entry.value,
      { m with warmish := m.warmish.insert digest { entry with last_used := tick } })

/-- `MemoryCache::insert_warm`. -/
def insert_warm (m : MemoryCache κ) (digest : String) (value : PreparedComponent κ) :
    MemoryCache κ :=
  let (last_used, m) := m.tick
  let warm := m.warm.insert digest ⟨value, last_used⟩
  { m with warm := evict_warm m.max_warm warm.keys.length warm }

/-- `MemoryCache::insert_warmish`; `usize_max` is where `saturating_add` stops. -/
def insert_warmish (usize_max : ℕ) (m : MemoryCache κ) (digest : String) (value : PreparedAot) :
    MemoryCache κ :=
  if value.bytes.length > m.max_warmish_bytes then m
  else
    let (last_used, m) := m.tick
    let warmish_bytes := match m.warmish.lookup digest with
      | some previous => m.warmish_bytes - previous.value.bytes.length
      | none => m.warmish_bytes
    let warmish := m.warmish.insert digest ⟨value, last_used⟩
    let (warmish, warmish_bytes) := evict_warmish m.max_warmish m.max_warmish_bytes
      warmish.keys.length (warmish, min (warmish_bytes + value.bytes.length) usize_max)
    { m with warmish, warmish_bytes }

/-- What `RuntimeInner::tier` does under the mutex. -/
def tier (m : MemoryCache κ) (digest : String) : Option PackageTier × MemoryCache κ :=
  match m.get_warm digest with
  | (some _, m) => (some .Warm, m)
  | (none, m) =>
    match m.get_warmish digest with
    | (some _, m) => (some .Warmish, m)
    | (none, m) => (none, m)

/-- `MemoryCache::demote`. -/
def demote (m : MemoryCache κ) (digest : String) : MemoryCache κ :=
  { m with warm := m.warm.erase digest }

end MemoryCache

/-! ## The loops end by their own condition

The two eviction loops run on a fuel, the number of entries, which is as often as they can go
round. -/

section Loops

variable {α : Type}

theorem least_recent_eq_none {entries : Entries α} (h : least_recent entries = none) :
    entries.keys = [] := by
  rw [least_recent, Option.map_eq_none_iff, List.argmin_eq_none] at h
  rw [AList.keys, h]
  rfl

/-- The victim is an entry. -/
theorem least_recent_mem {entries : Entries α} {key : String}
    (h : least_recent entries = some key) : key ∈ entries.keys := by
  rw [least_recent, Option.map_eq_some_iff] at h
  obtain ⟨e, he, rfl⟩ := h
  exact List.mem_map_of_mem (List.argmin_mem he)

theorem length_erase {entries : Entries α} {key : String} (h : key ∈ entries.keys) :
    (entries.erase key).keys.length = entries.keys.length - 1 := by
  rw [AList.keys_erase, List.length_erase_of_mem h]

/-- As many rounds as there are entries are enough for `insert_warm`. -/
theorem evict_warm_length {max_warm fuel : ℕ} {entries : Entries α}
    (hfuel : entries.keys.length ≤ fuel) :
    (evict_warm max_warm fuel entries).keys.length ≤ max_warm := by
  induction fuel generalizing entries with
  | zero =>
    rw [evict_warm]
    omega
  | succ fuel ih =>
    rw [evict_warm]
    split
    · rename_i hover
      cases hkey : least_recent entries with
      | none =>
        -- A map over its bound is not empty.
        have hempty := least_recent_eq_none hkey
        rw [hempty] at hover
        exact absurd hover (Nat.not_lt_zero _)
      | some key =>
        have hlen := length_erase (least_recent_mem hkey)
        exact ih (by omega)
    · omega

/-- They are for `insert_warmish`, which also stops when there is nothing left to evict. -/
theorem evict_warmish_exit {max_warmish max_warmish_bytes fuel bytes : ℕ}
    {entries : Entries PreparedAot} (hfuel : entries.keys.length ≤ fuel) :
    let s := evict_warmish max_warmish max_warmish_bytes fuel (entries, bytes)
    (s.1.keys.length ≤ max_warmish ∧ s.2 ≤ max_warmish_bytes) ∨ s.1.keys = [] := by
  induction fuel generalizing entries bytes with
  | zero => exact .inr (List.length_eq_zero_iff.mp (Nat.le_zero.mp hfuel))
  | succ fuel ih =>
    rw [evict_warmish]
    split
    · cases hkey : least_recent entries with
      | none => exact .inr (least_recent_eq_none hkey)
      | some key =>
        have hlen := length_erase (least_recent_mem hkey)
        dsimp only
        cases entries.lookup key with
        | none => exact ih (by omega)
        | some entry => exact ih (by omega)
    · rename_i hbound
      exact .inl (by dsimp only; omega)

end Loops

/-! ## What every entry satisfies

A property of keys and values that each insertion respects holds of all entries at all times. -/

/-- A property of all entries of a map. -/
def Entries.All {α : Type} (P : String → α → Prop) (entries : Entries α) : Prop :=
  ∀ key entry, entries.lookup key = some entry → P key entry.value

namespace Entries.All

variable {α : Type} {P : String → α → Prop} {entries : Entries α}

theorem insert (h : Entries.All P entries) {key : String} (entry : CacheEntry α)
    (hentry : P key entry.value) : Entries.All P (entries.insert key entry) := by
  intro key' entry' hlookup
  by_cases hkey : key' = key
  · subst hkey
    rw [AList.lookup_insert] at hlookup
    cases hlookup
    exact hentry
  · rw [AList.lookup_insert_ne hkey] at hlookup
    exact h key' entry' hlookup

theorem erase (h : Entries.All P entries) (key : String) : Entries.All P (entries.erase key) := by
  intro key' entry' hlookup
  by_cases hkey : key' = key
  · subst hkey
    rw [AList.lookup_erase] at hlookup
    cases hlookup
  · rw [AList.lookup_erase_ne hkey] at hlookup
    exact h key' entry' hlookup

theorem evict_warm (h : Entries.All P entries) (max_warm fuel : ℕ) :
    Entries.All P (evict_warm max_warm fuel entries) := by
  induction fuel generalizing entries with
  | zero => exact h
  | succ fuel ih =>
    rw [Cache.evict_warm]
    split
    · split
      · exact ih (h.erase _)
      · exact ih h
    · exact h

theorem evict_warmish {Q : String → PreparedAot → Prop} {entries : Entries PreparedAot}
    (h : Entries.All Q entries) (max_warmish max_warmish_bytes fuel bytes : ℕ) :
    Entries.All Q (evict_warmish max_warmish max_warmish_bytes fuel (entries, bytes)).1 := by
  induction fuel generalizing entries bytes with
  | zero => exact h
  | succ fuel ih =>
    rw [Cache.evict_warmish]
    split
    · split
      · exact h
      · split
        · exact ih (h.erase _) _
        · exact ih (h.erase _) _
    · exact h

end Entries.All

namespace MemoryCache

variable {κ : Type} {P : String → PreparedComponent κ → Prop} {Q : String → PreparedAot → Prop}
  {m : MemoryCache κ}

/-- A property of all warm entries and one of all warmish entries. -/
structure All (P : String → PreparedComponent κ → Prop) (Q : String → PreparedAot → Prop)
    (m : MemoryCache κ) : Prop where
  warm : Entries.All P m.warm
  warmish : Entries.All Q m.warmish

theorem All.new (config : MemoryLimits) : All P Q (new config : MemoryCache κ) :=
  ⟨nofun, nofun⟩

theorem All.tick (h : All P Q m) : All P Q m.tick.2 := ⟨h.warm, h.warmish⟩

/-- A lookup returns what is kept under the key. -/
theorem All.get_warm (h : All P Q m) (digest : String) :
    All P Q (m.get_warm digest).2 ∧
      ∀ value, (m.get_warm digest).1 = some value → P digest value := by
  unfold MemoryCache.get_warm
  dsimp only
  cases hlookup : m.tick.2.warm.lookup digest with
  | none => exact ⟨h.tick, nofun⟩
  | some entry =>
    have hentry := h.tick.warm digest entry hlookup
    refine ⟨⟨h.tick.warm.insert _ hentry, h.warmish⟩, ?_⟩
    rintro value ⟨⟩
    exact hentry

theorem All.get_warmish (h : All P Q m) (digest : String) :
    All P Q (m.get_warmish digest).2 ∧
      ∀ value, (m.get_warmish digest).1 = some value → Q digest value := by
  unfold MemoryCache.get_warmish
  dsimp only
  cases hlookup : m.tick.2.warmish.lookup digest with
  | none => exact ⟨h.tick, nofun⟩
  | some entry =>
    have hentry := h.tick.warmish digest entry hlookup
    refine ⟨⟨h.warm, h.tick.warmish.insert _ hentry⟩, ?_⟩
    rintro value ⟨⟩
    exact hentry

/-- An insertion adds what it inserts. -/
theorem All.insert_warm (h : All P Q m) {digest : String} {value : PreparedComponent κ}
    (hvalue : P digest value) : All P Q (m.insert_warm digest value) :=
  ⟨(h.tick.warm.insert ⟨value, m.tick.1⟩ hvalue).evict_warm _ _, h.warmish⟩

/-- Eviction only takes entries away. -/
theorem All.insert_warmish (h : All P Q m) (usize_max : ℕ) {digest : String} {value : PreparedAot}
    (hvalue : Q digest value) : All P Q (m.insert_warmish usize_max digest value) := by
  unfold MemoryCache.insert_warmish
  split
  · exact h
  · refine ⟨h.warm, ?_⟩
    exact Entries.All.evict_warmish
      (h.tick.warmish.insert ⟨value, m.tick.1⟩ hvalue) _ _ _ _

theorem All.tier (h : All P Q m) (digest : String) : All P Q (m.tier digest).2 := by
  have hwarm := (h.get_warm digest).1
  unfold MemoryCache.tier
  generalize m.get_warm digest = r at hwarm ⊢
  obtain ⟨found, m'⟩ := r
  cases found with
  | some prepared => exact hwarm
  | none =>
    have hwarmish := (All.get_warmish hwarm digest).1
    dsimp only at hwarmish ⊢
    generalize m'.get_warmish digest = r' at hwarmish ⊢
    obtain ⟨found', m''⟩ := r'
    cases found' <;> exact hwarmish

theorem All.demote (h : All P Q m) (digest : String) : All P Q (m.demote digest) :=
  ⟨h.warm.erase digest, h.warmish⟩

end MemoryCache

end WasmRuntime.Cache
