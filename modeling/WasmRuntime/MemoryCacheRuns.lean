/-
`MemoryCache` over whole runs: what it counts. Nothing here depends on the stamps or on the length
of the run.
-/
import WasmRuntime.MemoryCache

set_option autoImplicit false

namespace WasmRuntime.Cache

open ByteCodec

/-! ## The configuration

A valid configuration has room for at least one entry of each tier. -/

/-- The fields of `RuntimeConfig` that `validate_config` reads. -/
structure RuntimeConfig where
  max_warm_components : ℕ
  max_warmish_entries : ℕ
  max_warmish_bytes : ℕ
  background_workers : ℕ
  paused_resident_ttl : ℕ
  epoch_interval : ℕ
  deriving DecidableEq

def validate_config (config : RuntimeConfig) : Exec Error Unit :=
  Exec.reject (config.max_warm_components == 0
      || decide (config.max_warmish_entries < config.max_warm_components)
      || config.max_warmish_bytes == 0 || config.background_workers == 0
      || config.paused_resident_ttl == 0 || config.epoch_interval == 0)
    (.Configuration ("cache capacities, background workers, pause TTL, and epoch interval must "
      ++ "be positive; warmish entries must cover warm entries"))

/-- The limits a valid configuration gives `MemoryCache::new`. -/
def RuntimeConfig.memory (config : RuntimeConfig) : MemoryLimits where
  max_warm_components := config.max_warm_components
  max_warmish_entries := config.max_warmish_entries
  max_warmish_bytes := config.max_warmish_bytes

theorem validate_config_memory {config : RuntimeConfig} (h : validate_config config = .ok ()) :
    0 < config.memory.max_warm_components ∧
      config.memory.max_warm_components ≤ config.memory.max_warmish_entries ∧
      0 < config.memory.max_warmish_bytes := by
  rw [validate_config, Exec.reject_eq_ok] at h
  simp only [Bool.or_eq_false_iff, beq_eq_false_iff_ne, decide_eq_false_iff_not] at h
  simp only [RuntimeConfig.memory]
  omega

/-! ## Calls

A run is any sequence of the five calls. -/

section Calls

variable {κ : Type}

/-- A call of `MemoryCache`. -/
inductive CacheCall (κ : Type) where
  | warm (digest : String)
  | warmish (digest : String)
  | insert_warm (digest : String) (value : PreparedComponent κ)
  | insert_warmish (digest : String) (value : PreparedAot)
  | demote (digest : String)

/-- What a call returns. -/
inductive Found (κ : Type) where
  | warm (value : Option (PreparedComponent κ))
  | warmish (value : Option PreparedAot)
  | nothing

/-- One call. -/
def CacheCall.run (usize_max : ℕ) : CacheCall κ → MemoryCache κ → Found κ × MemoryCache κ
  | .warm digest, m => (.warm (m.get_warm digest).1, (m.get_warm digest).2)
  | .warmish digest, m => (.warmish (m.get_warmish digest).1, (m.get_warmish digest).2)
  | .insert_warm digest value, m => (.nothing, m.insert_warm digest value)
  | .insert_warmish digest value, m => (.nothing, m.insert_warmish usize_max digest value)
  | .demote digest, m => (.nothing, m.demote digest)

/-- A run: what each call returned, and the cache after all of them. -/
def MemoryCache.runs (usize_max : ℕ) :
    List (CacheCall κ) → MemoryCache κ → List (Found κ) × MemoryCache κ
  | [], m => ([], m)
  | call :: rest, m =>
    let (found, m) := call.run usize_max m
    let (more, m) := MemoryCache.runs usize_max rest m
    (found :: more, m)

/-- The bytes of the artifacts in a map. -/
def Entries.bytes (entries : Entries PreparedAot) : ℕ :=
  (entries.entries.map fun e => e.2.value.bytes.length).sum

/-- The artifacts retained and the one that comes in are in memory at the same time. -/
def CacheCall.Fits (usize_max : ℕ) (m : MemoryCache κ) : CacheCall κ → Prop
  | .insert_warmish _ value => m.warmish.bytes + value.bytes.length ≤ usize_max
  | _ => True

instance (usize_max : ℕ) (m : MemoryCache κ) (call : CacheCall κ) :
    Decidable (call.Fits usize_max m) := by
  cases call <;> unfold CacheCall.Fits <;> infer_instance

/-- They are at every call of a run. -/
def FitsAlong (usize_max : ℕ) : MemoryCache κ → List (CacheCall κ) → Prop
  | _, [] => True
  | m, call :: rest => call.Fits usize_max m ∧ FitsAlong usize_max (call.run usize_max m).2 rest

instance (usize_max : ℕ) (m : MemoryCache κ) (calls : List (CacheCall κ)) :
    Decidable (FitsAlong usize_max m calls) := by
  induction calls generalizing m with
  | nil => exact isTrue trivial
  | cons call rest ih =>
    exact @instDecidableAnd _ _ inferInstance (ih (call.run usize_max m).2)

end Calls

/-! ## The byte count

The sum over the entries of a map, and what an insertion and a removal do to it. -/

variable {key : String} {entries : Entries PreparedAot}

theorem sum_kerase {f : (Σ _ : String, CacheEntry PreparedAot) → ℕ}
    {l : List (Σ _ : String, CacheEntry PreparedAot)} {entry : CacheEntry PreparedAot}
    (h : l.dlookup key = some entry) :
    ((l.kerase key).map f).sum + f ⟨key, entry⟩ = (l.map f).sum := by
  induction l with
  | nil => cases h
  | cons e l ih =>
    by_cases hkey : key = e.1
    · obtain ⟨k, v⟩ := e
      obtain rfl : key = k := hkey
      rw [List.dlookup_cons_eq] at h
      cases h
      have hrest : List.kerase key ((⟨key, entry⟩ : Σ _ : String, CacheEntry PreparedAot) :: l)
          = l := List.kerase_cons_eq rfl
      rw [hrest, List.map_cons, List.sum_cons]
      omega
    · obtain ⟨k, v⟩ := e
      rw [List.dlookup_cons_ne _ _ hkey] at h
      rw [List.kerase_cons_ne hkey, List.map_cons, List.map_cons, List.sum_cons, List.sum_cons]
      have hrest := ih h
      omega

namespace Entries

theorem bytes_erase {entries : Entries PreparedAot} {key : String}
    {entry : CacheEntry PreparedAot} (h : entries.lookup key = some entry) :
    bytes (entries.erase key) + entry.value.bytes.length = entries.bytes :=
  sum_kerase h

theorem bytes_erase_none {entries : Entries PreparedAot} {key : String}
    (h : entries.lookup key = none) : bytes (entries.erase key) = entries.bytes := by
  have hkey : key ∉ entries.entries.keys := AList.lookup_eq_none.mp h
  show ((entries.entries.kerase key).map _).sum = _
  rw [List.kerase_of_notMem_keys hkey]
  rfl

theorem bytes_of_keys_nil {entries : Entries PreparedAot} (h : entries.keys = []) :
    entries.bytes = 0 := by
  have hnil : entries.entries = [] := List.map_eq_nil_iff.mp h
  rw [bytes, hnil]
  rfl

/-- The new entry counts once, the old one no more. -/
theorem bytes_insert (entries : Entries PreparedAot) (key : String)
    (entry : CacheEntry PreparedAot) :
    bytes (entries.insert key entry) = entry.value.bytes.length + bytes (entries.erase key) := rfl

end Entries

/-! ## The same calls with arithmetic that refuses to saturate

Where an addition or a subtraction of the source saturates, its checked counterpart has no
answer. -/

/-- The loop of `insert_warmish` with `checked_sub`. -/
def evict_warmish_checked (max_warmish max_warmish_bytes : ℕ) :
    ℕ → Entries PreparedAot × ℕ → Option (Entries PreparedAot × ℕ)
  | 0, s => some s
  | fuel + 1, (entries, bytes) =>
    if entries.keys.length > max_warmish ∨ bytes > max_warmish_bytes then
      match least_recent entries with
      | none => some (entries, bytes)
      | some key =>
        match entries.lookup key with
        | some entry =>
          if entry.value.bytes.length ≤ bytes then
            evict_warmish_checked max_warmish max_warmish_bytes fuel
              (entries.erase key, bytes - entry.value.bytes.length)
          else none
        | none =>
          evict_warmish_checked max_warmish max_warmish_bytes fuel (entries.erase key, bytes)
    else some (entries, bytes)

/-- `a.checked_sub(b)`. -/
def checkedSub (a b : ℕ) : Option ℕ := if b ≤ a then some (a - b) else none

/-- What `insert_warmish` counts before it evicts, with `checked_sub` and `checked_add`. -/
def MemoryCache.warmish_bytes_checked {κ : Type} (usize_max : ℕ) (m : MemoryCache κ)
    (digest : String) (value : PreparedAot) : Option ℕ :=
  (match m.warmish.lookup digest with
    | some previous => checkedSub m.warmish_bytes previous.value.bytes.length
    | none => some m.warmish_bytes).bind
    fun warmish_bytes => Exec.checkedAdd usize_max warmish_bytes value.bytes.length

/-- `MemoryCache::insert_warmish` with checked operations in place of the saturating ones. -/
def MemoryCache.insert_warmish_checked {κ : Type} (usize_max : ℕ) (m : MemoryCache κ)
    (digest : String) (value : PreparedAot) : Option (MemoryCache κ) :=
  if value.bytes.length > m.max_warmish_bytes then some m
  else
    let warmish := m.warmish.insert digest ⟨value, m.tick.1⟩
    (m.warmish_bytes_checked usize_max digest value).bind fun warmish_bytes =>
      (evict_warmish_checked m.max_warmish m.max_warmish_bytes warmish.keys.length
        (warmish, warmish_bytes)).map fun s =>
          { m.tick.2 with warmish := s.1, warmish_bytes := s.2 }

/-- While the count is exact, nothing that is taken off it exceeds it. -/
theorem evict_warmish_checked_eq {max_warmish max_warmish_bytes fuel bytes : ℕ}
    (hbytes : bytes = entries.bytes) :
    evict_warmish_checked max_warmish max_warmish_bytes fuel (entries, bytes)
      = some (evict_warmish max_warmish max_warmish_bytes fuel (entries, bytes)) := by
  induction fuel generalizing entries bytes with
  | zero => rfl
  | succ fuel ih =>
    rw [evict_warmish_checked, evict_warmish]
    by_cases hover : entries.keys.length > max_warmish ∨ bytes > max_warmish_bytes
    · rw [if_pos hover, if_pos hover]
      cases hkey : least_recent entries with
      | none => rfl
      | some key =>
        dsimp only
        cases hentry : entries.lookup key with
        | none => exact ih (hbytes.trans (Entries.bytes_erase_none hentry).symm)
        | some entry =>
          have herase := Entries.bytes_erase hentry
          dsimp only
          rw [if_pos (by omega)]
          exact ih (by omega)
    · rw [if_neg hover, if_neg hover]

/-- Eviction never counts more than is there, and an exact count stays exact. -/
theorem evict_warmish_bytes (max_warmish max_warmish_bytes fuel : ℕ) {bytes : ℕ}
    (hle : bytes ≤ entries.bytes) :
    let s := evict_warmish max_warmish max_warmish_bytes fuel (entries, bytes)
    s.2 ≤ Entries.bytes s.1 ∧ (bytes = entries.bytes → s.2 = Entries.bytes s.1) := by
  induction fuel generalizing entries bytes with
  | zero => exact ⟨hle, id⟩
  | succ fuel ih =>
    rw [evict_warmish]
    by_cases hover : entries.keys.length > max_warmish ∨ bytes > max_warmish_bytes
    · rw [if_pos hover]
      cases hkey : least_recent entries with
      | none => exact ⟨hle, id⟩
      | some key =>
        dsimp only
        cases hentry : entries.lookup key with
        | none =>
          have herase := Entries.bytes_erase_none hentry
          obtain ⟨hle', heq'⟩ := ih (hle.trans_eq herase.symm)
          exact ⟨hle', fun h => heq' (h.trans herase.symm)⟩
        | some entry =>
          have herase := Entries.bytes_erase hentry
          -- The count is below the sum or equal to it, and stays so when both lose the entry.
          have hrest : bytes - entry.value.bytes.length
              ≤ Entries.bytes (entries.erase key) := by omega
          obtain ⟨hle', heq'⟩ := ih hrest
          exact ⟨hle', fun h => heq' (by omega)⟩
    · rw [if_neg hover]
      exact ⟨hle, id⟩

/-! ## The counters of every run

Whatever a run does, both maps and the byte total stay within the configuration (`Bounded`). While
the artifacts retained and the one that comes in fit in the address space, the total is the sum over
the artifacts retained (`Exact`), and with checked arithmetic every insertion would do the same. -/

/-- What holds of the counters whatever the calls. -/
structure MemoryCache.Bounded {κ : Type} (limits : MemoryLimits) (m : MemoryCache κ) : Prop where
  max_warm : m.max_warm = limits.max_warm_components
  max_warmish : m.max_warmish = limits.max_warmish_entries
  max_warmish_bytes : m.max_warmish_bytes = limits.max_warmish_bytes
  warm_le : m.warm.keys.length ≤ limits.max_warm_components
  warmish_le : m.warmish.keys.length ≤ limits.max_warmish_entries
  bytes_le : m.warmish_bytes ≤ limits.max_warmish_bytes
  bytes_le_sum : m.warmish_bytes ≤ m.warmish.bytes

/-- A key that is in the map is inserted again without a new entry. -/
theorem length_insert_of_lookup {α : Type} {entries : Entries α} {entry : CacheEntry α}
    (h : entries.lookup key = some entry) (entry' : CacheEntry α) :
    (entries.insert key entry').keys.length = entries.keys.length := by
  have hmem : key ∈ entries.keys := by
    rw [← AList.mem_keys, ← AList.lookup_isSome, h]
    rfl
  have hpos : 0 < entries.keys.length := List.length_pos_of_mem hmem
  rw [AList.keys_insert, List.length_cons, List.length_erase_of_mem hmem]
  omega

/-- A stamp does nothing to the bytes of a map. -/
theorem Entries.bytes_restamp {entry : CacheEntry PreparedAot}
    (h : entries.lookup key = some entry) (last_used : UInt64) :
    Entries.bytes (entries.insert key { entry with last_used }) = entries.bytes := by
  have herase := Entries.bytes_erase h
  rw [Entries.bytes_insert]
  dsimp only
  omega

namespace MemoryCache

variable {κ : Type} {limits : MemoryLimits} {m : MemoryCache κ}

theorem Bounded.new (limits : MemoryLimits) : (new limits : MemoryCache κ).Bounded limits where
  max_warm := rfl
  max_warmish := rfl
  max_warmish_bytes := rfl
  warm_le := Nat.zero_le _
  warmish_le := Nat.zero_le _
  bytes_le := Nat.zero_le _
  bytes_le_sum := Nat.zero_le _

theorem Bounded.get_warm (h : m.Bounded limits) (digest : String) :
    (m.get_warm digest).2.Bounded limits := by
  unfold MemoryCache.get_warm
  dsimp only
  cases hlookup : m.tick.2.warm.lookup digest with
  | none => exact { h with }
  | some entry =>
    exact { h with warm_le := (length_insert_of_lookup hlookup _).trans_le h.warm_le }

theorem Bounded.get_warmish (h : m.Bounded limits) (digest : String) :
    (m.get_warmish digest).2.Bounded limits := by
  unfold MemoryCache.get_warmish
  dsimp only
  cases hlookup : m.tick.2.warmish.lookup digest with
  | none => exact { h with }
  | some entry =>
    exact { h with
      warmish_le := (length_insert_of_lookup hlookup _).trans_le h.warmish_le
      bytes_le_sum := h.bytes_le_sum.trans_eq (Entries.bytes_restamp hlookup _).symm }

theorem Bounded.insert_warm (h : m.Bounded limits) (digest : String)
    (value : PreparedComponent κ) : (m.insert_warm digest value).Bounded limits :=
  { h with warm_le := (evict_warm_length (Nat.le_refl _)).trans_eq h.max_warm }

/-- The count that the eviction loop starts from. -/
def warmish_bytes_after (usize_max : ℕ) (m : MemoryCache κ) (digest : String)
    (value : PreparedAot) : ℕ :=
  min ((match m.warmish.lookup digest with
    | some previous => m.warmish_bytes - previous.value.bytes.length
    | none => m.warmish_bytes) + value.bytes.length) usize_max

theorem warmish_bytes_after_le (usize_max : ℕ) (hle : m.warmish_bytes ≤ m.warmish.bytes)
    (digest : String) (value : PreparedAot) (last_used : UInt64) :
    m.warmish_bytes_after usize_max digest value
      ≤ Entries.bytes (m.warmish.insert digest ⟨value, last_used⟩) := by
  rw [warmish_bytes_after, Entries.bytes_insert]
  cases hlookup : m.warmish.lookup digest with
  | none =>
    have herase := Entries.bytes_erase_none hlookup
    dsimp only
    omega
  | some previous =>
    have herase := Entries.bytes_erase hlookup
    have hrest : m.warmish_bytes - previous.value.bytes.length
        ≤ Entries.bytes (m.warmish.erase digest) := by omega
    dsimp only
    exact (Nat.min_le_left _ _).trans (by omega)

variable {usize_max : ℕ} {digest : String} {value : PreparedAot}

/-- The count is exact if what it counts fits. -/
theorem warmish_bytes_after_eq {last_used : UInt64} (heq : m.warmish_bytes = m.warmish.bytes)
    (hfits : Entries.bytes (m.warmish.insert digest ⟨value, last_used⟩) ≤ usize_max) :
    m.warmish_bytes_after usize_max digest value
      = Entries.bytes (m.warmish.insert digest ⟨value, last_used⟩) := by
  rw [Entries.bytes_insert] at hfits ⊢
  rw [warmish_bytes_after]
  cases hlookup : m.warmish.lookup digest with
  | none =>
    have herase := Entries.bytes_erase_none hlookup
    dsimp only at hfits ⊢
    omega
  | some previous =>
    have herase := Entries.bytes_erase hlookup
    have hrest : m.warmish_bytes - previous.value.bytes.length
        = Entries.bytes (m.warmish.erase digest) := by omega
    dsimp only at hfits ⊢
    rw [hrest, Nat.min_eq_left (by omega), Nat.add_comm]

/-- It is when the artifacts retained and the one that comes in fit. -/
theorem bytes_insert_le (hfits : m.warmish.bytes + value.bytes.length ≤ usize_max)
    (digest : String) (last_used : UInt64) :
    Entries.bytes (m.warmish.insert digest ⟨value, last_used⟩) ≤ usize_max := by
  rw [Entries.bytes_insert]
  cases hlookup : m.warmish.lookup digest with
  | none =>
    have herase := Entries.bytes_erase_none hlookup
    dsimp only
    omega
  | some previous =>
    have herase := Entries.bytes_erase hlookup
    dsimp only
    omega

/-- Neither operation before the loop saturates. -/
theorem warmish_bytes_checked_eq (hfits : m.warmish.bytes + value.bytes.length ≤ usize_max)
    (heq : m.warmish_bytes = m.warmish.bytes) (digest : String) :
    m.warmish_bytes_checked usize_max digest value
      = some (m.warmish_bytes_after usize_max digest value) := by
  rw [warmish_bytes_checked, warmish_bytes_after]
  cases hlookup : m.warmish.lookup digest with
  | none =>
    dsimp only [Option.bind_some]
    rw [Exec.checkedAdd, if_pos (by omega), Nat.min_eq_left (by omega)]
  | some previous =>
    have herase := Entries.bytes_erase hlookup
    have hrest : m.warmish_bytes - previous.value.bytes.length
        = Entries.bytes (m.warmish.erase digest) := by omega
    dsimp only
    rw [checkedSub, if_pos (by omega), Option.bind_some, hrest, Exec.checkedAdd,
      if_pos (by omega), Nat.min_eq_left (by omega)]

theorem insert_warmish_eq (h : value.bytes.length ≤ m.max_warmish_bytes) :
    m.insert_warmish usize_max digest value =
      let warmish := m.warmish.insert digest ⟨value, m.tick.1⟩
      let s := evict_warmish m.max_warmish m.max_warmish_bytes warmish.keys.length
        (warmish, m.warmish_bytes_after usize_max digest value)
      { m.tick.2 with warmish := s.1, warmish_bytes := s.2 } := by
  rw [insert_warmish, if_neg (Nat.not_lt.mpr h)]
  rfl

/-- An insertion into the warmish map leaves the warm map and reads the counter once. -/
theorem insert_warmish_frame (h : value.bytes.length ≤ m.max_warmish_bytes) :
    (m.insert_warmish usize_max digest value).warm = m.warm ∧
      (m.insert_warmish usize_max digest value).max_warm = m.max_warm ∧
      (m.insert_warmish usize_max digest value).tick.1 = m.tick.2.tick.1 := by
  rw [insert_warmish_eq h]
  exact ⟨rfl, rfl, rfl⟩

theorem get_warmish_found (m : MemoryCache κ) (digest : String) :
    (m.get_warmish digest).1 = (m.warmish.lookup digest).map CacheEntry.value := by
  have hlookup : m.tick.2.warmish.lookup digest = m.warmish.lookup digest := rfl
  unfold MemoryCache.get_warmish
  dsimp only
  rw [hlookup]
  cases m.warmish.lookup digest <;> rfl

theorem Bounded.insert_warmish (h : m.Bounded limits) (usize_max : ℕ) (digest : String)
    (value : PreparedAot) : (m.insert_warmish usize_max digest value).Bounded limits := by
  by_cases hlen : value.bytes.length ≤ m.max_warmish_bytes
  · rw [insert_warmish_eq hlen]
    have hstart := warmish_bytes_after_le usize_max h.bytes_le_sum digest value m.tick.1
    have hsum := (evict_warmish_bytes m.max_warmish m.max_warmish_bytes
      (m.warmish.insert digest ⟨value, m.tick.1⟩).keys.length hstart).1
    have hexit := @evict_warmish_exit m.max_warmish m.max_warmish_bytes _
      (m.warmish_bytes_after usize_max digest value) _
      (Nat.le_refl (m.warmish.insert digest ⟨value, m.tick.1⟩).keys.length)
    dsimp only at hsum hexit ⊢
    rcases hexit with ⟨hcount, hbytes⟩ | hnil
    · exact { h with
        warmish_le := hcount.trans_eq h.max_warmish
        bytes_le := hbytes.trans_eq h.max_warmish_bytes
        bytes_le_sum := hsum }
    · -- With nothing left there is nothing counted either.
      have hzero := Entries.bytes_of_keys_nil hnil
      exact { h with
        warmish_le := by rw [hnil]; exact Nat.zero_le _
        bytes_le := by dsimp only; omega
        bytes_le_sum := hsum }
  · rw [MemoryCache.insert_warmish, if_pos (Nat.not_le.mp hlen)]
    exact h

theorem Bounded.demote (h : m.Bounded limits) (digest : String) :
    (m.demote digest).Bounded limits :=
  { h with
    warm_le := by
      show (m.warm.erase digest).keys.length ≤ _
      rw [AList.keys_erase]
      exact (List.length_erase_le).trans h.warm_le }

/-- Every call keeps the bounds. -/
theorem Bounded.run (h : m.Bounded limits) (usize_max : ℕ) (call : CacheCall κ) :
    (call.run usize_max m).2.Bounded limits := by
  cases call with
  | warm digest => exact h.get_warm digest
  | warmish digest => exact h.get_warmish digest
  | insert_warm digest value => exact h.insert_warm digest value
  | insert_warmish digest value => exact h.insert_warmish usize_max digest value
  | demote digest => exact h.demote digest

/-- From any bounded cache. -/
theorem Bounded.runs (h : m.Bounded limits) (usize_max : ℕ) (calls : List (CacheCall κ)) :
    (runs usize_max calls m).2.Bounded limits := by
  induction calls generalizing m with
  | nil => exact h
  | cons call rest ih => exact ih (h.run usize_max call)

/-- The byte count is exact. -/
def Exact (m : MemoryCache κ) : Prop := m.warmish_bytes = m.warmish.bytes

theorem Exact.get_warmish (h : m.Exact) (digest : String) : (m.get_warmish digest).2.Exact := by
  unfold MemoryCache.get_warmish
  dsimp only
  cases hlookup : m.tick.2.warmish.lookup digest with
  | none => exact h
  | some entry => exact Eq.trans h (Entries.bytes_restamp hlookup _).symm

theorem Exact.get_warm (h : m.Exact) (digest : String) : (m.get_warm digest).2.Exact := by
  unfold MemoryCache.get_warm
  dsimp only
  cases m.tick.2.warm.lookup digest <;> exact h

theorem Exact.insert_warmish (h : m.Exact) {digest : String} {value : PreparedAot}
    (hfits : Entries.bytes (m.warmish.insert digest ⟨value, m.tick.1⟩) ≤ usize_max) :
    (m.insert_warmish usize_max digest value).Exact := by
  by_cases hlen : value.bytes.length ≤ m.max_warmish_bytes
  · have hstart := warmish_bytes_after_eq h hfits
    rw [insert_warmish_eq hlen]
    exact (evict_warmish_bytes _ _ _ hstart.le).2 hstart
  · rw [MemoryCache.insert_warmish, if_pos (Nat.not_le.mp hlen)]
    exact h

/-- Every call whose sum fits keeps it exact. -/
theorem Exact.run (h : m.Exact) {call : CacheCall κ} (hfits : call.Fits usize_max m) :
    (call.run usize_max m).2.Exact := by
  cases call with
  | warm digest => exact h.get_warm digest
  | warmish digest => exact h.get_warmish digest
  | insert_warm digest value => exact h
  | insert_warmish digest value => exact h.insert_warmish (bytes_insert_le hfits _ _)
  | demote digest => exact h

/-- From any cache whose count is exact. -/
theorem Exact.runs (h : m.Exact) {calls : List (CacheCall κ)}
    (hfits : FitsAlong usize_max m calls) : (runs usize_max calls m).2.Exact := by
  induction calls generalizing m with
  | nil => exact h
  | cons call rest ih => exact ih (h.run hfits.1) hfits.2

/-- On an exact count no operation of an insertion that fits saturates. -/
theorem Exact.insert_warmish_checked (h : m.Exact) {digest : String} {value : PreparedAot}
    (hfits : m.warmish.bytes + value.bytes.length ≤ usize_max) :
    m.insert_warmish_checked usize_max digest value
      = some (m.insert_warmish usize_max digest value) := by
  by_cases hlen : value.bytes.length ≤ m.max_warmish_bytes
  · have hstart := warmish_bytes_after_eq h (bytes_insert_le hfits digest m.tick.1)
    rw [insert_warmish_eq hlen, MemoryCache.insert_warmish_checked, if_neg (Nat.not_lt.mpr hlen)]
    dsimp only
    rw [warmish_bytes_checked_eq hfits h, Option.bind_some, evict_warmish_checked_eq hstart]
    rfl
  · rw [MemoryCache.insert_warmish, if_pos (Nat.not_le.mp hlen),
      MemoryCache.insert_warmish_checked, if_pos (Nat.not_le.mp hlen)]

end MemoryCache

/-- Whatever is called, both maps and the byte count stay within the configuration. While the
artifacts retained and the one that comes in fit in the address space, the count is the sum
over the artifacts retained, and an insertion does with checked arithmetic what it does with
saturating arithmetic. -/
theorem runs_accounted {κ : Type} (usize_max : ℕ) (config : RuntimeConfig)
    (calls : List (CacheCall κ)) :
    let m := (MemoryCache.runs usize_max calls (MemoryCache.new config.memory)).2
    m.warm.keys.length ≤ config.max_warm_components ∧
      m.warmish.keys.length ≤ config.max_warmish_entries ∧
      m.warmish_bytes ≤ config.max_warmish_bytes ∧
      (FitsAlong usize_max (MemoryCache.new config.memory) calls →
        m.warmish_bytes = m.warmish.bytes ∧
          ∀ digest value, m.warmish.bytes + value.bytes.length ≤ usize_max →
            m.insert_warmish_checked usize_max digest value
              = some (m.insert_warmish usize_max digest value)) := by
  have hbounded := (MemoryCache.Bounded.new config.memory).runs usize_max calls
  refine ⟨hbounded.warm_le, hbounded.warmish_le, hbounded.bytes_le, ?_⟩
  intro hfits
  have hexact : (MemoryCache.new config.memory : MemoryCache κ).Exact := rfl
  have hexact' := hexact.runs hfits
  refine ⟨hexact', ?_⟩
  intro digest value hnext
  exact hexact'.insert_warmish_checked hnext

/-- A replacement, an oversized artifact and an eviction for the sake of the byte bound. -/
theorem runs_accounted_replacement :
    let config : RuntimeConfig := ⟨1, 2, 4, 1, 1, 1⟩
    let calls : List (CacheCall Unit) :=
      [.insert_warmish "a" ⟨[1, 2], .Cli0_2⟩, .insert_warmish "a" ⟨[1], .Cli0_2⟩,
        .insert_warmish "b" ⟨[1, 2, 3, 4, 5], .Cli0_2⟩, .insert_warmish "c" ⟨[1, 2, 3, 4], .Cli0_2⟩]
    let m := (MemoryCache.runs (2 ^ 64 - 1) calls (MemoryCache.new config.memory)).2
    FitsAlong (2 ^ 64 - 1) (MemoryCache.new config.memory) calls ∧ m.warmish.keys = ["c"] ∧
      m.warmish_bytes = m.warmish.bytes := by
  refine ⟨by decide +kernel, by decide +kernel, ?_⟩
  exact ((runs_accounted (2 ^ 64 - 1) ⟨1, 2, 4, 1, 1, 1⟩ _).2.2.2 (by decide +kernel)).1

end WasmRuntime.Cache
