/-
The clock of the memory cache.

An operation reads a counter of 64 bits, once for each map that it looks into or enters something
in, and an entry is stamped with what was read. As long as the counter has not wrapped, no stamp is
ahead of it (`Clocked`). Once it has, the stamps start again from one, and an entry that is inserted
into a full map is then the oldest, and the one that is evicted. It takes 2^64 reads of the counter
to get there; `SingleFlight.lean` has a run that does.
-/
import WasmRuntime.MemoryCacheLru
import WasmRuntime.WarmCover

set_option autoImplicit false

namespace WasmRuntime.Cache

/-! ## Eviction takes entries away

The entry that has just been inserted is the youngest, and the eviction that follows passes it
over. -/

variable {α : Type} {entries : Entries α} {key : String} {entry : CacheEntry α}

theorem lookup_of_lookup_erase {key' : String} (h : (entries.erase key').lookup key = some entry) :
    entries.lookup key = some entry := by
  by_cases hkey : key = key'
  · subst hkey
    rw [AList.lookup_erase] at h
    cases h
  · rwa [AList.lookup_erase_ne hkey] at h

theorem lookup_of_lookup_evict_warm {max_warm fuel : ℕ}
    (h : (evict_warm max_warm fuel entries).lookup key = some entry) :
    entries.lookup key = some entry := by
  induction fuel generalizing entries with
  | zero => exact h
  | succ fuel ih =>
    rw [evict_warm] at h
    split at h
    · split at h
      · exact lookup_of_lookup_erase (ih h)
      · exact ih h
    · exact h

/-- In a map with another entry, the one with the latest stamp is not the least recent. -/
theorem least_recent_ne_latest (hkey : entries.lookup key = some entry)
    (hlatest : ∀ key' entry', entries.lookup key' = some entry' → key' ≠ key →
      entry'.last_used.toNat < entry.last_used.toNat)
    (hother : 1 < entries.keys.length) : least_recent entries ≠ some key := by
  intro hleast
  have hmem : key ∈ entries.keys := least_recent_mem hleast
  -- There is another key, since the map has more than one entry.
  obtain ⟨key', hkey'⟩ : ∃ key', key' ∈ (entries.erase key).keys := by
    have hlen := length_erase hmem
    exact List.exists_mem_of_length_pos (by omega)
  obtain ⟨hne, hmem'⟩ := AList.mem_erase.mp (AList.mem_keys.mpr hkey')
  obtain ⟨entry', hentry'⟩ := Option.isSome_iff_exists.mp (AList.lookup_isSome.mpr hmem')
  have hlt := hlatest key' entry' hentry' hne
  -- The minimum is at most the stamp of the other key.
  rw [least_recent, Option.map_eq_some_iff] at hleast
  obtain ⟨e, hmin, rfl⟩ := hleast
  have he : e.2 = entry := by
    have hin : e ∈ entries.entries := List.argmin_mem hmin
    have hlookup : entries.lookup e.1 = some e.2 := AList.mem_lookup_iff.mpr hin
    exact Option.some.inj (hlookup.symm.trans hkey)
  have hle := List.le_of_mem_argmin (AList.mem_lookup_iff.mp hentry') hmin
  rw [Prod.Lex.toLex_le_toLex, he] at hle
  dsimp only at hle
  omega

/-! ## Stamps and clock

`reads` is how often the operations call `tick`. It is exact: an artifact that is too large for
the warmish map is turned away before the counter is read, and a `tier` that finds the component
in the warm map does not look into the other. -/

/-- How often `insert_warmish` reads the counter. -/
def MemoryCache.insert_warmish_reads {κ : Type} (m : MemoryCache κ) (value : PreparedAot) : ℕ :=
  if value.bytes.length > m.max_warmish_bytes then 0 else 1

/-- How often an operation reads the counter. -/
def MemoryOp.reads {κ : Type} (m : MemoryCache κ) : MemoryOp κ → ℕ
  | .warm _ | .warmish _ | .insert_warm _ _ => 1
  | .insert _ aot _ => m.insert_warmish_reads aot + 1
  | .tier digest => if (m.get_warm digest.text).1.isSome then 1 else 2
  | .demote _ => 0

/-- How often a run reads it. -/
def MemoryOp.runs_reads {κ : Type} (usize_max : ℕ) : List (MemoryOp κ) → MemoryCache κ → ℕ
  | [], _ => 0
  | op :: rest, m => op.reads m + MemoryOp.runs_reads usize_max rest (op.run usize_max m).2

/-- The counter has been read `n` times, and no stamp is ahead of it. -/
structure MemoryCache.Clocked {κ : Type} (limits : MemoryLimits) (n : ℕ) (m : MemoryCache κ) :
    Prop where
  bounded : m.Bounded limits
  sequence : m.sequence.toNat = n
  stamps : ∀ key entry, m.warm.lookup key = some entry →
    entry.last_used.toNat ≤ m.sequence.toNat

namespace MemoryCache.Clocked

variable {κ : Type} {limits : MemoryLimits} {m : MemoryCache κ} {n : ℕ}

theorem new (limits : MemoryLimits) : (MemoryCache.new limits : MemoryCache κ).Clocked limits 0 :=
  ⟨.new limits, rfl, nofun⟩

/-- What a read of the counter gives, before it wraps. -/
theorem tick (h : m.Clocked limits n) (hn : n + 1 < 2 ^ 64) :
    m.tick.1.toNat = n + 1 ∧ m.tick.2.sequence.toNat = n + 1 := by
  have hseq := h.sequence
  obtain ⟨hstamp, hclock⟩ := MemoryCache.tick_toNat (m := m) (by omega)
  exact ⟨by omega, by omega⟩

/-- The old entries of the warm map are behind the clock also after it has been read. -/
theorem stamps_tick (h : m.Clocked limits n) (hn : n + 1 < 2 ^ 64) (key : String)
    (entry : CacheEntry (PreparedComponent κ)) (hlookup : m.warm.lookup key = some entry) :
    entry.last_used.toNat ≤ m.tick.2.sequence.toNat := by
  have hle := h.stamps key entry hlookup
  have hseq := h.sequence
  have hclock := (h.tick hn).2
  omega

/-- The entries of a map stamped by now, with one more that is stamped now. -/
theorem stamps_insert (h : m.Clocked limits n) (hn : n + 1 < 2 ^ 64) {key : String}
    {value : PreparedComponent κ} (key' : String) (entry : CacheEntry (PreparedComponent κ))
    (hlookup : (m.warm.insert key ⟨value, m.tick.1⟩).lookup key' = some entry) :
    entry.last_used.toNat ≤ m.tick.2.sequence.toNat := by
  by_cases hkey : key' = key
  · subst hkey
    rw [AList.lookup_insert] at hlookup
    cases hlookup
    obtain ⟨hstamp, hclock⟩ := h.tick hn
    dsimp only
    omega
  · rw [AList.lookup_insert_ne hkey] at hlookup
    exact h.stamps_tick hn key' entry hlookup

theorem get_warm (h : m.Clocked limits n) (hn : n + 1 < 2 ^ 64) (digest : String) :
    (m.get_warm digest).2.Clocked limits (n + 1) := by
  have hbounded := h.bounded.get_warm digest
  have hclock := (h.tick hn).2
  unfold MemoryCache.get_warm at hbounded ⊢
  dsimp only at hbounded ⊢
  cases hlookup : m.tick.2.warm.lookup digest with
  | none =>
    rw [hlookup] at hbounded
    exact ⟨hbounded, hclock, h.stamps_tick hn⟩
  | some found =>
    rw [hlookup] at hbounded
    exact ⟨hbounded, hclock, h.stamps_insert hn⟩

theorem get_warmish (h : m.Clocked limits n) (hn : n + 1 < 2 ^ 64) (digest : String) :
    (m.get_warmish digest).2.Clocked limits (n + 1) := by
  have hbounded := h.bounded.get_warmish digest
  have hclock := (h.tick hn).2
  unfold MemoryCache.get_warmish at hbounded ⊢
  dsimp only at hbounded ⊢
  cases hlookup : m.tick.2.warmish.lookup digest with
  | none =>
    rw [hlookup] at hbounded
    exact ⟨hbounded, hclock, h.stamps_tick hn⟩
  | some found =>
    rw [hlookup] at hbounded
    exact ⟨hbounded, hclock, h.stamps_tick hn⟩

theorem insert_warm (h : m.Clocked limits n) (hn : n + 1 < 2 ^ 64) (digest : String)
    (value : PreparedComponent κ) : (m.insert_warm digest value).Clocked limits (n + 1) := by
  refine ⟨h.bounded.insert_warm digest value, (h.tick hn).2, ?_⟩
  intro key entry hentry
  exact h.stamps_insert hn key entry (lookup_of_lookup_evict_warm hentry)

theorem insert_warmish (h : m.Clocked limits n) (usize_max : ℕ) (digest : String)
    (value : PreparedAot) (hn : n + m.insert_warmish_reads value < 2 ^ 64) :
    (m.insert_warmish usize_max digest value).Clocked limits
      (n + m.insert_warmish_reads value) := by
  have hbounded := h.bounded.insert_warmish usize_max digest value
  unfold MemoryCache.insert_warmish_reads at hn ⊢
  by_cases hlen : value.bytes.length ≤ m.max_warmish_bytes
  · rw [if_neg (Nat.not_lt.mpr hlen)] at hn ⊢
    rw [MemoryCache.insert_warmish_eq hlen] at hbounded ⊢
    exact ⟨hbounded, (h.tick hn).2, h.stamps_tick hn⟩
  · rw [if_pos (Nat.not_le.mp hlen), MemoryCache.insert_warmish, if_pos (Nat.not_le.mp hlen)]
    exact h

theorem demote (h : m.Clocked limits n) (digest : String) :
    (m.demote digest).Clocked limits n :=
  ⟨h.bounded.demote digest, h.sequence,
    fun key entry hentry => h.stamps key entry (lookup_of_lookup_erase hentry)⟩

theorem tier (h : m.Clocked limits n) (digest : String)
    (hn : n + (if (m.get_warm digest).1.isSome then 1 else 2) < 2 ^ 64) :
    (m.tier digest).2.Clocked limits (n + if (m.get_warm digest).1.isSome then 1 else 2) := by
  have hfirst := h.get_warm (by split at hn <;> omega) digest
  unfold MemoryCache.tier
  generalize m.get_warm digest = r at hfirst hn ⊢
  obtain ⟨found, m'⟩ := r
  cases found with
  | some prepared => exact hfirst
  | none =>
    have hsecond := hfirst.get_warmish hn digest
    dsimp only at hsecond ⊢
    generalize m'.get_warmish digest = r' at hsecond ⊢
    obtain ⟨found', m''⟩ := r'
    cases found' <;> exact hsecond

/-- An operation moves the counter on by what it reads. -/
theorem run (h : m.Clocked limits n) (usize_max : ℕ) (op : MemoryOp κ)
    (hn : n + op.reads m < 2 ^ 64) :
    (op.run usize_max m).2.Clocked limits (n + op.reads m) := by
  cases op with
  | warm digest => exact h.get_warm hn _
  | warmish digest => exact h.get_warmish hn _
  | insert_warm digest prepared => exact h.insert_warm hn _ _
  | insert digest aot prepared =>
    have hsum : n + m.insert_warmish_reads aot + 1 < 2 ^ 64 := hn
    exact (h.insert_warmish usize_max _ _ (by omega)).insert_warm hsum _ _
  | tier digest => exact h.tier _ hn
  | demote digest => exact h.demote _

/-- So does a run, as long as there is room. -/
theorem runs (usize_max : ℕ) (ops : List (MemoryOp κ)) (h : m.Clocked limits n)
    (hn : n + MemoryOp.runs_reads usize_max ops m < 2 ^ 64) :
    (MemoryOp.runs usize_max ops m).Clocked limits (n + MemoryOp.runs_reads usize_max ops m) := by
  induction ops generalizing m n with
  | nil => exact h
  | cons op rest ih =>
    rw [MemoryOp.runs_reads, ← Nat.add_assoc] at hn ⊢
    exact ih (h.run usize_max op (by omega)) hn

/-- What is inserted stays: the eviction that follows takes something older. -/
theorem mem_insert_warm_self (h : m.Clocked limits n) (hn : n + 1 < 2 ^ 64)
    (hroom : 0 < limits.max_warm_components) (digest : String) (value : PreparedComponent κ) :
    digest ∈ (m.insert_warm digest value).warm := by
  rw [MemoryCache.mem_insert_warm h.bounded]
  refine ⟨(AList.mem_insert _).mpr (.inl rfl), ?_⟩
  rw [victim]
  split
  · rename_i hover
    rw [h.bounded.max_warm] at hover
    refine least_recent_ne_latest (AList.lookup_insert _) ?_ (by omega)
    intro key entry hentry hne
    rw [AList.lookup_insert_ne hne] at hentry
    have hle := h.stamps key entry hentry
    have hseq := h.sequence
    have hstamp := (h.tick hn).1
    dsimp only
    omega
  · exact nofun

end MemoryCache.Clocked

end WasmRuntime.Cache
