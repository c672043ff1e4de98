/-
`MemoryCache` forgets what was used least recently.

The counter skips back to one after 2^64 calls, and the byte count is exact only while the artifacts
retained and the one that comes in can be counted in a `usize`. Both are stated.
-/
import WasmRuntime.MemoryCacheRuns
import WasmRuntime.Recency

set_option autoImplicit false

namespace WasmRuntime.Cache

open Recency

/-! ## The reference

Each tier is a line (`Recency`): nothing in it counts or compares. -/

/-- The bytes of the artifacts in a line. -/
def lineBytes (line : Line String PreparedAot) : ℕ := (line.map fun e => e.2.bytes.length).sum

/-- The bound of the warm tier. -/
def warmWithin {κ : Type} (limits : MemoryLimits) (line : Line String (PreparedComponent κ)) :
    Bool :=
  decide (line.length ≤ limits.max_warm_components)

/-- The two bounds of the warmish tier. -/
def warmishWithin (limits : MemoryLimits) (line : Line String PreparedAot) : Bool :=
  decide (line.length ≤ limits.max_warmish_entries ∧ lineBytes line ≤ limits.max_warmish_bytes)

/-- Two tiers, each a line. -/
structure LruCache (κ : Type) where
  warm : Line String (PreparedComponent κ)
  warmish : Line String PreparedAot

namespace LruCache

variable {κ : Type}

/-- A component becomes the most recently used, and the front of the line makes room. -/
def insert_warm (limits : MemoryLimits) (c : LruCache κ) (digest : String)
    (value : PreparedComponent κ) : LruCache κ :=
  { c with warm := trim (warmWithin limits) (put digest value c.warm) }

/-- The same for an artifact, unless it is larger than the whole tier may be. -/
def insert_warmish (limits : MemoryLimits) (c : LruCache κ) (digest : String)
    (value : PreparedAot) : LruCache κ :=
  if value.bytes.length > limits.max_warmish_bytes then c
  else { c with warmish := trim (warmishWithin limits) (put digest value c.warmish) }

/-- One call of the reference. -/
def call (limits : MemoryLimits) : CacheCall κ → LruCache κ → Found κ × LruCache κ
  | .warm digest, c =>
    (.warm (use digest c.warm).1, { c with warm := (use digest c.warm).2 })
  | .warmish digest, c =>
    (.warmish (use digest c.warmish).1, { c with warmish := (use digest c.warmish).2 })
  | .insert_warm digest value, c => (.nothing, c.insert_warm limits digest value)
  | .insert_warmish digest value, c => (.nothing, c.insert_warmish limits digest value)
  | .demote digest, c => (.nothing, { c with warm := remove digest c.warm })

/-- A run of the reference. -/
def runs (limits : MemoryLimits) : List (CacheCall κ) → LruCache κ → List (Found κ) × LruCache κ
  | [], c => ([], c)
  | next :: rest, c =>
    let (found, c) := c.call limits next
    let (more, c) := runs limits rest c
    (found :: more, c)

end LruCache

/-! ## Entries in the order of their stamps

The cache keeps a hash map and stamps its entries with a counter that both tiers share. A stamp is
the number of the call that gave it: every stamp in a map is at most the counter (`Ranks.le_clock`),
the next one is larger than all of them, and so no two entries of a map ever share one. -/

section Ranks

variable {α : Type}

/-- An entry of a map with its key. -/
abbrev Keyed (α : Type) := Σ _ : String, CacheEntry α

/-- The number of the call that gave an entry its stamp. -/
def Keyed.stamp (e : Keyed α) : ℕ := e.2.last_used.toNat

/-- What the reference keeps of an entry. -/
def Keyed.unstamped (e : Keyed α) : String × α := (e.1, e.2.value)

/-- `ranks` are the entries of a map in the order of their stamps, none ahead of the clock. -/
structure Ranks (clock : ℕ) (entries : Entries α) (ranks : List (Keyed α)) : Prop where
  perm : entries.entries.Perm ranks
  increasing : ranks.Pairwise fun e e' => e.stamp < e'.stamp
  le_clock : ∀ e ∈ ranks, e.stamp ≤ clock

/-- The entries of a map in the order of their stamps are a line. -/
def Represents (clock : ℕ) (entries : Entries α) (line : Line String α) : Prop :=
  ∃ ranks, Ranks clock entries ranks ∧ ranks.map Keyed.unstamped = line

theorem find_unstamped (key : String) (ranks : List (Keyed α)) :
    find key (ranks.map Keyed.unstamped) = (ranks.dlookup key).map CacheEntry.value := by
  induction ranks with
  | nil => rfl
  | cons e ranks ih =>
    obtain ⟨k, entry⟩ := e
    by_cases hkey : key = k
    · subst hkey
      rw [List.dlookup_cons_eq]
      simp [find, Keyed.unstamped]
    · rw [List.dlookup_cons_ne _ _ hkey, ← ih]
      simp [find, Keyed.unstamped, Ne.symm hkey]

theorem remove_unstamped (key : String) {ranks : List (Keyed α)} (h : ranks.NodupKeys) :
    remove key (ranks.map Keyed.unstamped) = (ranks.kerase key).map Keyed.unstamped := by
  induction ranks with
  | nil => rfl
  | cons e ranks ih =>
    obtain ⟨k, entry⟩ := e
    rw [List.nodupKeys_cons] at h
    have hrest := ih h.2
    by_cases hkey : key = k
    · -- The keys are distinct, so that the rest of the line is kept as it is.
      subst hkey
      have herase : List.kerase key ((⟨key, entry⟩ : Keyed α) :: ranks) = ranks :=
        List.kerase_cons_eq rfl
      rw [List.kerase_of_notMem_keys h.1] at hrest
      rw [herase, ← hrest]
      simp [remove, Keyed.unstamped]
    · rw [List.kerase_cons_ne hkey, List.map_cons, List.map_cons, ← hrest]
      simp [remove, Keyed.unstamped, Ne.symm hkey]

variable {clock : ℕ} {entries : Entries α} {ranks : List (Keyed α)} {line : Line String α}

theorem Ranks.nodupKeys (h : Ranks clock entries ranks) : ranks.NodupKeys :=
  (List.perm_nodupKeys h.perm).mp entries.nodupKeys

theorem Ranks.erase (h : Ranks clock entries ranks) (key : String) :
    Ranks clock (entries.erase key) (ranks.kerase key) where
  perm := h.perm.kerase entries.nodupKeys
  increasing := h.increasing.sublist (List.kerase_sublist key ranks)
  le_clock e he := h.le_clock e ((List.kerase_sublist key ranks).subset he)

/-- An entry stamped after the clock comes last. -/
theorem Ranks.insert (h : Ranks clock entries ranks) (key : String) (value : α)
    {last_used : UInt64} (hlater : clock < last_used.toNat) :
    Ranks last_used.toNat (entries.insert key ⟨value, last_used⟩)
      (ranks.kerase key ++ [⟨key, value, last_used⟩]) where
  perm := by
    have hcons : ((⟨key, value, last_used⟩ : Keyed α) :: entries.entries.kerase key).Perm
        (⟨key, value, last_used⟩ :: ranks.kerase key) := (h.erase key).perm.cons _
    exact hcons.trans (List.perm_append_singleton _ _).symm
  increasing := by
    rw [List.pairwise_append]
    refine ⟨(h.erase key).increasing, List.pairwise_singleton _ _, ?_⟩
    intro e he e' he'
    rw [List.mem_singleton] at he'
    subst he'
    exact ((h.erase key).le_clock e he).trans_lt hlater
  le_clock e he := by
    rw [List.mem_append, List.mem_singleton] at he
    rcases he with he | rfl
    · exact (((h.erase key).le_clock e he).trans_lt hlater).le
    · exact Nat.le_refl _

/-- The smallest stamp is that of the first entry. -/
theorem Ranks.least_recent {e : Keyed α} (h : Ranks clock entries (e :: ranks)) :
    least_recent entries = some e.1 := by
  rw [Cache.least_recent]
  cases hmin : entries.entries.argmin fun e => toLex (e.2.last_used.toNat, e.1) with
  | none =>
    rw [List.argmin_eq_none] at hmin
    have hlength := h.perm.length_eq
    rw [hmin] at hlength
    cases hlength
  | some e' =>
    have hmem : e' ∈ e :: ranks := h.perm.mem_iff.mp (List.argmin_mem hmin)
    have hle := List.le_of_mem_argmin (h.perm.mem_iff.mpr List.mem_cons_self) hmin
    rcases List.mem_cons.mp hmem with rfl | hrest
    · rfl
    · have hlt : Keyed.stamp e < Keyed.stamp e' := (List.pairwise_cons.mp h.increasing).1 e' hrest
      rw [Prod.Lex.toLex_le_toLex] at hle
      simp only [Keyed.stamp] at hlt
      omega

end Ranks

/-! ## What a line says about a map

The entries in the order of their stamps are the line of the reference, and `least_recent` finds its
front. -/

namespace Represents

variable {α : Type} {clock : ℕ} {entries : Entries α} {line : Line String α}

theorem empty (clock : ℕ) : Represents clock (∅ : Entries α) [] :=
  ⟨[], ⟨List.Perm.refl [], List.Pairwise.nil, nofun⟩, rfl⟩

theorem mono (h : Represents clock entries line) {clock' : ℕ} (hle : clock ≤ clock') :
    Represents clock' entries line := by
  obtain ⟨ranks, hranks, hline⟩ := h
  exact ⟨ranks, ⟨hranks.perm, hranks.increasing, fun e he => (hranks.le_clock e he).trans hle⟩,
    hline⟩

theorem length (h : Represents clock entries line) : entries.keys.length = line.length := by
  obtain ⟨ranks, hranks, rfl⟩ := h
  rw [AList.keys, List.keys, List.length_map, List.length_map, hranks.perm.length_eq]

/-- A lookup in the map is one in the line. -/
theorem lookup (h : Represents clock entries line) (key : String) :
    (entries.lookup key).map CacheEntry.value = find key line := by
  obtain ⟨ranks, hranks, rfl⟩ := h
  rw [find_unstamped, AList.lookup, List.perm_dlookup key entries.nodupKeys hranks.perm]

theorem erase (h : Represents clock entries line) (key : String) :
    Represents clock (entries.erase key) (remove key line) := by
  obtain ⟨ranks, hranks, rfl⟩ := h
  exact ⟨_, hranks.erase key, (remove_unstamped key hranks.nodupKeys).symm⟩

/-- A later stamp is the end of the line. -/
theorem insert (h : Represents clock entries line) (key : String) (value : α)
    {last_used : UInt64} (hlater : clock < last_used.toNat) :
    Represents last_used.toNat (entries.insert key ⟨value, last_used⟩) (put key value line) := by
  obtain ⟨ranks, hranks, rfl⟩ := h
  refine ⟨_, hranks.insert key value hlater, ?_⟩
  rw [put, remove_unstamped key hranks.nodupKeys, List.map_append]
  rfl

/-- `least_recent` finds the front of the line, and without it the rest is left. -/
theorem front {e : String × α} {rest : Line String α} (h : Represents clock entries (e :: rest)) :
    least_recent entries = some e.1 ∧ Represents clock (entries.erase e.1) rest ∧
      (entries.lookup e.1).map CacheEntry.value = some e.2 := by
  have hlookup := h.lookup e.1
  obtain ⟨ranks, hranks, hline⟩ := h
  cases ranks with
  | nil => cases hline
  | cons e' ranks =>
    rw [List.map_cons, List.cons.injEq] at hline
    obtain ⟨rfl, rfl⟩ := hline
    refine ⟨hranks.least_recent, ⟨ranks, ?_, rfl⟩, ?_⟩
    · have herase := hranks.erase e'.1
      rwa [List.kerase_cons_eq rfl] at herase
    · rw [hlookup]
      simp [find]

/-- Their sizes agree. -/
theorem bytes {entries : Entries PreparedAot} {line : Line String PreparedAot}
    (h : Represents clock entries line) : entries.bytes = lineBytes line := by
  obtain ⟨ranks, hranks, rfl⟩ := h
  rw [lineBytes, List.map_map]
  exact (hranks.perm.map _).sum_nat

/-- The loop of `insert_warm` takes the front of the line until the rest is within the bound. -/
theorem evict_warm (h : Represents clock entries line) (max_warm : ℕ) {fuel : ℕ}
    (hfuel : line.length ≤ fuel) :
    Represents clock (evict_warm max_warm fuel entries)
      (trim (fun l => decide (l.length ≤ max_warm)) line) := by
  induction fuel generalizing entries line with
  | zero =>
    have hnil : line = [] := List.length_eq_zero_iff.mp (Nat.le_zero.mp hfuel)
    subst hnil
    exact h
  | succ fuel ih =>
    rw [Cache.evict_warm]
    by_cases hover : entries.keys.length > max_warm
    · rw [if_pos hover]
      rw [h.length] at hover
      cases line with
      | nil => exact absurd hover (Nat.not_lt_zero _)
      | cons e rest =>
        -- The least recent entry is the front of the line.
        obtain ⟨hleast, hrest, -⟩ := h.front
        rw [hleast, trim_of_not_within (decide_eq_false (Nat.not_le.mpr hover))]
        exact ih hrest (Nat.le_of_succ_le_succ hfuel)
    · rw [if_neg hover]
      rw [h.length] at hover
      rw [trim_of_within (decide_eq_true (Nat.not_lt.mp hover))]
      exact h

/-- The loop of `insert_warmish` does so for both bounds, on an exact count. -/
theorem evict_warmish {entries : Entries PreparedAot} {line : Line String PreparedAot}
    (h : Represents clock entries line) (limits : MemoryLimits) {fuel bytes : ℕ}
    (hfuel : line.length ≤ fuel) (hbytes : bytes = lineBytes line) :
    Represents clock (evict_warmish limits.max_warmish_entries limits.max_warmish_bytes fuel
      (entries, bytes)).1 (trim (warmishWithin limits) line) := by
  induction fuel generalizing entries line bytes with
  | zero =>
    have hnil : line = [] := List.length_eq_zero_iff.mp (Nat.le_zero.mp hfuel)
    subst hnil
    exact h
  | succ fuel ih =>
    rw [Cache.evict_warmish, h.length]
    by_cases hover : line.length > limits.max_warmish_entries ∨ bytes > limits.max_warmish_bytes
    · rw [if_pos hover]
      cases line with
      | nil =>
        -- An empty line counts nothing and is within both bounds.
        have hzero : bytes = 0 := hbytes
        rw [hzero, List.length_nil] at hover
        omega
      | cons e rest =>
        obtain ⟨hleast, hrest, hvalue⟩ := h.front
        obtain ⟨entry, hentry, hentry_value⟩ := Option.map_eq_some_iff.mp hvalue
        have hsum : bytes = entry.value.bytes.length + lineBytes rest := by
          rw [hentry_value]
          exact hbytes
        have hnot : warmishWithin limits (e :: rest) = false :=
          decide_eq_false (by omega)
        rw [hleast, trim_of_not_within hnot]
        dsimp only
        rw [hentry]
        exact ih hrest (Nat.le_of_succ_le_succ hfuel) (by omega)
    · rw [if_neg hover]
      have hin : warmishWithin limits line = true := decide_eq_true (by omega)
      rw [trim_of_within hin]
      exact h

end Represents

/-! ## Enough rounds are enough

A loop that starts with one entry more has one round more to go. -/

/-- One more round than there are entries changes nothing for `insert_warm`. -/
theorem evict_warm_succ {α : Type} (max_warm : ℕ) {fuel : ℕ} {entries : Entries α}
    (hfuel : entries.keys.length ≤ fuel) :
    evict_warm max_warm (fuel + 1) entries = evict_warm max_warm fuel entries := by
  induction fuel generalizing entries with
  | zero => rw [evict_warm, evict_warm, if_neg (by omega)]
  | succ fuel ih =>
    rw [evict_warm, evict_warm]
    by_cases hover : entries.keys.length > max_warm
    · rw [if_pos hover, if_pos hover]
      cases hkey : least_recent entries with
      | none => rfl
      | some key =>
        have hlen := length_erase (least_recent_mem hkey)
        exact ih (by omega)
    · rw [if_neg hover, if_neg hover]

/-- It changes nothing for `insert_warmish`. -/
theorem evict_warmish_succ (max_warmish max_warmish_bytes : ℕ) {fuel bytes : ℕ}
    {entries : Entries PreparedAot} (hfuel : entries.keys.length ≤ fuel) :
    evict_warmish max_warmish max_warmish_bytes (fuel + 1) (entries, bytes)
      = evict_warmish max_warmish max_warmish_bytes fuel (entries, bytes) := by
  induction fuel generalizing entries bytes with
  | zero =>
    -- There is nothing to evict, whether or not the count is over its bound.
    have hnil : entries.entries = [] :=
      List.map_eq_nil_iff.mp (List.length_eq_zero_iff.mp (Nat.le_zero.mp hfuel))
    have hleast : least_recent entries = none := by
      rw [least_recent, hnil]
      rfl
    rw [evict_warmish, evict_warmish, hleast]
    exact ite_self _
  | succ fuel ih =>
    rw [evict_warmish, evict_warmish]
    by_cases hover : entries.keys.length > max_warmish ∨ bytes > max_warmish_bytes
    · rw [if_pos hover, if_pos hover]
      cases hkey : least_recent entries with
      | none => rfl
      | some key =>
        have hlen := length_erase (least_recent_mem hkey)
        dsimp only
        cases entries.lookup key with
        | none => exact ih (by omega)
        | some entry => exact ih (by omega)
    · rw [if_neg hover, if_neg hover]

/-! ## Refinement

One lemma for each call, and `runs` for all of them. -/

/-- Reading the counter once more: until it wraps, the next stamp is after all others. -/
theorem MemoryCache.tick_toNat {κ : Type} {m : MemoryCache κ}
    (h : m.sequence.toNat + 1 < 2 ^ 64) :
    m.tick.1.toNat = m.sequence.toNat + 1 ∧ m.tick.2.sequence.toNat = m.sequence.toNat + 1 := by
  have hadd : (m.sequence + 1).toNat = m.sequence.toNat + 1 := by
    rw [UInt64.toNat_add]
    exact Nat.mod_eq_of_lt h
  have hne : m.sequence + 1 ≠ 0 := by
    intro hzero
    rw [hzero] at hadd
    cases hadd
  unfold MemoryCache.tick
  rw [if_neg hne]
  exact ⟨hadd, hadd⟩

/-- After `n` calls the two maps represent the two lines. -/
structure MemoryCache.Refines {κ : Type} (limits : MemoryLimits) (n : ℕ) (m : MemoryCache κ)
    (c : LruCache κ) : Prop where
  max_warm : m.max_warm = limits.max_warm_components
  max_warmish : m.max_warmish = limits.max_warmish_entries
  max_warmish_bytes : m.max_warmish_bytes = limits.max_warmish_bytes
  exact : m.Exact
  sequence : m.sequence.toNat ≤ n
  warm : Represents m.sequence.toNat m.warm c.warm
  warmish : Represents m.sequence.toNat m.warmish c.warmish

namespace MemoryCache.Refines

variable {κ : Type} {limits : MemoryLimits} {n usize_max : ℕ} {m : MemoryCache κ}
  {c : LruCache κ}

theorem new (limits : MemoryLimits) :
    (MemoryCache.new limits : MemoryCache κ).Refines limits 0 ⟨[], []⟩ where
  max_warm := rfl
  max_warmish := rfl
  max_warmish_bytes := rfl
  exact := rfl
  sequence := Nat.le_refl 0
  warm := Represents.empty _
  warmish := Represents.empty _

/-- A call that only reads the counter, which is what a miss does. -/
theorem tick (h : m.Refines limits n c) (hn : n + 1 < 2 ^ 64) :
    m.tick.2.Refines limits (n + 1) c := by
  have hclock := (tick_toNat (Nat.lt_of_le_of_lt (Nat.succ_le_succ h.sequence) hn)).2
  have hle : m.sequence.toNat ≤ m.tick.2.sequence.toNat := by omega
  exact { h with
    sequence := hclock.trans_le (Nat.succ_le_succ h.sequence)
    warm := h.warm.mono hle
    warmish := h.warmish.mono hle }

/-- An entry stamped by this call comes last in its line. -/
theorem stamp {α : Type} {entries : Entries α} {line : Line String α}
    (h : m.Refines limits n c) (hn : n + 1 < 2 ^ 64)
    (hline : Represents m.sequence.toNat entries line) (key : String) (value : α) :
    Represents m.tick.2.sequence.toNat (entries.insert key ⟨value, m.tick.1⟩)
      (put key value line) := by
  obtain ⟨hstamp, hclock⟩ := tick_toNat (Nat.lt_of_le_of_lt (Nat.succ_le_succ h.sequence) hn)
  have hlater : m.sequence.toNat < m.tick.1.toNat := by omega
  exact (hline.insert key value hlater).mono (by omega)

/-- A warm lookup uses the entry. -/
theorem get_warm (h : m.Refines limits n c) (hn : n + 1 < 2 ^ 64) (digest : String) :
    (m.get_warm digest).1 = (use digest c.warm).1 ∧
      (m.get_warm digest).2.Refines limits (n + 1) { c with warm := (use digest c.warm).2 } := by
  have hfind : (m.tick.2.warm.lookup digest).map CacheEntry.value = find digest c.warm :=
    h.warm.lookup digest
  have htick := h.tick hn
  unfold MemoryCache.get_warm use
  rw [← hfind]
  dsimp only
  cases m.tick.2.warm.lookup digest with
  | none => exact ⟨rfl, htick⟩
  | some entry =>
    refine ⟨rfl, ?_⟩
    exact { htick with warm := h.stamp hn h.warm digest entry.value }

theorem get_warmish (h : m.Refines limits n c) (hn : n + 1 < 2 ^ 64) (digest : String) :
    (m.get_warmish digest).1 = (use digest c.warmish).1 ∧
      (m.get_warmish digest).2.Refines limits (n + 1)
        { c with warmish := (use digest c.warmish).2 } := by
  have hfind : (m.tick.2.warmish.lookup digest).map CacheEntry.value = find digest c.warmish :=
    h.warmish.lookup digest
  have htick := h.tick hn
  have hexact := h.exact.get_warmish digest
  unfold MemoryCache.get_warmish use at *
  rw [← hfind]
  dsimp only at hexact ⊢
  cases hlookup : m.tick.2.warmish.lookup digest with
  | none => exact ⟨rfl, htick⟩
  | some entry =>
    rw [hlookup] at hexact
    refine ⟨rfl, ?_⟩
    exact { htick with
      exact := hexact
      warmish := h.stamp hn h.warmish digest entry.value }

theorem insert_warm (h : m.Refines limits n c) (hn : n + 1 < 2 ^ 64) (digest : String)
    (value : PreparedComponent κ) :
    (m.insert_warm digest value).Refines limits (n + 1) (c.insert_warm limits digest value) := by
  have htick := h.tick hn
  have hput := h.stamp hn h.warm digest value
  have hwarm : Represents m.tick.2.sequence.toNat (m.insert_warm digest value).warm
      (c.insert_warm limits digest value).warm := by
    show Represents _ (evict_warm m.max_warm _ _) _
    rw [h.max_warm]
    exact hput.evict_warm _ hput.length.ge
  exact { htick with warm := hwarm }

theorem insert_warmish (h : m.Refines limits n c) (hn : n + 1 < 2 ^ 64) {digest : String}
    {value : PreparedAot}
    (hfits : Entries.bytes (m.warmish.insert digest ⟨value, m.tick.1⟩) ≤ usize_max) :
    (m.insert_warmish usize_max digest value).Refines limits (n + 1)
      (c.insert_warmish limits digest value) := by
  unfold LruCache.insert_warmish
  rw [← h.max_warmish_bytes]
  by_cases hlen : value.bytes.length ≤ m.max_warmish_bytes
  · have htick := h.tick hn
    have hput := h.stamp hn h.warmish digest value
    have hexact := h.exact.insert_warmish hfits
    have hbytes := (warmish_bytes_after_eq h.exact hfits).trans hput.bytes
    rw [insert_warmish_eq hlen] at hexact ⊢
    rw [if_neg (Nat.not_lt.mpr hlen)]
    refine { htick with exact := hexact, warmish := ?_ }
    show Represents _ (evict_warmish m.max_warmish m.max_warmish_bytes _ _).1 _
    rw [h.max_warmish, h.max_warmish_bytes]
    exact hput.evict_warmish limits hput.length.ge hbytes
  · rw [MemoryCache.insert_warmish, if_pos (Nat.not_le.mp hlen), if_pos (Nat.not_le.mp hlen)]
    exact { h with sequence := h.sequence.trans (Nat.le_succ n) }

theorem demote (h : m.Refines limits n c) (digest : String) :
    (m.demote digest).Refines limits (n + 1) { c with warm := remove digest c.warm } :=
  { h with
    sequence := h.sequence.trans (Nat.le_succ n)
    warm := h.warm.erase digest }

/-- One call of the cache is one call of the reference. -/
theorem run (h : m.Refines limits n c) (hn : n + 1 < 2 ^ 64) {call : CacheCall κ}
    (hfits : call.Fits usize_max m) :
    (call.run usize_max m).1 = (c.call limits call).1 ∧
      (call.run usize_max m).2.Refines limits (n + 1) (c.call limits call).2 := by
  cases call with
  | warm digest =>
    obtain ⟨hfound, hnext⟩ := h.get_warm hn digest
    exact ⟨congrArg Found.warm hfound, hnext⟩
  | warmish digest =>
    obtain ⟨hfound, hnext⟩ := h.get_warmish hn digest
    exact ⟨congrArg Found.warmish hfound, hnext⟩
  | insert_warm digest value => exact ⟨rfl, h.insert_warm hn digest value⟩
  | insert_warmish digest value => exact ⟨rfl, h.insert_warmish hn (bytes_insert_le hfits _ _)⟩
  | demote digest => exact ⟨rfl, h.demote digest⟩

/-- A run of the cache is a run of the reference, until the counter wraps. -/
theorem runs {calls : List (CacheCall κ)} (h : m.Refines limits n c)
    (hn : n + calls.length < 2 ^ 64) (hfits : FitsAlong usize_max m calls) :
    (MemoryCache.runs usize_max calls m).1 = (c.runs limits calls).1 ∧
      (MemoryCache.runs usize_max calls m).2.Refines limits (n + calls.length)
        (c.runs limits calls).2 := by
  induction calls generalizing n m c with
  | nil => exact ⟨rfl, h⟩
  | cons call rest ih =>
    rw [List.length_cons] at hn ⊢
    obtain ⟨hfound, hnext⟩ := h.run (by omega) hfits.1
    obtain ⟨hmore, hlast⟩ := ih hnext (by omega) hfits.2
    rw [Nat.add_right_comm] at hlast
    refine ⟨?_, hlast⟩
    exact congrArg₂ List.cons hfound hmore

end MemoryCache.Refines

/-! ## Insertions of the reference

What an insertion evicts, for lines that are full. -/

/-- It evicts the oldest, no more than it must. -/
theorem LruCache.insert_warm_evicts {κ : Type} {limits : MemoryLimits}
    (hpos : 0 < limits.max_warm_components) (c : LruCache κ) (digest : String)
    (value : PreparedComponent κ) :
    Evicts (warmWithin limits) (put digest value c.warm) (c.insert_warm limits digest value).warm ∧
      ∃ older, (c.insert_warm limits digest value).warm = older ++ [(digest, value)] :=
  ⟨trim_evicts (decide_eq_true (Nat.zero_le _)) _, trim_concat (decide_eq_true hpos) _⟩

theorem LruCache.insert_warmish_evicts {κ : Type} {limits : MemoryLimits}
    (hpos : 0 < limits.max_warmish_entries) (c : LruCache κ) (digest : String)
    {value : PreparedAot} (hlen : value.bytes.length ≤ limits.max_warmish_bytes) :
    Evicts (warmishWithin limits) (put digest value c.warmish)
        (c.insert_warmish limits digest value).warmish ∧
      ∃ older, (c.insert_warmish limits digest value).warmish = older ++ [(digest, value)] := by
  rw [LruCache.insert_warmish, if_neg (Nat.not_lt.mpr hlen)]
  have hnil : warmishWithin limits [] = true :=
    decide_eq_true ⟨Nat.zero_le _, Nat.zero_le _⟩
  have hlast : warmishWithin limits [(digest, value)] = true := decide_eq_true ⟨hpos, hlen⟩
  exact ⟨trim_evicts hnil _, trim_concat hlast _⟩

/-- Every lookup finds what the reference finds, and the entries in the order of their stamps
are its lines. An insertion takes the shortest part off the front that restores the bounds and
keeps what it inserted. The loops leave by their own condition: another round changes nothing. -/
theorem memory_cache_is_lru {κ : Type} {usize_max : ℕ} {config : RuntimeConfig}
    (hvalid : validate_config config = .ok ()) {calls : List (CacheCall κ)}
    (hlen : calls.length < 2 ^ 64)
    (hfits : FitsAlong usize_max (MemoryCache.new config.memory) calls) :
    let limits := config.memory
    let r := MemoryCache.runs usize_max calls (MemoryCache.new limits)
    let ref := LruCache.runs limits calls ⟨[], []⟩
    r.1 = ref.1 ∧
      Represents r.2.sequence.toNat r.2.warm ref.2.warm ∧
      Represents r.2.sequence.toNat r.2.warmish ref.2.warmish ∧
      (∀ digest, (r.2.warm.lookup digest).map CacheEntry.value = find digest ref.2.warm) ∧
      (∀ digest, (r.2.warmish.lookup digest).map CacheEntry.value = find digest ref.2.warmish) ∧
      (∀ digest value,
        Evicts (warmWithin limits) (put digest value ref.2.warm)
            (ref.2.insert_warm limits digest value).warm ∧
          ∃ older, (ref.2.insert_warm limits digest value).warm = older ++ [(digest, value)]) ∧
      (∀ digest value, value.bytes.length ≤ limits.max_warmish_bytes →
        Evicts (warmishWithin limits) (put digest value ref.2.warmish)
            (ref.2.insert_warmish limits digest value).warmish ∧
          ∃ older, (ref.2.insert_warmish limits digest value).warmish
            = older ++ [(digest, value)]) ∧
      (∀ (entries : Entries (PreparedComponent κ)) (fuel : ℕ), entries.keys.length ≤ fuel →
        evict_warm limits.max_warm_components (fuel + 1) entries
          = evict_warm limits.max_warm_components fuel entries) ∧
      ∀ (entries : Entries PreparedAot) (bytes fuel : ℕ), entries.keys.length ≤ fuel →
        evict_warmish limits.max_warmish_entries limits.max_warmish_bytes (fuel + 1)
            (entries, bytes)
          = evict_warmish limits.max_warmish_entries limits.max_warmish_bytes fuel
            (entries, bytes) := by
  obtain ⟨hwarm, hcover, -⟩ := validate_config_memory hvalid
  obtain ⟨hfound, hrefines⟩ := (MemoryCache.Refines.new config.memory).runs
    (by rw [Nat.zero_add]; exact hlen) hfits
  refine ⟨hfound, hrefines.warm, hrefines.warmish, hrefines.warm.lookup, hrefines.warmish.lookup,
    ?_, ?_, ?_, ?_⟩
  · intro digest value
    exact LruCache.insert_warm_evicts hwarm _ digest value
  · intro digest value hvalue
    exact LruCache.insert_warmish_evicts (hwarm.trans_le hcover) _ digest hvalue
  · intro entries fuel hfuel
    exact evict_warm_succ _ hfuel
  · intro entries bytes fuel hfuel
    exact evict_warmish_succ _ _ hfuel

/-- A hit between two insertions decides which entry goes. -/
theorem memory_cache_is_lru_hit :
    let config : RuntimeConfig := ⟨2, 2, 16, 1, 1, 1⟩
    let calls : List (CacheCall Unit) :=
      [.insert_warmish "a" ⟨[1, 2], .Cli0_2⟩, .insert_warmish "b" ⟨[3], .Cli0_2⟩, .warmish "a",
        .insert_warmish "c" ⟨[4], .Cli0_2⟩, .warmish "b", .warmish "a"]
    let m := MemoryCache.new config.memory
    validate_config config = .ok () ∧ FitsAlong (2 ^ 64 - 1) m calls ∧
      (MemoryCache.runs (2 ^ 64 - 1) calls m).2.warmish.keys = ["a", "c"] ∧
      (MemoryCache.runs (2 ^ 64 - 1) calls m).1
        = (LruCache.runs config.memory calls ⟨[], []⟩).1 := by
  refine ⟨rfl, by decide +kernel, by decide +kernel, ?_⟩
  exact (@memory_cache_is_lru Unit _ ⟨2, 2, 16, 1, 1, 1⟩ rfl _ (by decide) (by decide +kernel)).1

/-! ## Where the count saturates

The count fails where one artifact is retained under many digests, and the cache then keeps more
than the reference does. -/

section Saturation

/-- One warm component, four artifacts, and all the bytes that a 32-bit `usize` can count. -/
def wideConfig : RuntimeConfig := ⟨1, 4, 2 ^ 32 - 1, 1, 1, 1⟩

variable {value : PreparedAot}

/-- An artifact of 1 GiB under each of several digests. -/
def shared (value : PreparedAot) (digests : List String) : Line String PreparedAot :=
  digests.map fun digest => (digest, value)

theorem shared_bytes (hvalue : value.bytes.length = 2 ^ 30) (digests : List String) :
    lineBytes (shared value digests) = digests.length * 2 ^ 30 := by
  rw [lineBytes, shared, List.map_map]
  simp [Function.comp_def, hvalue]

/-- The reference has room for three of them. -/
theorem reference_has_room (hvalue : value.bytes.length = 2 ^ 30) (digests : List String)
    (digest : String) (hlen : digests.length < 3) (hnew : digest ∉ digests) :
    LruCache.insert_warmish wideConfig.memory (⟨[], shared value digests⟩ : LruCache Unit) digest
      value = ⟨[], shared value (digests ++ [digest])⟩ := by
  have hput : put digest value (shared value digests) = shared value (digests ++ [digest]) := by
    rw [put, remove, shared, shared, List.map_append, List.filter_eq_self.mpr]
    · rfl
    · intro e he
      obtain ⟨digest', hmem, rfl⟩ := List.mem_map.mp he
      exact decide_eq_true (ne_of_mem_of_not_mem hmem hnew)
  have hroom : warmishWithin wideConfig.memory (shared value (digests ++ [digest])) = true := by
    apply decide_eq_true
    rw [shared_bytes hvalue, shared, List.length_map, List.length_append, List.length_singleton]
    simp only [wideConfig, RuntimeConfig.memory]
    omega
  rw [LruCache.insert_warmish, if_neg (by rw [hvalue]; decide), hput, trim_of_within hroom]

/-- And the cache counts three of them exactly. -/
theorem refines_shared {m : MemoryCache Unit} {n : ℕ} (hvalue : value.bytes.length = 2 ^ 30)
    (digests : List String) (digest : String)
    (h : m.Refines wideConfig.memory n ⟨[], shared value digests⟩) (hn : n + 1 < 2 ^ 64)
    (hlen : digests.length < 3) (hnew : digest ∉ digests) :
    (m.insert_warmish (2 ^ 32 - 1) digest value).Refines wideConfig.memory (n + 1)
      ⟨[], shared value (digests ++ [digest])⟩ := by
  rw [← reference_has_room hvalue digests digest hlen hnew]
  refine h.insert_warmish hn (MemoryCache.bytes_insert_le ?_ _ _)
  rw [h.warmish.bytes, shared_bytes hvalue, hvalue]
  omega

/-- The fourth, the same artifact under another digest, takes the count to where it stops, which
is not over the bound. -/
theorem insert_fourth_keeps {m : MemoryCache Unit} (hvalue : value.bytes.length = 2 ^ 30)
    (h : m.Refines wideConfig.memory 3 ⟨[], shared value ["a", "b", "c"]⟩) :
    ((m.insert_warmish (2 ^ 32 - 1) "d" value).get_warmish "a").1 = some value := by
  have hlen : value.bytes.length ≤ m.max_warmish_bytes := by
    rw [hvalue, h.max_warmish_bytes]
    decide
  have hput := h.stamp (by decide) h.warmish "d" value
  have hcount : (m.warmish.insert "d" ⟨value, m.tick.1⟩).keys.length = 4 := hput.length
  have hafter : m.warmish_bytes_after (2 ^ 32 - 1) "d" value ≤ 2 ^ 32 - 1 := Nat.min_le_right _ _
  have hstay : evict_warmish m.max_warmish m.max_warmish_bytes 4
      (m.warmish.insert "d" ⟨value, m.tick.1⟩, m.warmish_bytes_after (2 ^ 32 - 1) "d" value)
      = (m.warmish.insert "d" ⟨value, m.tick.1⟩,
          m.warmish_bytes_after (2 ^ 32 - 1) "d" value) := by
    rw [evict_warmish, hcount, h.max_warmish, h.max_warmish_bytes]
    exact if_neg (by simp only [wideConfig, RuntimeConfig.memory]; omega)
  have hlookup : ((m.warmish.insert "d" ⟨value, m.tick.1⟩).lookup "a").map CacheEntry.value
      = some value := hput.lookup "a"
  rw [MemoryCache.get_warmish_found, MemoryCache.insert_warmish_eq hlen]
  dsimp only
  rw [hcount, hstay]
  exact hlookup

/-- The reference lets the first go. -/
theorem reference_forgets (hvalue : value.bytes.length = 2 ^ 30) :
    (use "a" (LruCache.insert_warmish wideConfig.memory
      (⟨[], shared value ["a", "b", "c"]⟩ : LruCache Unit) "d" value).warmish).1 = none := by
  have hover : warmishWithin wideConfig.memory (("a", value) :: shared value ["b", "c", "d"])
      = false :=
    decide_eq_false (by simp [lineBytes, shared, hvalue, wideConfig, RuntimeConfig.memory])
  have hin : warmishWithin wideConfig.memory (shared value ["b", "c", "d"]) = true :=
    decide_eq_true (by simp [lineBytes, shared, hvalue, wideConfig, RuntimeConfig.memory])
  have hput : put "d" value (shared value ["a", "b", "c"])
      = ("a", value) :: shared value ["b", "c", "d"] := rfl
  rw [LruCache.insert_warmish, if_neg (by rw [hvalue]; decide), hput, trim_of_not_within hover,
    trim_of_within hin]
  rfl

/-- One artifact of 1 GiB under four digests is more than a 32-bit `usize` counts. The count
stops at its largest value, which the configuration allows, and the cache keeps all four
where the reference has let the first go. -/
theorem saturated_count_keeps_too_much :
    let value : PreparedAot := ⟨List.replicate (2 ^ 30) 0, .Cli0_2⟩
    let calls : List (CacheCall Unit) :=
      [.insert_warmish "a" value, .insert_warmish "b" value, .insert_warmish "c" value,
        .insert_warmish "d" value, .warmish "a"]
    validate_config wideConfig = .ok () ∧ calls.length < 2 ^ 64 ∧
      (MemoryCache.runs (2 ^ 32 - 1) calls (MemoryCache.new wideConfig.memory)).1
        ≠ (LruCache.runs wideConfig.memory calls ⟨[], []⟩).1 := by
  intro value calls
  have hvalue : value.bytes.length = 2 ^ 30 := List.length_replicate
  clear_value value
  refine ⟨rfl, by norm_num [calls], ?_⟩
  intro heq
  -- Three values fit into a `usize`; with the fourth the count stops at the limit.
  have hone := refines_shared hvalue [] "a" (MemoryCache.Refines.new wideConfig.memory)
    (by decide) (by decide) (by decide)
  have htwo := refines_shared hvalue ["a"] "b" hone (by decide) (by decide) (by decide)
  have hthree := refines_shared hvalue ["a", "b"] "c" htwo (by decide) (by decide) (by decide)
  have hlast : (use "a" (LruCache.insert_warmish wideConfig.memory (LruCache.insert_warmish
      wideConfig.memory (LruCache.insert_warmish wideConfig.memory (LruCache.insert_warmish
        wideConfig.memory (⟨[], shared value []⟩ : LruCache Unit) "a" value) "b" value) "c" value)
      "d" value).warmish).1 = some value := by
    injection heq with _ heq
    injection heq with _ heq
    injection heq with _ heq
    injection heq with _ heq
    injection heq with heq _
    injection heq with heq
    exact heq.symm.trans (insert_fourth_keeps hvalue hthree)
  rw [reference_has_room hvalue [] "a" (by decide) (by decide), List.nil_append,
    reference_has_room hvalue ["a"] "b" (by decide) (by decide),
    List.singleton_append,
    reference_has_room hvalue ["a", "b"] "c" (by decide) (by decide)] at hlast
  have hforgets := reference_forgets hvalue
  rw [show ["a", "b", "c"] = ["a", "b"] ++ ["c"] from rfl, hlast] at hforgets
  cases hforgets

end Saturation

end WasmRuntime.Cache
