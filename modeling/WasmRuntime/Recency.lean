/-
The reference for a cache that forgets what was used least recently.

The entries stand in a line, the least recently used at the front. A use moves an entry to
the back, an insertion puts a new one there, and what must go goes from the front, as little
as it takes: `Evicts` says that a line is what remains of another when the shortest part that
brings it within bounds is taken off the front, and `trim` computes it.

Nothing here counts or compares time. An implementation that stamps its entries is correct
when its entries in the order of their stamps are such a line.
-/
import Mathlib.Data.List.Basic
import Mathlib.Data.Nat.Notation

set_option autoImplicit false

namespace WasmRuntime.Recency

variable {K V : Type}

/-- The entries of a cache, from the least to the most recently used. -/
abbrev Line (K V : Type) := List (K × V)

/-- `after` is `before` without the shortest prefix whose loss brings it within bounds. -/
def Evicts (within : Line K V → Bool) (before after : Line K V) : Prop :=
  ∃ n ≤ before.length, after = before.drop n ∧ within after = true ∧
    ∀ i < n, within (before.drop i) = false

/-- Eviction from the front until the line is within bounds. -/
def trim (within : Line K V → Bool) : Line K V → Line K V
  | [] => []
  | e :: l => if within (e :: l) then e :: l else trim within l

theorem trim_of_within {within : Line K V → Bool} {l : Line K V} (h : within l = true) :
    trim within l = l := by
  cases l with
  | nil => rfl
  | cons e l => exact if_pos h

theorem trim_of_not_within {within : Line K V → Bool} {e : K × V} {l : Line K V}
    (h : within (e :: l) = false) : trim within (e :: l) = trim within l := by
  rw [trim, if_neg (by rw [h]; exact Bool.false_ne_true)]

/-- `trim` evicts the shortest prefix, when an empty line is within bounds. -/
theorem trim_evicts {within : Line K V → Bool} (hnil : within [] = true) (l : Line K V) :
    Evicts within l (trim within l) := by
  induction l with
  | nil => exact ⟨0, Nat.le_refl 0, rfl, hnil, fun i hi => absurd hi (Nat.not_lt_zero i)⟩
  | cons e l ih =>
    cases hwithin : within (e :: l) with
    | true =>
      rw [trim_of_within hwithin]
      exact ⟨0, Nat.zero_le _, rfl, hwithin, fun i hi => absurd hi (Nat.not_lt_zero i)⟩
    | false =>
      rw [trim_of_not_within hwithin]
      obtain ⟨n, hn, hdrop, hafter, hbefore⟩ := ih
      refine ⟨n + 1, Nat.succ_le_succ hn, hdrop, hafter, ?_⟩
      intro i hi
      cases i with
      | zero => exact hwithin
      | succ i => exact hbefore i (Nat.lt_of_succ_lt_succ hi)

/-- An entry that is within bounds on its own is not evicted from the back. -/
theorem trim_concat {within : Line K V → Bool} {e : K × V} (he : within [e] = true)
    (l : Line K V) : ∃ l', trim within (l ++ [e]) = l' ++ [e] := by
  induction l with
  | nil => exact ⟨[], trim_of_within he⟩
  | cons e' l ih =>
    cases hwithin : within (e' :: l ++ [e]) with
    | true => exact ⟨e' :: l, trim_of_within hwithin⟩
    | false =>
      obtain ⟨l', hl'⟩ := ih
      exact ⟨l', (trim_of_not_within hwithin).trans hl'⟩

/-- Eviction down to a number of entries leaves the youngest of them. -/
theorem trim_eq_drop {within : Line K V → Bool} {bound : ℕ} {l : Line K V}
    (h : ∀ l', l' <:+ l → (within l' = true ↔ l'.length ≤ bound)) :
    trim within l = l.drop (l.length - bound) := by
  induction l with
  | nil => exact List.drop_nil.symm
  | cons e l ih =>
    have hrest := ih fun l' hl' => h l' (hl'.trans (List.suffix_cons e l))
    have hall := h (e :: l) List.suffix_rfl
    rw [List.length_cons] at hall ⊢
    cases hwithin : within (e :: l) with
    | true => rw [trim_of_within hwithin, Nat.sub_eq_zero_of_le (hall.mp hwithin), List.drop_zero]
    | false =>
      have hover : ¬ l.length + 1 ≤ bound := fun hle => by
        rw [hall.mpr hle] at hwithin
        cases hwithin
      rw [trim_of_not_within hwithin, hrest, Nat.succ_sub (by omega), List.drop_succ_cons]

variable [DecidableEq K]

/-- The value of a key. -/
def find (k : K) (l : Line K V) : Option V := (l.find? fun e => decide (e.1 = k)).map Prod.snd

/-- A line without a key. -/
def remove (k : K) (l : Line K V) : Line K V := l.filter fun e => decide (e.1 ≠ k)

/-- A key and its value, as the most recently used. -/
def put (k : K) (v : V) (l : Line K V) : Line K V := remove k l ++ [(k, v)]

/-- A lookup: a key that is found becomes the most recently used. -/
def use (k : K) (l : Line K V) : Option V × Line K V :=
  match find k l with
  | none => (none, l)
  | some v => (some v, put k v l)

theorem keys_put (k : K) (v : V) (l : Line K V) :
    (put k v l).map Prod.fst = (l.map Prod.fst).filter (fun k' => decide (k' ≠ k)) ++ [k] := by
  rw [put, remove, List.map_append, List.filter_map]
  rfl

theorem find_isSome {k : K} {l : Line K V} : (find k l).isSome = true ↔ k ∈ l.map Prod.fst := by
  simp [find]

end WasmRuntime.Recency
