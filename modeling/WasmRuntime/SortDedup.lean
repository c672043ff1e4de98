/-
Lists that stand for sets.

A program that is given a collection and wants a set often sorts it and then drops every element
that equals its neighbour. The order is that of a key, and the key tells the elements apart. An
unstable sort then has no choice: there is one sorted list of the given elements.
-/
import Mathlib.Data.List.Sort
import Mathlib.Data.List.Destutter

set_option autoImplicit false

namespace WasmRuntime.SortDedup

variable {α κ : Type} [LinearOrder κ]

/-- `sort_unstable_by_key`. -/
def sort_by_key (key : α → κ) (l : List α) : List α := l.insertionSort fun a b => key a ≤ key b

/-- `Vec::dedup`: of equal neighbours, one is kept. -/
def dedup [DecidableEq α] : List α → List α
  | [] => []
  | [a] => [a]
  | a :: b :: rest => if a = b then dedup (b :: rest) else a :: dedup (b :: rest)

section Sorting

variable (key : α → κ)

theorem sort_by_key_perm (l : List α) : (sort_by_key key l).Perm l := List.perm_insertionSort _ l

theorem mem_sort_by_key {l : List α} {x : α} : x ∈ sort_by_key key l ↔ x ∈ l :=
  (sort_by_key_perm key l).mem_iff

theorem sort_by_key_pairwise (l : List α) :
    (sort_by_key key l).Pairwise fun a b => key a ≤ key b := by
  have htotal : Std.Total fun a b => key a ≤ key b := ⟨fun a b => le_total (key a) (key b)⟩
  have htrans : IsTrans α fun a b => key a ≤ key b := ⟨fun _ _ _ hab hbc => le_trans hab hbc⟩
  exact List.pairwise_insertionSort _ l

end Sorting

section Dedup

variable [DecidableEq α]

theorem mem_dedup {l : List α} {x : α} : x ∈ dedup l ↔ x ∈ l := by
  fun_induction dedup l with
  | case1 => rfl
  | case2 a => rfl
  | case3 a rest ih =>
    rw [ih, List.mem_cons (a := x) (b := a) (l := a :: rest)]
    simp
  | case4 a b rest hne ih => rw [List.mem_cons, ih, List.mem_cons (b := a)]

/-- Mathlib's name for dropping what equals its neighbour. -/
theorem destutter_eq_dedup (l : List α) :
    l.destutter (· ≠ ·) = dedup l := by
  cases l with
  | nil => rfl
  | cons a rest =>
    rw [List.destutter_cons']
    induction rest generalizing a with
    | nil => rfl
    | cons b rest ih =>
      rw [List.destutter'_cons, dedup]
      by_cases hab : a = b
      · rw [if_neg (not_not.mpr hab), if_pos hab, ← ih b, hab]
      · rw [if_pos hab, if_neg hab, ih b]

/-- Nothing is below what is left of a sorted list but what was below the list. -/
theorem lt_dedup {key : α → κ} {a : α} {l : List α} (h : ∀ b ∈ l, key a < key b) :
    ∀ b ∈ dedup l, key a < key b := fun b hb => h b (mem_dedup.mp hb)

/-- What is left of a sorted list is strictly increasing. -/
theorem dedup_pairwise {key : α → κ} (hkey : Function.Injective key) {l : List α}
    (h : l.Pairwise fun a b => key a ≤ key b) :
    (dedup l).Pairwise fun a b => key a < key b := by
  fun_induction dedup l with
  | case1 => exact List.Pairwise.nil
  | case2 a => exact List.pairwise_singleton _ a
  | case3 a rest ih => exact ih h.of_cons
  | case4 a b rest hne ih =>
    have hrest := h.of_cons
    have hab : key a < key b :=
      lt_of_le_of_ne (List.rel_of_pairwise_cons h List.mem_cons_self) fun heq => hne (hkey heq)
    refine List.pairwise_cons.mpr ⟨lt_dedup ?_, ih hrest⟩
    intro c hc
    rcases List.mem_cons.mp hc with rfl | hc
    · exact hab
    · exact lt_of_lt_of_le hab (List.rel_of_pairwise_cons hrest hc)

end Dedup

/-! ## The normal form

What is left is strictly increasing, with the members of the collection, and therefore the same for
two collections with the same members. A list that was sorted and not rid of repetitions is of this
form only if there were none. -/

section Normal

variable {key : α → κ}

/-- A strictly increasing list is determined by its members. -/
theorem eq_of_increasing {l l' : List α} (h : l.Pairwise fun a b => key a < key b)
    (h' : l'.Pairwise fun a b => key a < key b) (hmem : ∀ x, x ∈ l ↔ x ∈ l') : l = l' := by
  have hnodup : ∀ {l : List α}, l.Pairwise (fun a b => key a < key b) → l.Nodup :=
    fun h => h.imp fun hlt heq => absurd (congrArg key heq) (ne_of_lt hlt)
  have hperm : l.Perm l' := (List.perm_ext_iff_of_nodup (hnodup h) (hnodup h')).mpr hmem
  refine hperm.eq_of_pairwise ?_ h h'
  intro a b _ _ hab hba
  exact absurd hba (lt_asymm hab)

variable [DecidableEq α]

theorem mem_normal (key : α → κ) {l : List α} {x : α} :
    x ∈ dedup (sort_by_key key l) ↔ x ∈ l := by
  rw [mem_dedup, mem_sort_by_key]

variable (hkey : Function.Injective key)
include hkey

theorem normal_pairwise (l : List α) :
    (dedup (sort_by_key key l)).Pairwise fun a b => key a < key b :=
  dedup_pairwise hkey (sort_by_key_pairwise key l)

/-- The normal form of a collection depends on its members alone. -/
theorem normal_eq_iff {l l' : List α} :
    dedup (sort_by_key key l) = dedup (sort_by_key key l') ↔ ∀ x, x ∈ l ↔ x ∈ l' := by
  constructor
  · intro h x
    rw [← mem_normal key (l := l), h, mem_normal]
  · intro h
    refine eq_of_increasing (normal_pairwise hkey l) (normal_pairwise hkey l') fun x => ?_
    rw [mem_normal, mem_normal, h]

/-- A collection without repetitions is in normal form once it is sorted. -/
theorem dedup_sorted {l : List α} (hl : l.Nodup) :
    dedup (sort_by_key key l) = sort_by_key key l := by
  have hsorted := sort_by_key_pairwise key l
  have hnodup : (sort_by_key key l).Nodup := (sort_by_key_perm key l).nodup_iff.mpr hl
  have hstrict : (sort_by_key key l).Pairwise fun a b => key a < key b :=
    (hsorted.and hnodup).imp fun h => lt_of_le_of_ne h.1 fun heq => h.2 (hkey heq)
  exact eq_of_increasing (normal_pairwise hkey l) hstrict fun x => mem_dedup

/-- One side sorts, the other side sorts and drops repetitions: they agree when the first had
none and the members are the same. -/
theorem sorted_eq_normal_iff {l l' : List α} :
    sort_by_key key l = dedup (sort_by_key key l') ↔ l.Nodup ∧ ∀ x, x ∈ l ↔ x ∈ l' := by
  constructor
  · intro h
    refine ⟨?_, fun x => ?_⟩
    · have hstrict := normal_pairwise hkey l'
      rw [← h] at hstrict
      refine (sort_by_key_perm key l).nodup_iff.mp ?_
      exact hstrict.imp fun hlt heq => absurd (congrArg key heq) (ne_of_lt hlt)
    · rw [← mem_sort_by_key key (l := l), h, mem_normal]
  · rintro ⟨hl, hmem⟩
    rw [← dedup_sorted hkey hl]
    exact (normal_eq_iff hkey).mpr hmem

end Normal

end WasmRuntime.SortDedup
