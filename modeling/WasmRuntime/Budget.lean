/-
A budget that is spent item by item.

Items come one after the other, each with a weight. One that fits into what remains of the
budget passes and its weight is taken off; one that does not fit is refused, something else
comes in its place, and nothing remains. The run goes on after a refusal: what has no weight
still passes.

What remains has a closed form, the budget less everything that ever came (`left_eq`), and the
three facts a limiter is for follow from the run alone: as long as the items fit they pass as
they are (`run_of_le`), the first that does not fit is refused in its place (`run_over`), and
what passes never weighs more than the budget (`total_run_le`).
-/
import Mathlib.Tactic.Ring
import Mathlib.Algebra.BigOperators.Group.List.Basic

set_option autoImplicit false

namespace WasmRuntime

/-- What an item weighs, and what comes out for one that passes and for one that is refused. -/
structure Budget (α β : Type) where
  weight : α → ℕ
  pass : α → β
  refuse : α → β

namespace Budget

variable {α β : Type} (L : Budget α β)

/-- One item: what comes out, and what remains. -/
def step (remaining : ℕ) (x : α) : β × ℕ :=
  if L.weight x > remaining then (L.refuse x, 0) else (L.pass x, remaining - L.weight x)

/-- What comes out for a sequence of items. -/
def run : ℕ → List α → List β
  | _, [] => []
  | remaining, x :: rest => (L.step remaining x).1 :: run (L.step remaining x).2 rest

/-- What remains after it. -/
def left (remaining : ℕ) (items : List α) : ℕ :=
  items.foldl (fun remaining x => (L.step remaining x).2) remaining

/-- The weight of a sequence. -/
def total (items : List α) : ℕ := (items.map L.weight).sum

@[simp] theorem total_cons (x : α) (rest : List α) :
    L.total (x :: rest) = L.weight x + L.total rest := by
  rw [total, List.map_cons, List.sum_cons, total]

/-- One item takes off its weight, down to nothing. -/
theorem step_left (remaining : ℕ) (x : α) : (L.step remaining x).2 = remaining - L.weight x := by
  unfold step
  by_cases hover : L.weight x > remaining
  · rw [if_pos hover]
    show 0 = remaining - L.weight x
    omega
  · rw [if_neg hover]

/-- What remains is the budget less all that came. -/
theorem left_eq (remaining : ℕ) (items : List α) :
    L.left remaining items = remaining - L.total items := by
  induction items generalizing remaining with
  | nil => rfl
  | cons x rest ih =>
    have hrest := ih (L.step remaining x).2
    rw [step_left] at hrest
    rw [total_cons, ← Nat.sub_sub, ← hrest, left, List.foldl_cons, step_left]
    rfl

/-- Something comes out for each item. -/
theorem length_run (remaining : ℕ) (items : List α) :
    (L.run remaining items).length = items.length := by
  induction items generalizing remaining with
  | nil => rfl
  | cons x rest ih => rw [run, List.length_cons, List.length_cons, ih]

/-- A run in two parts. -/
theorem run_append (remaining : ℕ) (items more : List α) :
    L.run remaining (items ++ more) = L.run remaining items
      ++ L.run (L.left remaining items) more := by
  induction items generalizing remaining with
  | nil => rfl
  | cons x rest ih =>
    rw [List.cons_append, run, ih, run, List.cons_append]
    rfl

/-- Items that fit pass as they are. -/
theorem run_of_le {remaining : ℕ} {items : List α} (h : L.total items ≤ remaining) :
    L.run remaining items = items.map L.pass := by
  induction items generalizing remaining with
  | nil => rfl
  | cons x rest ih =>
    rw [total_cons] at h
    have hfits : ¬ L.weight x > remaining := by omega
    have hstep : L.step remaining x = (L.pass x, remaining - L.weight x) := if_neg hfits
    rw [run, hstep, List.map_cons]
    refine congrArg (L.pass x :: ·) (ih ?_)
    omega

/-- The first item that does not fit is refused in its place. -/
theorem run_over {remaining : ℕ} {items later : List α} {x : α}
    (hfits : L.total items ≤ remaining) (hover : remaining < L.total items + L.weight x) :
    L.run remaining (items ++ x :: later)
      = items.map L.pass ++ L.refuse x :: L.run 0 later := by
  have hleft : L.left remaining items = remaining - L.total items := L.left_eq remaining items
  have hstep : L.step (remaining - L.total items) x = (L.refuse x, 0) := by
    refine if_pos ?_
    omega
  rw [run_append, run_of_le L hfits, hleft, run, hstep]

/-- What comes out never weighs more than the budget, if what passes weighs as it did and what
comes in place of a refused item weighs nothing. -/
theorem total_run_le {weight' : β → ℕ} (hpass : ∀ x, weight' (L.pass x) = L.weight x)
    (hrefuse : ∀ x, weight' (L.refuse x) = 0) (remaining : ℕ) (items : List α) :
    ((L.run remaining items).map weight').sum ≤ remaining := by
  induction items generalizing remaining with
  | nil => exact Nat.zero_le _
  | cons x rest ih =>
    have hrest := ih (L.step remaining x).2
    rw [run, List.map_cons, List.sum_cons]
    by_cases hover : L.weight x > remaining
    · have hstep : L.step remaining x = (L.refuse x, 0) := if_pos hover
      rw [hstep] at hrest ⊢
      rw [hrefuse]
      omega
    · have hstep : L.step remaining x = (L.pass x, remaining - L.weight x) := if_neg hover
      rw [hstep] at hrest ⊢
      rw [hpass]
      dsimp only at hrest ⊢
      omega

end Budget

end WasmRuntime
