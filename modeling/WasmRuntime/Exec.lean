/-
What running a piece of Rust can come to, and the few operations that can fail.

`Exec ε α` has the two outcomes a `Result<T, E>` has and the two it hides: a
panic (an index out of range, an overflowing `+`) and a loop that never exits. The
model writes slicing, indexing and unchecked addition with the panicking
operations below, so that "never reads out of bounds" is a statement about the
model and not a property of the notation, and a `while` loop is a recursion on
fuel whose exhaustion is `div`.

`bind_eq_ok` is the lemma that everything downstream is peeled apart with: a
sequence of fallible steps returned a value exactly when each of them did.
-/
import WasmRuntime.ByteCodec

set_option autoImplicit false

namespace WasmRuntime

/-- The outcomes of a computation: a value, an error, a panic, no end. -/
inductive Exec (ε α : Type) where
  | ok (v : α)
  | err (e : ε)
  | panic
  | div
  deriving DecidableEq, Repr

namespace Exec

variable {ε α β : Type}

/-- Sequencing: only a value continues. -/
def bind (x : Exec ε α) (f : α → Exec ε β) : Exec ε β :=
  match x with
  | .ok v => f v
  | .err e => .err e
  | .panic => .panic
  | .div => .div

instance : Monad (Exec ε) where
  pure := .ok
  bind := Exec.bind

instance : LawfulMonad (Exec ε) :=
  LawfulMonad.mk' (Exec ε) (fun x => by cases x <;> rfl) (fun _ _ => rfl)
    (fun x _ _ => by cases x <;> rfl)

@[simp] theorem pure_eq (v : α) : (pure v : Exec ε α) = .ok v := rfl

@[simp] theorem ok_bind (v : α) (f : α → Exec ε β) : (Exec.ok v >>= f) = f v := rfl

@[simp] theorem err_bind (e : ε) (f : α → Exec ε β) : (Exec.err e >>= f) = .err e := rfl

variable {x : Exec ε α} {f : α → Exec ε β} {v : α} {δ : Type} {max a b : ℕ}

/-- A sequence returned a value exactly when both of its steps did. -/
theorem bind_eq_ok {b : β} : (x >>= f) = .ok b ↔ ∃ a, x = .ok a ∧ f a = .ok b := by
  cases x with
  | ok v => simp
  | err e => exact ⟨nofun, nofun⟩
  | panic => exact ⟨nofun, nofun⟩
  | div => exact ⟨nofun, nofun⟩

/-- Sequences may be regrouped. -/
theorem bind_assoc {γ : Type} (x : Exec ε α) (f : α → Exec ε β) (g : β → Exec ε γ) :
    x >>= f >>= g = x >>= fun a => f a >>= g := by
  cases x with
  | ok v => rfl
  | err e => rfl
  | panic => rfl
  | div => rfl

/-- The computation ended in a value or in an error: it neither panicked nor ran
on. -/
def Returns (x : Exec ε α) : Prop := x ≠ .panic ∧ x ≠ .div

@[simp] theorem returns_ok (v : α) : Returns (.ok v : Exec ε α) :=
  ⟨nofun, nofun⟩

@[simp] theorem returns_err (e : ε) : Returns (.err e : Exec ε α) :=
  ⟨nofun, nofun⟩

/-- A sequence returns if its steps do. -/
theorem returns_bind (hx : x.Returns) (hf : ∀ a, x = .ok a → (f a).Returns) :
    (x >>= f).Returns := by
  cases x with
  | ok v => exact hf v rfl
  | err e => exact returns_err e
  | panic => exact absurd rfl hx.1
  | div => exact absurd rfl hx.2

/-- The `Result` of a computation that returns. -/
def toExcept : (x : Exec ε α) → x.Returns → Except ε α
  | .ok v, _ => .ok v
  | .err e, _ => .error e
  | .panic, h => (h.1 rfl).elim
  | .div, h => (h.2 rfl).elim

/-- Nothing is lost but the panics that there are not. -/
theorem toExcept_eq_ok (h : x.Returns) : x.toExcept h = .ok v ↔ x = .ok v := by
  cases x with
  | ok w => simp [toExcept]
  | err e => exact ⟨nofun, nofun⟩
  | panic => exact absurd rfl h.1
  | div => exact absurd rfl h.2

/-- `option.ok_or_else(..)?`. -/
def ofOption (e : ε) : Option α → Exec ε α
  | some v => .ok v
  | none => .err e

@[simp] theorem ofOption_some (e : ε) (v : α) : ofOption e (some v) = .ok v := rfl

/-- `ok_or` succeeds on `Some`. -/
theorem ofOption_eq_ok {e : ε} {o : Option α} : ofOption e o = .ok v ↔ o = some v := by
  cases o with
  | none => exact ⟨nofun, nofun⟩
  | some w => simp

theorem returns_ofOption (e : ε) (o : Option α) : (ofOption e o).Returns := by
  cases o with
  | none => exact returns_err e
  | some v => exact returns_ok v

/-- `result.map_err(..)?` on a foreign result. -/
def ofExcept {δ : Type} (wrap : δ → ε) : Except δ α → Exec ε α
  | .ok v => .ok v
  | .error d => .err (wrap d)

@[simp] theorem ofExcept_ok {δ : Type} (wrap : δ → ε) (v : α) :
    ofExcept wrap (.ok v : Except δ α) = .ok v := rfl

theorem ofExcept_eq_ok {wrap : δ → ε} {x : Except δ α} : ofExcept wrap x = .ok v ↔ x = .ok v := by
  cases x with
  | error d => exact ⟨nofun, nofun⟩
  | ok w => simp [ofExcept]

theorem returns_ofExcept (wrap : δ → ε) (x : Except δ α) : (ofExcept wrap x).Returns := by
  cases x with
  | error d => exact returns_err _
  | ok v => exact returns_ok v

/-- `result.map_err(wrap)`. -/
def mapErr {δ : Type} (wrap : δ → ε) : Exec δ α → Exec ε α
  | .ok v => .ok v
  | .err d => .err (wrap d)
  | .panic => .panic
  | .div => .div

theorem mapErr_eq_ok {wrap : δ → ε} {x : Exec δ α} : mapErr wrap x = .ok v ↔ x = .ok v := by
  cases x with
  | ok w => simp [mapErr]
  | err d => exact ⟨nofun, nofun⟩
  | panic => exact ⟨nofun, nofun⟩
  | div => exact ⟨nofun, nofun⟩

/-- `if bad { return Err(e); }`. -/
def reject (bad : Bool) (e : ε) : Exec ε Unit := if bad then .err e else .ok ()

@[simp] theorem reject_false (e : ε) : reject false e = .ok () := rfl

@[simp] theorem reject_true (e : ε) : reject true e = .err e := rfl

/-- A check passes if it finds nothing bad. -/
theorem reject_eq_ok {bad : Bool} {e : ε} {u : Unit} : reject bad e = .ok u ↔ bad = false := by
  cases bad with
  | false => simp
  | true => exact ⟨nofun, nofun⟩

theorem returns_reject (bad : Bool) (e : ε) : (reject bad e).Returns := by
  cases bad with
  | false => exact returns_ok _
  | true => exact returns_err e

/-- The computation ended in an error. -/
def Fails (x : Exec ε α) : Prop := ∃ e, x = .err e

/-- A sequence fails when its first step returns and the second fails on every value of it. -/
theorem fails_bind (hx : x.Returns) (hf : ∀ a, x = .ok a → (f a).Fails) : (x >>= f).Fails := by
  cases x with
  | ok v => exact hf v rfl
  | err e => exact ⟨e, rfl⟩
  | panic => exact absurd rfl hx.1
  | div => exact absurd rfl hx.2

/-! ## Machine arithmetic and slices

Bounds are explicit: the largest value of the type is an argument, and what is out of range is
`none` or a panic, as in the source. -/

/-- `a.checked_add(b)` on an unsigned integer type whose largest value is `max`. -/
def checkedAdd (max a b : ℕ) : Option ℕ := if a + b ≤ max then some (a + b) else none

/-- `checked_add` fails by overflow alone. -/
theorem checkedAdd_eq_some {c : ℕ} : checkedAdd max a b = some c ↔ a + b ≤ max ∧ c = a + b := by
  unfold checkedAdd
  split_ifs with h
  · simp only [Option.some.injEq, h, true_and]
    exact eq_comm
  · simp only [h, false_and]

theorem checkedAdd_of_le (h : a + b ≤ max) :
    checkedAdd max a b = some (a + b) := if_pos h

theorem checkedAdd_of_gt (h : max < a + b) : checkedAdd max a b = none :=
  if_neg (by omega)

/-- `a + b`, which panics on overflow. -/
def add (max a b : ℕ) : Exec ε ℕ := if a + b ≤ max then .ok (a + b) else .panic

theorem add_of_le (h : a + b ≤ max) : (add max a b : Exec ε ℕ) = .ok (a + b) :=
  if_pos h

/-- `usize::try_from(n)` and its like: the value when the target type holds it. -/
def tryFrom (max n : ℕ) : Option ℕ := if n ≤ max then some n else none

/-- What fits is converted. -/
theorem tryFrom_of_le {n : ℕ} (h : n ≤ max) : tryFrom max n = some n := if_pos h

/-- `try_from` fails by size alone. -/
theorem tryFrom_eq_some {n m : ℕ} : tryFrom max n = some m ↔ n ≤ max ∧ m = n := by
  unfold tryFrom
  split_ifs with h
  · simp only [Option.some.injEq, h, true_and]
    exact eq_comm
  · simp only [h, false_and]

/-- `&bytes[start..stop]`, which panics outside the slice. -/
def slice (bytes : Bytes) (start stop : ℕ) : Exec ε Bytes :=
  if start ≤ stop ∧ stop ≤ bytes.length then .ok ((bytes.drop start).take (stop - start))
  else .panic

/-- Within bounds there is no panic. -/
theorem slice_of_le {bytes : Bytes} {start stop : ℕ} (h : start ≤ stop)
    (h' : stop ≤ bytes.length) :
    (slice bytes start stop : Exec ε Bytes) = .ok ((bytes.drop start).take (stop - start)) :=
  if_pos ⟨h, h'⟩

/-- The slice between two known parts. -/
theorem slice_append {p m s : Bytes} {start stop : ℕ} (hstart : start = p.length)
    (hstop : stop = p.length + m.length) :
    (slice (p ++ (m ++ s)) start stop : Exec ε Bytes) = .ok m := by
  subst hstart hstop
  rw [slice_of_le (by omega) (by simp only [List.length_append]; omega), List.drop_left,
    Nat.add_sub_cancel_left, List.take_left]

/-- `bytes[i]`, which panics past the end. -/
def index (bytes : Bytes) (i : ℕ) : Exec ε UInt8 :=
  match bytes[i]? with
  | some b => .ok b
  | none => .panic

end Exec

end WasmRuntime
