/-
Programs that act on a world they do not own, and a rely-guarantee logic for them.

A `Prog` is a computation that asks for effects one at a time and continues with the answers.
Nothing in it says what an effect does: that is a relation `step` on a state, chosen by whoever uses
the program, and it may be as nondeterministic as the world is. One program text thus serves for the
run without faults, the run with faults, and the run among others.
-/
import Mathlib.Logic.Function.Basic
import Mathlib.Logic.Relation

set_option autoImplicit false

namespace WasmRuntime

open Function

/-- A program over the effects `E`, where effect `e` is answered in `R e`. -/
inductive Prog (E : Type) (R : E → Type) (α : Type) : Type where
  | ret (a : α)
  | vis (e : E) (k : R e → Prog E R α)

namespace Prog

variable {E : Type} {R : E → Type} {α β γ : Type}

/-- Sequencing. -/
def bind : Prog E R α → (α → Prog E R β) → Prog E R β
  | .ret a, f => f a
  | .vis e k, f => .vis e fun r => bind (k r) f

instance : Monad (Prog E R) where
  pure := .ret
  bind := Prog.bind

/-- One effect, and its answer. -/
def perform (e : E) : Prog E R (R e) := .vis e .ret

@[simp] theorem pure_eq (a : α) : (pure a : Prog E R α) = .ret a := rfl

@[simp] theorem ret_bind (a : α) (f : α → Prog E R β) : (Prog.ret a >>= f) = f a := rfl

@[simp] theorem vis_bind (e : E) (k : R e → Prog E R α) (f : α → Prog E R β) :
    (Prog.vis e k >>= f) = .vis e fun r => k r >>= f := rfl

@[simp] theorem perform_bind (e : E) (f : R e → Prog E R β) : (perform e >>= f) = .vis e f := rfl

/-- The same program over more effects. -/
def lift {E' : Type} {R' : E' → Type} (inj : E → E') (back : ∀ e, R' (inj e) → R e) :
    Prog E R α → Prog E' R' α
  | .ret a => .ret a
  | .vis e k => .vis (inj e) fun r => lift inj back (k (back e r))

/-- The program with each effect carried out by a program. -/
def via {E' : Type} {R' : E' → Type} (f : (e : E) → Prog E' R' (R e)) : Prog E R α → Prog E' R' α
  | .ret a => .ret a
  | .vis e k => f e >>= fun r => via f (k r)

/-- The program raced against something that may end it: `e` is asked before each of its
effects, and when it says to stop there is no result. -/
def interruptible (e : E) (stop : R e → Bool) : Prog E R α → Prog E R (Option α)
  | .ret a => .ret (some a)
  | .vis e' k => .vis e fun r =>
    if stop r then .ret none else .vis e' fun r' => interruptible e stop (k r')

/-! ## Fallible programs

Programs that return a `Result`, sequenced with `?`. The steps are the source's ways to fail. -/

/-- A program that returns a `Result`. -/
def Fallible (E : Type) (R : E → Type) (ε α : Type) : Type := Prog E R (Except ε α)

namespace Fallible

variable {ε : Type}

/-- Sequencing with `?`: only a value continues. -/
def bind (x : Fallible E R ε α) (f : α → Fallible E R ε β) : Fallible E R ε β :=
  Prog.bind x fun
    | .ok a => f a
    | .error e => .ret (.error e)

instance : Monad (Fallible E R ε) where
  pure a := .ret (.ok a)
  bind := Fallible.bind

/-- `Err(e)?`. -/
def throw (e : ε) : Fallible E R ε α := .ret (.error e)

/-- A program that cannot fail. -/
def run (p : Prog E R α) : Fallible E R ε α := Prog.bind p fun a => .ret (.ok a)

/-- `result.map_err(wrap)?` on the answer of a program. -/
def orElse {δ : Type} (wrap : δ → ε) (p : Prog E R (Except δ α)) : Fallible E R ε α :=
  Prog.bind p fun
    | .ok a => .ret (.ok a)
    | .error d => .ret (.error (wrap d))

/-- `if bad { return Err(e); }`. -/
def reject (bad : Bool) (e : ε) : Fallible E R ε Unit :=
  if bad then .ret (.error e) else .ret (.ok ())

/-- A pure `Result`. -/
def ofExcept (x : Except ε α) : Fallible E R ε α := .ret x

/-- `option.ok_or(e)?`. -/
def ok_or (e : ε) (o : Option α) : Fallible E R ε α := ofExcept (o.elim (.error e) .ok)

/-! Each step in front of a continuation, as a tree of effects. -/

@[simp] theorem pure_bind (a : α) (f : α → Fallible E R ε β) :
    ((pure a : Fallible E R ε α) >>= f) = f a := rfl

theorem reject_bind (bad : Bool) (e : ε) (f : Unit → Fallible E R ε β) :
    ((reject bad e : Fallible E R ε Unit) >>= f) = if bad then throw e else f () := by
  cases bad <;> rfl

@[simp] theorem reject_false_bind (e : ε) (f : Unit → Fallible E R ε β) :
    ((reject false e : Fallible E R ε Unit) >>= f) = f () := rfl

@[simp] theorem reject_true_bind (e : ε) (f : Unit → Fallible E R ε β) :
    ((reject true e : Fallible E R ε Unit) >>= f) = throw e := rfl

@[simp] theorem ofExcept_ok_bind (a : α) (f : α → Fallible E R ε β) :
    ((ofExcept (.ok a) : Fallible E R ε α) >>= f) = f a := rfl

end Fallible

variable {E' ε σ : Type} {R' : E' → Type} {x : Fallible E R ε α} {f : α → Fallible E R ε β}
  {s s' : σ} {ok : (e : E) → R e → Prop} {P : E → Prop} {p : Prog E R α} {inj : E → E'}
  {back : ∀ e, R' (inj e) → R e}

/-- Sequencing over more effects. -/
theorem lift_bind (inj : E → E') (back : ∀ e, R' (inj e) → R e) (p : Prog E R α)
    (f : α → Prog E R β) :
    (p >>= f).lift inj back = p.lift inj back >>= fun a => (f a).lift inj back := by
  induction p with
  | ret a => rfl
  | vis e k ih => exact congrArg (Prog.vis (inj e)) (funext fun r => ih (back e r))

/-- The same for fallible programs. -/
theorem lift_bindF (inj : E → E') (back : ∀ e, R' (inj e) → R e) (p : Fallible E R ε α)
    (f : α → Fallible E R ε β) :
    lift inj back (p >>= f : Fallible E R ε β)
      = Fallible.bind (lift inj back p) fun a => lift inj back (f a) := by
  induction p with
  | ret a => cases a <;> rfl
  | vis e k ih => exact congrArg (Prog.vis (inj e)) (funext fun r => ih (back e r))

/-! ## Running alone

Where the answers are determined by the state, a program is a function. -/

/-- The run of a program in a world whose answers are determined. -/
def interp {σ : Type} (h : σ → (e : E) → R e × σ) : Prog E R α → σ → α × σ
  | .ret a, s => (a, s)
  | .vis e k, s => interp h (k (h s e).1) (h s e).2

@[simp] theorem interp_ret {σ : Type} (h : σ → (e : E) → R e × σ) (a : α) (s : σ) :
    interp h (.ret a) s = (a, s) := rfl

/-- Programs are run one after the other. -/
theorem interp_bind (h : σ → (e : E) → R e × σ) (p : Prog E R α) (f : α → Prog E R β) (s : σ) :
    interp h (p >>= f) s = interp h (f (interp h p s).1) (interp h p s).2 := by
  induction p generalizing s with
  | ret a => rfl
  | vis e k ih => exact ih _ _

/-- A fallible step that succeeded, in front of its continuation. -/
theorem interp_bind_ok {h : σ → (e : E) → R e × σ} {a : α} (hx : interp h x s = (.ok a, s')) :
    interp h (x >>= f : Fallible E R ε β) s = interp h (f a) s' := by
  refine (interp_bind h x _ s).trans ?_
  rw [hx]

/-- A fallible step that failed, in front of its continuation. -/
theorem interp_bind_error {h : σ → (e : E) → R e × σ} {e : ε} (hx : interp h x s = (.error e, s')) :
    interp h (x >>= f : Fallible E R ε β) s = (.error e, s') := by
  refine (interp_bind h x _ s).trans ?_
  rw [hx]
  rfl

/-- A value the continuation never answers is not the answer of the sequence. -/
theorem interp_bind_ne {h : σ → (e : E) → R e × σ} {b : β}
    (hf : ∀ a s, (interp h (f a) s).1 ≠ .ok b) :
    (interp h (x >>= f : Fallible E R ε β) s).1 ≠ .ok b := by
  cases hx : interp h x s with
  | mk r s' =>
    cases r with
    | ok a =>
      rw [interp_bind_ok hx]
      exact hf a s'
    | error e =>
      rw [interp_bind_error hx]
      exact nofun

@[simp] theorem interp_vis {σ : Type} (h : σ → (e : E) → R e × σ) (e : E)
    (k : R e → Prog E R α) (s : σ) :
    interp h (.vis e k) s = interp h (k (h s e).1) (h s e).2 := rfl

/-! ## What the text of a program says

Some predicates speak of the program text alone. `Always` says of every effect the program comes to
how it goes on from there, `Fails` that it can only come to an error, and `Will` that on every
continuation it comes to a given effect before it returns, which is the one thing safety does not
say: that something already begun will be finished. -/

/-- At every effect the program comes to by admissible answers, `P` holds of the effect
and of how the program goes on. -/
def Always (ok : (e : E) → R e → Prop) (P : (e : E) → (R e → Prog E R α) → Prop) :
    Prog E R α → Prop
  | .ret _ => True
  | .vis e k => P e k ∧ ∀ r, ok e r → Always ok P (k r)

/-- By whatever admissible answers, the program comes to an effect of `P`. -/
def Will (ok : (e : E) → R e → Prop) (P : E → Prop) : Prog E R α → Prop
  | .ret _ => False
  | .vis e k => P e ∨ ∀ r, ok e r → Will ok P (k r)

theorem Will.bind {f : α → Prog E R β} (h : p.Will ok P) : (p >>= f).Will ok P := by
  induction p with
  | ret a => exact h.elim
  | vis e k ih => exact h.imp_right fun hk r hr => ih r (hk r hr)

/-- Sequencing, when what is asked of an effect does not care what comes after. -/
theorem Always.bind {P : (e : E) → (R e → Prog E R α) → Prop}
    {P' : (e : E) → (R e → Prog E R β) → Prop} {f : α → Prog E R β}
    (hP : ∀ e k, P e k → P' e fun r => k r >>= f) (h : p.Always ok P)
    (hf : ∀ a, (f a).Always ok P') : (p >>= f).Always ok P' := by
  induction p with
  | ret a => exact hf a
  | vis e k ih => exact ⟨hP e k h.1, fun r hr => ih r (h.2 r hr)⟩

/-- The program asks for effects of `P` only. -/
def Only (P : E → Prop) : Prog E R α → Prop
  | .ret _ => True
  | .vis e k => P e ∧ ∀ r, Only P (k r)

/-- All effects are of a kind if those of the parts are. -/
theorem Only.bind {f : α → Prog E R β} (h : p.Only P) (hf : ∀ a, (f a).Only P) :
    (p >>= f).Only P := by
  induction p with
  | ret a => exact hf a
  | vis e k ih => exact ⟨h.1, fun r => ih r (h.2 r)⟩

theorem Only.bindF {p : Fallible E R ε α} (h : Only P p) (hf : ∀ a, Only P (f a)) :
    Only P (p >>= f : Fallible E R ε β) := by
  refine Only.bind h ?_
  intro a
  cases a with
  | ok a => exact hf a
  | error e => exact trivial

theorem Only.reject (bad : Bool) (e : ε) :
    Only P (Fallible.reject bad e : Fallible E R ε Unit) := by
  cases bad <;> exact trivial

/-- `result.map_err(wrap)?`. -/
theorem Only.orElse {δ : Type} {wrap : δ → ε} {p : Prog E R (Except δ α)} (h : p.Only P) :
    Only P (Fallible.orElse wrap p : Fallible E R ε α) := by
  refine Only.bind h ?_
  intro r
  cases r <;> exact trivial

theorem Only.lift {P' : E' → Prop} (hP : ∀ e, P e → P' (inj e)) (h : p.Only P) :
    (p.lift inj back).Only P' := by
  induction p with
  | ret a => exact trivial
  | vis e k ih => exact ⟨hP e h.1, fun r => ih _ (h.2 _)⟩

theorem Only.always {P : (e : E) → (R e → Prog E R α) → Prop} (h : p.Only fun e => ∀ k, P e k) :
    p.Always ok P := by
  induction p with
  | ret a => exact trivial
  | vis e k ih => exact ⟨h.1 k, fun r _ => ih r (h.2 r)⟩

/-- By whatever answers, the program comes to an error, if it returns. -/
def Fails {ε : Type} : Prog E R (Except ε α) → Prop
  | .ret r => ∃ e, r = .error e
  | .vis _ k => ∀ r, Fails (k r)

/-- A failure that is passed on. -/
theorem Fails.bind {p : Prog E R (Except ε α)} {f : Except ε α → Prog E R (Except ε β)}
    (h : p.Fails) (hf : ∀ e, (f (.error e)).Fails) : (p >>= f).Fails := by
  induction p with
  | ret r =>
    obtain ⟨e, rfl⟩ := h
    exact hf e
  | vis e k ih => exact fun r => ih r (h r)

theorem Fails.bindF {p : Fallible E R ε α} (f : α → Fallible E R ε β) (h : Fails p) :
    Fails (p >>= f : Fallible E R ε β) := Fails.bind h fun e => ⟨e, rfl⟩

theorem Fails.lift {p : Prog E R (Except ε α)} (h : p.Fails) : (p.lift inj back).Fails := by
  induction p with
  | ret r => exact h
  | vis e k ih => exact fun r => ih _ (h _)

/-- Over more effects. -/
theorem Always.lift {ok' : (e : E') → R' e → Prop} {P : (e : E) → (R e → Prog E R α) → Prop}
    {P' : (e : E') → (R' e → Prog E' R' α) → Prop} (hok : ∀ e r, ok' (inj e) r → ok e (back e r))
    (hP : ∀ e k, P e k → P' (inj e) fun r => (k (back e r)).lift inj back) (h : p.Always ok P) :
    (p.lift inj back).Always ok' P' := by
  induction p with
  | ret a => exact trivial
  | vis e k ih => exact ⟨hP e k h.1, fun r hr => ih _ (h.2 _ (hok e r hr))⟩

/-- Two runs whose states stay alike for the effects of a program answer alike. -/
theorem interp_agree {h : σ → (e : E) → R e × σ} {S : σ → σ → Prop}
    (hS : ∀ s s' e, S s s' → P e → (h s e).1 = (h s' e).1 ∧ S (h s e).2 (h s' e).2) (hp : p.Only P)
    (hs : S s s') : (interp h p s).1 = (interp h p s').1 := by
  induction p generalizing s s' with
  | ret a => rfl
  | vis e k ih =>
    obtain ⟨hans, hnext⟩ := hS s s' e hs hp.1
    rw [interp_vis, interp_vis, hans]
    exact ih _ (hp.2 _) hnext

end Prog

/-! ## The logic

`Rg.Safe` is the whole logic. A program is safe from a state when, whatever the others have done to
the state before each of its effects (`rely`), each effect it performs meets its `guar`antee and
what it returns meets the postcondition. Being a recursion on the program it needs no rules of its
own beyond sequencing; what makes it useful is `Pool.safe`: threads that are safe alone, and whose
guarantees imply the others' rely, are safe in every interleaving. -/

/-- A rely-guarantee setting: what others may do to the state between two of our
effects, what our effects do, and what we promise of each. -/
structure Rg (σ E : Type) (R : E → Type) where
  rely : σ → σ → Prop
  step : σ → (e : E) → R e → σ → Prop
  guar : σ → (e : E) → R e → σ → Prop
  rely_refl : ∀ s, rely s s
  rely_trans : ∀ s s' s'', rely s s' → rely s' s'' → rely s s''

namespace Rg

variable {σ E : Type} {R : E → Type} {α β : Type} (L : Rg σ E R)

/-- The program meets its guarantees from `s` on, and `Q` when it returns. -/
def Safe (Q : α → σ → Prop) : Prog E R α → σ → Prop
  | .ret a, s => ∀ s', L.rely s s' → Q a s'
  | .vis e k, s => ∀ s₁, L.rely s s₁ → ∀ r s₂, L.step s₁ e r s₂ →
      L.guar s₁ e r s₂ ∧ Safe Q (k r) s₂

variable {L}

variable {Q : α → σ → Prop} {p : Prog E R α} {s : σ} {I : σ → Prop}

/-- Safety survives what the others do. -/
theorem Safe.stable {s' : σ} (h : L.Safe Q p s) (hrely : L.rely s s') : L.Safe Q p s' := by
  cases p with
  | ret a => exact fun s'' h' => h s'' (L.rely_trans _ _ _ hrely h')
  | vis e k => exact fun s₁ h₁ => h s₁ (L.rely_trans _ _ _ hrely h₁)

/-- A weaker end. -/
theorem Safe.mono {Q' : α → σ → Prop} (h : L.Safe Q p s) (himp : ∀ a s, Q a s → Q' a s) :
    L.Safe Q' p s := by
  induction p generalizing s with
  | ret a => exact fun s' h' => himp a s' (h s' h')
  | vis e k ih =>
    intro s₁ h₁ r s₂ hstep
    obtain ⟨hguar, hrest⟩ := h s₁ h₁ r s₂ hstep
    exact ⟨hguar, ih r hrest⟩

/-- Sequencing: the first program's postcondition is the second's starting point. -/
theorem Safe.bind {Q' : β → σ → Prop} {f : α → Prog E R β} (h : L.Safe Q p s)
    (hf : ∀ a s, Q a s → L.Safe Q' (f a) s) : L.Safe Q' (p >>= f) s := by
  induction p generalizing s with
  | ret a => exact hf a s (h s (L.rely_refl s))
  | vis e k ih =>
    intro s₁ h₁ r s₂ hstep
    obtain ⟨hguar, hrest⟩ := h s₁ h₁ r s₂ hstep
    exact ⟨hguar, ih r hrest⟩

/-- What neither the others nor we ourselves undo holds to the end. -/
theorem Safe.frame (hguar : ∀ s e r s', L.guar s e r s' → L.rely s s')
    (hI : ∀ s s', L.rely s s' → I s → I s') (h : L.Safe Q p s) (hs : I s) :
    L.Safe (fun a s => Q a s ∧ I s) p s := by
  induction p generalizing s with
  | ret a => exact fun s' hs' => ⟨h s' hs', hI s s' hs' hs⟩
  | vis e k ih =>
    intro s₁ h₁ r s₂ hstep
    obtain ⟨hg, hrest⟩ := h s₁ h₁ r s₂ hstep
    exact ⟨hg, ih r hrest (hI s₁ s₂ (hguar _ _ _ _ hg) (hI s s₁ h₁ hs))⟩

/-- Sequencing of fallible programs: a value goes on, an error is the answer. -/
theorem Safe.bindF {ε : Type} {Q : Except ε α → σ → Prop} {Q' : Except ε β → σ → Prop}
    {p : Prog.Fallible E R ε α} {f : α → Prog.Fallible E R ε β} (h : L.Safe Q p s)
    (hok : ∀ a s, Q (.ok a) s → L.Safe Q' (f a) s)
    (herr : ∀ e s, Q (.error e) s → L.Safe Q' (.ret (.error e) : Prog E R (Except ε β)) s) :
    L.Safe Q' (p >>= f : Prog.Fallible E R ε β) s := by
  refine .bind h ?_
  intro a s' ha
  cases a with
  | ok a => exact hok a s' ha
  | error e => exact herr e s' ha

/-- Over more effects and a larger state, of which `get` is the part that matters here. -/
theorem Safe.lift {σ' E' : Type} {R' : E' → Type} {L' : Rg σ' E' R'} (get : σ' → σ) {inj : E → E'}
    {back : ∀ e, R' (inj e) → R e} (hrely : ∀ s s', L'.rely s s' → L.rely (get s) (get s'))
    (hstep : ∀ s e r s', L'.step s (inj e) r s' → L.step (get s) e (back e r) (get s'))
    (hguar : ∀ s e r s', L'.step s (inj e) r s' → L.guar (get s) e (back e r) (get s') →
      L'.guar s (inj e) r s')
    {s : σ'} (h : L.Safe Q p (get s)) : L'.Safe (fun a s => Q a (get s)) (p.lift inj back) s := by
  induction p generalizing s with
  | ret a => exact fun s' hs' => h (get s') (hrely s s' hs')
  | vis e k ih =>
    intro s₁ h₁ r s₂ hmove
    obtain ⟨hg, hrest⟩ := h (get s₁) (hrely s s₁ h₁) (back e r) (get s₂) (hstep _ _ _ _ hmove)
    exact ⟨hguar _ _ _ _ hmove hg, ih _ hrest⟩

/-- What neither the others nor we ourselves undo. -/
structure Lasting (L : Rg σ E R) (I : σ → Prop) : Prop where
  guar : ∀ s e r s', L.guar s e r s' → L.rely s s'
  rely : ∀ s s', L.rely s s' → I s → I s'

/-- The program is safe wherever `I` holds, and `Q` holds of what it returns. -/
def Yields (L : Rg σ E R) (I : σ → Prop) (Q : α → Prop) (p : Prog E R α) : Prop :=
  ∀ s, I s → L.Safe (fun a _ => Q a) p s

theorem Yields.ret {Q : α → Prop} {a : α} (h : Q a) :
    L.Yields I Q (.ret a) := fun _ _ _ _ => h

theorem Yields.mono {Q Q' : α → Prop} (h : L.Yields I Q p) (himp : ∀ a, Q a → Q' a) :
    L.Yields I Q' p :=
  fun s hs => (h s hs).mono fun a _ => himp a

/-- Sequencing, where all that passes from one program to the next is a value. -/
theorem Yields.bind {Q : α → Prop} {Q' : β → Prop} {f : α → Prog E R β} (hI : L.Lasting I)
    (h : L.Yields I Q p) (hf : ∀ a, Q a → L.Yields I Q' (f a)) : L.Yields I Q' (p >>= f) := by
  intro s hs
  refine .bind ((h s hs).frame hI.guar hI.rely hs) ?_
  intro a s' ha
  exact hf a ha.1 s' ha.2

/-- The same for programs that return values only. -/
theorem Yields.bindF {ε : Type} {Q : α → Prop} {Q' : Except ε β → Prop} {p : Prog.Fallible E R ε α}
    {f : α → Prog.Fallible E R ε β} (hI : L.Lasting I)
    (h : L.Yields I (fun r => ∃ a, r = .ok a ∧ Q a) p) (hf : ∀ a, Q a → L.Yields I Q' (f a)) :
    L.Yields I Q' (p >>= f : Prog.Fallible E R ε β) := by
  refine .bind hI h ?_
  rintro _ ⟨a, rfl, ha⟩
  exact hf a ha

end Rg

/-! ## Contracts

For reasoning without the state. When an invariant of the state is all that a thread knows of it,
what remains is what each effect must be like to keep the invariant and what the invariant says
about its answer; `Pool.meets` puts the two together. -/

/-- What an effect must satisfy, and what its answer then satisfies. -/
structure Contract (E : Type) (R : E → Type) where
  pre : E → Prop
  post : (e : E) → R e → Prop

namespace Contract

variable {E : Type} {R : E → Type} {α β : Type} {C : Contract E R}

/-- The program keeps the contract, and `Q` holds of what it returns. -/
def Meets (C : Contract E R) (Q : α → Prop) : Prog E R α → Prop
  | .ret a => Q a
  | .vis e k => C.pre e ∧ ∀ r, C.post e r → Meets C Q (k r)

theorem Meets.mono {Q Q' : α → Prop} {p : Prog E R α} (h : C.Meets Q p)
    (himp : ∀ a, Q a → Q' a) : C.Meets Q' p := by
  induction p with
  | ret a => exact himp a h
  | vis e k ih => exact ⟨h.1, fun r hr => ih r (h.2 r hr)⟩

/-- The contract of a sequence, from those of its parts. -/
theorem Meets.bind {Q : α → Prop} {Q' : β → Prop} {p : Prog E R α} {f : α → Prog E R β}
    (h : C.Meets Q p) (hf : ∀ a, Q a → C.Meets Q' (f a)) : C.Meets Q' (p >>= f) := by
  induction p with
  | ret a => exact hf a h
  | vis e k ih => exact ⟨h.1, fun r hr => ih r (h.2 r hr)⟩

/-- Sequencing of fallible programs, when nothing is asked of an error. -/
theorem Meets.bindF {ε : Type} {Q : α → Prop} {Q' : β → Prop} {p : Prog.Fallible E R ε α}
    {f : α → Prog.Fallible E R ε β} (h : C.Meets (fun r => ∀ a, r = .ok a → Q a) p)
    (hf : ∀ a, Q a → C.Meets (fun r => ∀ b, r = .ok b → Q' b) (f a)) :
    C.Meets (fun r => ∀ b, r = .ok b → Q' b) (p >>= f : Prog.Fallible E R ε β) := by
  refine .bind h ?_
  intro a ha
  cases a with
  | ok a => exact hf a (ha a rfl)
  | error e => exact nofun

/-- Over more effects, by a contract that implies the first. -/
theorem Meets.lift {E' : Type} {R' : E' → Type} {C' : Contract E' R'} {inj : E → E'}
    {back : ∀ e, R' (inj e) → R e} {Q : α → Prop} {p : Prog E R α}
    (hpre : ∀ e, C.pre e → C'.pre (inj e))
    (hpost : ∀ e r, C'.post (inj e) r → C.post e (back e r)) (h : C.Meets Q p) :
    C'.Meets Q (p.lift inj back) := by
  induction p with
  | ret a => exact h
  | vis e k ih => exact ⟨hpre e h.1, fun r hr => ih _ (h.2 _ (hpost e r hr))⟩

end Contract

/-! ## Threads

Programs over one state, whose effects interleave in any way. The environment may move too. -/

/-- A state and the programs acting on it. -/
structure Pool (ι σ E : Type) (R : E → Type) (α : Type) where
  state : σ
  threads : ι → Prog E R α

namespace Pool

variable {ι σ E : Type} {R : E → Type} {α : Type} [DecidableEq ι]

/-- One move: a thread performs its next effect, or the environment acts. -/
inductive Step (step : σ → (e : E) → R e → σ → Prop) (env : σ → σ → Prop) :
    Pool ι σ E R α → Pool ι σ E R α → Prop where
  | thread (P : Pool ι σ E R α) (i : ι) (e : E) (k : R e → Prog E R α) (r : R e) (s : σ)
      (hi : P.threads i = .vis e k) (hs : step P.state e r s) :
      Step step env P ⟨s, update P.threads i (k r)⟩
  | env (P : Pool ι σ E R α) (s : σ) (hs : env P.state s) : Step step env P ⟨s, P.threads⟩

/-- Any number of moves. -/
def Run (step : σ → (e : E) → R e → σ → Prop) (env : σ → σ → Prop) :
    Pool ι σ E R α → Pool ι σ E R α → Prop := Relation.ReflTransGen (Step step env)

variable {step : σ → (e : E) → R e → σ → Prop} {env : σ → σ → Prop} {P P' : Pool ι σ E R α}
  {Q : ι → α → σ → Prop}

/-- A run by weaker steps. -/
theorem Run.mono {step' : σ → (e : E) → R e → σ → Prop} (hrun : Run step env P P')
    (himp : ∀ s e r s', step s e r s' → step' s e r s') : Run step' env P P' := by
  refine Relation.ReflTransGen.mono ?_ _ _ hrun
  intro P P' hmove
  cases hmove with
  | thread i e k r s hi hs => exact .thread P i e k r s hi (himp _ _ _ _ hs)
  | env s hs => exact .env P s hs

/-- One move of a thread, in a world whose answers are determined but may have to wait. A thread
that has returned stays. -/
def move (answer : σ → (e : E) → Option (R e × σ)) (P : Pool ι σ E R α) (i : ι) :
    Option (Pool ι σ E R α) :=
  match P.threads i with
  | .vis e k => (answer P.state e).map fun r => ⟨r.2, update P.threads i (k r.1)⟩
  | .ret _ => some P

/-- The moves of a schedule, one after the other. -/
def follow (answer : σ → (e : E) → Option (R e × σ)) (P : Pool ι σ E R α) (schedule : List ι) :
    Option (Pool ι σ E R α) :=
  schedule.foldlM (move answer) P

/-- If the world answers as the steps allow, a schedule makes a run. -/
theorem follow_run {answer : σ → (e : E) → Option (R e × σ)}
    (hanswer : ∀ s e r s', answer s e = some (r, s') → step s e r s') {schedule : List ι}
    (h : P.follow answer schedule = some P') : Run step env P P' := by
  induction schedule generalizing P with
  | nil =>
    cases h
    exact .refl
  | cons i rest ih =>
    obtain ⟨P₁, hmove, hrest⟩ := Option.bind_eq_some_iff.mp h
    unfold move at hmove
    split at hmove
    · obtain ⟨r, hr, rfl⟩ := Option.map_eq_some_iff.mp hmove
      exact .head (.thread P i _ _ _ _ (by assumption) (hanswer _ _ _ _ hr)) (ih hrest)
    · cases hmove
      exact ih hrest

/-- What a thread has returned. -/
def result (P : Pool ι σ E R α) (i : ι) : Option α :=
  match P.threads i with
  | .ret a => some a
  | .vis _ _ => none

omit [DecidableEq ι] in
theorem threads_of_result {P : Pool ι σ E R α} {i : ι} {a : α} (h : P.result i = some a) :
    P.threads i = .ret a := by
  unfold result at h
  split at h
  · cases h
    assumption
  · cases h

/-- Threads that are safe alone, each in its own logic, are safe together in every
interleaving, if what one guarantees is what all others rely on. -/
theorem safe_each {L : ι → Rg σ E R} (hstep : ∀ i s e r s', step s e r s' → (L i).step s e r s')
    (hguar : ∀ i j, j ≠ i → ∀ s e r s', (L i).guar s e r s' → (L j).rely s s')
    (henv : ∀ j s s', env s s' → (L j).rely s s') (h : ∀ i, (L i).Safe (Q i) (P.threads i) P.state)
    (hrun : Run step env P P') : ∀ i, (L i).Safe (Q i) (P'.threads i) P'.state := by
  induction hrun with
  | refl => exact h
  | tail _ hmove ih =>
    cases hmove with
    | thread i e k r s hi hs =>
      -- The moving thread is safe by its own proof, the others by stability.
      have hthis := ih i
      rw [hi] at hthis
      obtain ⟨hg, hnext⟩ := hthis _ ((L i).rely_refl _) r s (hstep i _ _ _ _ hs)
      intro j
      by_cases hj : j = i
      · subst hj
        simpa using hnext
      · simpa [update_of_ne hj] using (ih j).stable (hguar i j hj _ _ _ _ hg)
    | env s hs => exact fun j => (ih j).stable (henv j _ _ hs)

/-- Each step of such a run is one that its thread guarantees. -/
theorem run_guar {L : ι → Rg σ E R} (hstep : ∀ i s e r s', step s e r s' → (L i).step s e r s')
    (hguar : ∀ i j, j ≠ i → ∀ s e r s', (L i).guar s e r s' → (L j).rely s s')
    (henv : ∀ j s s', env s s' → (L j).rely s s') (h : ∀ i, (L i).Safe (Q i) (P.threads i) P.state)
    (hrun : Run step env P P') :
    Run (fun s e r s' => step s e r s' ∧ ∃ i, (L i).guar s e r s') env P P' := by
  induction hrun with
  | refl => exact .refl
  | tail hrun' hmove ih =>
    refine ih.tail ?_
    cases hmove with
    | thread i e k r s hi hs =>
      have hthis := safe_each hstep hguar henv h hrun' i
      rw [hi] at hthis
      exact .thread _ i e k r s hi
        ⟨hs, i, (hthis _ ((L i).rely_refl _) r s (hstep i _ _ _ _ hs)).1⟩
    | env s hs => exact .env _ s hs

/-- The same in one logic, whose guarantee is what all rely on. -/
theorem safe {L : Rg σ E R} (hguar : ∀ s e r s', L.guar s e r s' → L.rely s s')
    (henv : ∀ s s', env s s' → L.rely s s') (h : ∀ i, L.Safe (Q i) (P.threads i) P.state)
    (hrun : Run L.step env P P') : ∀ i, L.Safe (Q i) (P'.threads i) P'.state :=
  safe_each (fun _ _ _ _ _ h => h) (fun _ _ _ => hguar) (fun _ => henv) h hrun

/-- Each move of safe threads is one the others rely on, and so is the whole run. -/
theorem run_rely {L : Rg σ E R} (hguar : ∀ s e r s', L.guar s e r s' → L.rely s s')
    (henv : ∀ s s', env s s' → L.rely s s') (h : ∀ i, L.Safe (Q i) (P.threads i) P.state)
    (hrun : Run L.step env P P') : L.rely P.state P'.state := by
  induction hrun with
  | refl => exact L.rely_refl _
  | tail hrun' hstep ih =>
    refine L.rely_trans _ _ _ ih ?_
    cases hstep with
    | thread i e k r s hi hs =>
      have hthis := safe hguar henv h hrun' i
      rw [hi] at hthis
      exact hguar _ _ _ _ (hthis _ (L.rely_refl _) r s hs).1
    | env s hs => exact henv _ _ hs

/-- Threads that keep a contract keep the invariant behind it. -/
theorem meets {C : Contract E R} {I : σ → Prop} {Q : ι → α → Prop}
    (hstep : ∀ s e r s', I s → C.pre e → step s e r s' → I s' ∧ C.post e r)
    (henv : ∀ s s', I s → env s s' → I s') (hinv : I P.state)
    (h : ∀ i, C.Meets (Q i) (P.threads i)) (hrun : Run step env P P') :
    I P'.state ∧ ∀ i, C.Meets (Q i) (P'.threads i) := by
  induction hrun with
  | refl => exact ⟨hinv, h⟩
  | tail _ hmove ih =>
    obtain ⟨hinv', hall⟩ := ih
    cases hmove with
    | env s hs => exact ⟨henv _ _ hinv' hs, hall⟩
    | thread i e k r s hi hs =>
      have hthis := hall i
      rw [hi] at hthis
      obtain ⟨hnext, hpost⟩ := hstep _ e r s hinv' hthis.1 hs
      refine ⟨hnext, ?_⟩
      intro j
      by_cases hj : j = i
      · subst hj
        simpa using hthis.2 r hpost
      · simpa [update_of_ne hj] using hall j

/-- What is always so of a thread's program stays so as it runs. -/
theorem always {ok : (e : E) → R e → Prop} {A : ι → (e : E) → (R e → Prog E R α) → Prop}
    (hok : ∀ s e r s', step s e r s' → ok e r) (h : ∀ i, (P.threads i).Always ok (A i))
    (hrun : Run step env P P') : ∀ i, (P'.threads i).Always ok (A i) := by
  induction hrun with
  | refl => exact h
  | tail _ hstep ih =>
    cases hstep with
    | thread i e k r s hi hs =>
      have hthis := ih i
      rw [hi] at hthis
      intro j
      by_cases hj : j = i
      · subst hj
        simpa using hthis.2 r (hok _ _ _ _ hs)
      · simpa [update_of_ne hj] using ih j
    | env s hs => exact ih

end Pool

end WasmRuntime
