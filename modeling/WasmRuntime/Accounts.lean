/-
Threads that keep accounts.

Where threads share nothing but counters, a thread's knowledge of the state is its own account:
what it has taken, given back and reported. An operation is allowed by the account alone, and
changes no other account; what ties the accounts to the counters is one invariant of the whole
state, which every allowed operation keeps.

A program is then checked against accounts only, without a word about the other threads
(`Accounts.Check`), and `Accounts.run` says that in every interleaving the invariant holds and
every thread is where its check says.
-/
import Mathlib.Data.Set.Card
import WasmRuntime.Tasks

set_option autoImplicit false

namespace WasmRuntime

open Function

/-- A state with an account for each thread. -/
structure Accounts (ι σ E : Type) (R : E → Type) (A : Type) where
  account : σ → ι → A
  sound : σ → Prop
  step : ι → σ → (e : E) → R e → σ → Prop
  /-- What a thread with a given account may do. -/
  allowed : A → E → Prop
  /-- What its account may be afterwards. -/
  next : A → (e : E) → R e → A → Prop
  law : ∀ {i s e r s'}, sound s → allowed (account s i) e → step i s e r s' →
    sound s' ∧ next (account s i) e r (account s' i) ∧ ∀ j, j ≠ i → account s' j = account s j

namespace Accounts

variable {ι σ E : Type} {R : E → Type} {A B α β : Type} (L : Accounts ι σ E R A)

/-- From a given account, whatever the answers, every operation of the program is allowed, and
the account at its end is as `Q` says. -/
def Check (Q : α → A → Prop) : Prog E R α → A → Prop
  | .ret x, a => Q x a
  | .vis e k, a => L.allowed a e ∧ ∀ r a', L.next a e r a' → Check Q (k r) a'

variable {L}

variable {Q : α → A → Prop} {p : Prog E R α} {a : A} {ε : Type} {T : Tasks ι σ E R B}

/-- One program after another. -/
theorem Check.bind {Q' : β → A → Prop} {f : α → Prog E R β} (hp : L.Check Q p a)
    (hf : ∀ x a, Q x a → L.Check Q' (f x) a) : L.Check Q' (p >>= f) a := by
  induction p generalizing a with
  | ret x => exact hf x a hp
  | vis e k ih => exact ⟨hp.1, fun r a' hnext => ih r (hp.2 r a' hnext)⟩

/-- Sequencing with `?`: an error ends it. -/
theorem Check.bindF {Q : Except ε α → A → Prop} {Q' : Except ε β → A → Prop}
    {p : Prog.Fallible E R ε α} {f : α → Prog.Fallible E R ε β} (hp : L.Check Q p a)
    (herror : ∀ e a, Q (.error e) a → Q' (.error e) a)
    (hok : ∀ x a, Q (.ok x) a → L.Check Q' (f x) a) :
    L.Check Q' (p >>= f : Prog.Fallible E R ε β) a := by
  refine .bind hp ?_
  intro result a' hQ
  cases result with
  | ok x => exact hok x a' hQ
  | error e => exact herror e a' hQ

theorem Check.ofExcept {Q : Except ε β → A → Prop} {x : Except ε α} {f : α → Prog.Fallible E R ε β}
    (herror : ∀ e, x = .error e → Q (.error e) a) (hok : ∀ y, x = .ok y → L.Check Q (f y) a) :
    L.Check Q (Prog.Fallible.ofExcept x >>= f : Prog.Fallible E R ε β) a := by
  cases x with
  | ok y => exact hok y rfl
  | error e => exact herror e rfl

theorem Check.reject {Q : Except ε β → A → Prop} {bad : Bool} {e : ε}
    {f : Unit → Prog.Fallible E R ε β} (herror : bad = true → Q (.error e) a)
    (hok : bad = false → L.Check Q (f ()) a) :
    L.Check Q (Prog.Fallible.reject bad e >>= f : Prog.Fallible E R ε β) a := by
  cases bad with
  | true => exact herror rfl
  | false => exact hok rfl

/-- A weaker end. -/
theorem Check.mono {Q' : α → A → Prop} (hp : L.Check Q p a) (h : ∀ x a, Q x a → Q' x a) :
    L.Check Q' p a := by
  induction p generalizing a with
  | ret x => exact h x a hp
  | vis e k ih => exact ⟨hp.1, fun r a' hnext => ih r (hp.2 r a' hnext)⟩

/-- What no operation changes in an account. -/
theorem Check.frame {I : A → Prop} (hI : ∀ a e r a', L.next a e r a' → I a → I a')
    (hp : L.Check Q p a) (ha : I a) : L.Check (fun x a' => Q x a' ∧ I a') p a := by
  induction p generalizing a with
  | ret x => exact ⟨hp, ha⟩
  | vis e k ih => exact ⟨hp.1, fun r a' hnext => ih r (hp.2 r a' hnext) (hI a e r a' hnext ha)⟩

variable [DecidableEq ι] {env : σ → σ → Prop} {body : B → Prog E R (Option B)}
  {Q : A → Prop} {J : B → A → Prop}

/-- One thread performs an operation that its check allows: the others are where they were. -/
theorem step_check {i : ι} {e : E} {k : R e → Prog E R (Option B)} {r : R e} {s : σ}
    (hsound : L.sound T.state)
    (h : ∀ j, L.Check (Tasks.Post Q J) (T.threads j) (L.account T.state j))
    (hi : T.threads i = .vis e k) (hs : L.step i T.state e r s) :
    L.sound s ∧ ∀ j, L.Check (Tasks.Post Q J) (update T.threads i (k r) j)
      (L.account s j) := by
  have hthis := h i
  rw [hi] at hthis
  obtain ⟨hsound', hnext, hothers⟩ := L.law hsound hthis.1 hs
  refine ⟨hsound', fun j => ?_⟩
  by_cases hj : j = i
  · subst hj
    rw [update_self]
    exact hthis.2 r _ hnext
  · rw [update_of_ne hj, hothers j hj]
    exact h j

/-- One thread enters its next block. -/
theorem again_check {i : ι} {b : B}
    (h : ∀ j, L.Check (Tasks.Post Q J) (T.threads j) (L.account T.state j))
    (hi : T.threads i = .ret (some b)) (hbody : ∀ a, J b a → L.Check (Tasks.Post Q J) (body b) a)
    (j : ι) :
    L.Check (Tasks.Post Q J) (update T.threads i (body b) j) (L.account T.state j) := by
  by_cases hj : j = i
  · subst hj
    have hthis := h j
    rw [hi] at hthis
    rw [update_self]
    exact hbody _ hthis
  · rw [update_of_ne hj]
    exact h j

/-- In every interleaving the state is sound and every thread is where its check says. -/
theorem run (henv : ∀ s s', L.sound s → env s s' → L.sound s' ∧ L.account s' = L.account s)
    (hbody : ∀ b a, J b a → L.Check (Tasks.Post Q J) (body b) a) {T' : Tasks ι σ E R B}
    (hsound : L.sound T.state)
    (h : ∀ i, L.Check (Tasks.Post Q J) (T.threads i) (L.account T.state i))
    (hrun : Tasks.Run L.step env body T T') :
    L.sound T'.state ∧
      ∀ i, L.Check (Tasks.Post Q J) (T'.threads i) (L.account T'.state i) := by
  induction hrun with
  | refl => exact ⟨hsound, h⟩
  | tail _ hstep ih =>
    obtain ⟨hsound, h⟩ := ih
    cases hstep with
    | thread i e k r s hi hs => exact step_check hsound h hi hs
    | again i b hi => exact ⟨hsound, again_check h hi (hbody b)⟩
    | env s hs =>
      obtain ⟨hsound', haccount⟩ := henv _ s hsound hs
      refine ⟨hsound', fun j => ?_⟩
      rw [haccount]
      exact h j

/-! ## Tallies

The counters of a state are numbers of accounts that have a property, and an operation changes one
account. -/

/-- How many accounts have a property. -/
noncomputable def tally (p : A → Bool) (accounts : ι → A) : ℕ∞ :=
  {i | p (accounts i) = true}.encard

/-- An account that agrees with the old one on the property. -/
theorem tally_same (p : A → Bool) (accounts : ι → A) (i : ι) (h : p a = p (accounts i)) :
    tally p (update accounts i a) = tally p accounts := by
  unfold tally
  congr 1
  ext j
  by_cases hj : j = i
  · subst hj
    simp [h]
  · simp [update_of_ne hj]

/-- The account comes to have it. -/
theorem tally_gain (p : A → Bool) (accounts : ι → A) (i : ι) (hold : p (accounts i) = false)
    (hnew : p a = true) : tally p (update accounts i a) = tally p accounts + 1 := by
  unfold tally
  have hset : {j | p (update accounts i a j) = true}
      = insert i {j | p (accounts j) = true} := by
    ext j
    by_cases hj : j = i
    · subst hj
      simp [hnew]
    · simp [hj]
  rw [hset, Set.encard_insert_of_notMem]
  simp [hold]

/-- The account loses it. -/
theorem tally_lose (p : A → Bool) (accounts : ι → A) (i : ι) (hold : p (accounts i) = true)
    (hnew : p a = false) : tally p (update accounts i a) + 1 = tally p accounts := by
  have hback : update (update accounts i a) i (accounts i) = accounts := by
    rw [update_idem, update_eq_self]
  rw [← tally_gain p (update accounts i a) i (by rw [update_self, hnew]) hold,
    hback]

end Accounts

end WasmRuntime
