/-
What a program does, judged by what it has seen.

A program that talks to a peer it cannot trust has no world to reason about: any answer may come
back at any time. What it does have is its own history. A `Monitor` keeps as much of the history as
a property needs: `after` folds one effect and its answer into it, and `ok` says which answers the
effect can have at all (a descriptor the kernel hands out is a fresh one).

`Upholds` is the whole of the reasoning. A program upholds a guard when, by whatever possible
answers, each effect it comes to is guarded in the history it comes to it with, and what it returns
meets the postcondition there. `Comes` is the other side: the program and the history it is left
with after any number of effects. `Upholds.comes` joins them, so a guard that is upheld holds at
every effect of every transcript, the unfinished ones included.
-/
import WasmRuntime.Prog
import Mathlib.Data.Nat.Notation

set_option autoImplicit false

namespace WasmRuntime

/-- A history of type `σ` over the effects `E`. -/
structure Monitor (σ E : Type) (R : E → Type) where
  ok : σ → (e : E) → R e → Prop
  after : σ → (e : E) → R e → σ

namespace Monitor

open Prog

variable {σ E : Type} {R : E → Type} {α β : Type}

/-- From `p` with history `s` the program comes to `p'` with history `s'`. -/
inductive Comes (M : Monitor σ E R) : Prog E R α → σ → Prog E R α → σ → Prop where
  | here (p : Prog E R α) (s : σ) : Comes M p s p s
  | vis {s s' : σ} {e : E} {k : R e → Prog E R α} {p : Prog E R α} {r : R e}
      (hok : M.ok s e r) (hrest : Comes M (k r) (M.after s e r) p s') :
      Comes M (.vis e k) s p s'

/-- Every effect is guarded where the program comes to it, and `Q` holds where it returns. -/
def Upholds (M : Monitor σ E R) (G : σ → E → Prop) (Q : α → σ → Prop) : Prog E R α → σ → Prop
  | .ret a, s => Q a s
  | .vis e k, s => G s e ∧ ∀ r, M.ok s e r → Upholds M G Q (k r) (M.after s e r)

variable {M : Monitor σ E R} {G : σ → E → Prop}

variable {Q Q' : α → σ → Prop} {p p' : Prog E R α} {s s' : σ} {I : σ → Prop} {ε δ τ : Type}
  {f : α → Fallible E R ε β} {e : E} {wrap : δ → ε} {t : τ} {L : Rg τ E R}

/-- Wherever the program has come, it still upholds the guard. -/
theorem Upholds.comes (h : M.Upholds G Q p s) (hcomes : M.Comes p s p' s') :
    M.Upholds G Q p' s' := by
  induction hcomes with
  | here p s => exact h
  | vis hok _ ih => exact ih (h.2 _ hok)

theorem Upholds.mono (h : M.Upholds G Q p s) (himp : ∀ a s, Q a s → Q' a s) :
    M.Upholds G Q' p s := by
  induction p generalizing s with
  | ret a => exact himp a s h
  | vis e k ih => exact ⟨h.1, fun r hr => ih r (h.2 r hr)⟩

/-- A weaker guard, and fewer answers. -/
theorem Upholds.weaken {M' : Monitor σ E R} {G' : σ → E → Prop} (hG : ∀ s e, G s e → G' s e)
    (hok : ∀ s e r, M'.ok s e r → M.ok s e r) (hafter : M'.after = M.after)
    (h : M.Upholds G Q p s) : M'.Upholds G' Q p s := by
  induction p generalizing s with
  | ret a => exact h
  | vis e k ih =>
    refine ⟨hG s e h.1, ?_⟩
    intro r hr
    rw [hafter]
    exact ih r (h.2 r (hok s e r hr))

/-- Where nothing is guarded and nothing asked of the result, there is nothing to show. -/
theorem Upholds.free (hG : ∀ s e, G s e) (hQ : ∀ a s, Q a s) (p : Prog E R α) (s : σ) :
    M.Upholds G Q p s := by
  induction p generalizing s with
  | ret a => exact hQ a s
  | vis e k ih => exact ⟨hG s e, fun r _ => ih r _⟩

/-- Effects of `P` are guarded and leave the history as it is, and the program asks for no
others. -/
theorem Upholds.of_only {P : E → Prop} (hG : ∀ s e, P e → G s e)
    (hafter : ∀ s e r, P e → M.after s e r = s) (h : p.Only P) (s : σ) :
    M.Upholds G (fun _ s' => s = s') p s := by
  induction p with
  | ret a => exact rfl
  | vis e k ih =>
    refine ⟨hG s e h.1, ?_⟩
    intro r _
    rw [hafter s e r h.1]
    exact ih r (h.2 r)

/-- What every guarded effect keeps, holds where the program returns. -/
theorem Upholds.keeping (hstep : ∀ s e r, I s → G s e → M.ok s e r → I (M.after s e r))
    (h : M.Upholds G Q p s) (hs : I s) : M.Upholds G (fun a s' => Q a s' ∧ I s') p s := by
  induction p generalizing s with
  | ret a => exact ⟨h, hs⟩
  | vis e k ih => exact ⟨h.1, fun r hr => ih r (h.2 r hr) (hstep s e r hs h.1 hr)⟩

/-- It holds wherever the program has come. -/
theorem Comes.keeping (hstep : ∀ s e r, I s → G s e → M.ok s e r → I (M.after s e r))
    (hcomes : M.Comes p s p' s') (h : M.Upholds G Q p s) (hs : I s) : I s' := by
  induction hcomes with
  | here p s => exact hs
  | vis hok _ ih => exact ih (h.2 _ hok) (hstep _ _ _ hs h.1 hok)

/-- Sequencing. -/
theorem Upholds.bind {Q' : β → σ → Prop} {f : α → Prog E R β} (h : M.Upholds G Q p s)
    (hf : ∀ a s, Q a s → M.Upholds G Q' (f a) s) : M.Upholds G Q' (p >>= f) s := by
  induction p generalizing s with
  | ret a => exact hf a s h
  | vis e k ih => exact ⟨h.1, fun r hr => ih r (h.2 r hr)⟩

/-- What is asked of a fallible program that is asked nothing when it fails. -/
def Post {ε : Type} (Q : α → σ → Prop) : Except ε α → σ → Prop
  | .ok a, s => Q a s
  | .error _, _ => True

/-- Sequencing of fallible programs. -/
theorem Upholds.bindF {Q' : β → σ → Prop} {p : Fallible E R ε α} (h : M.Upholds G (Post Q) p s)
    (hf : ∀ a s, Q a s → M.Upholds G (Post Q') (f a) s) :
    M.Upholds G (Post Q') (p >>= f : Fallible E R ε β) s := by
  refine .bind h ?_
  intro a s' ha
  cases a with
  | ok a => exact hf a s' ha
  | error e => exact trivial

theorem Upholds.monoF {p : Fallible E R ε α} (h : M.Upholds G (Post Q) p s)
    (himp : ∀ a s, Q a s → Q' a s) : M.Upholds G (Post Q') p s := by
  refine .mono h ?_
  intro r s' hr
  cases r with
  | ok a => exact himp a s' hr
  | error e => exact trivial

/-- One effect. -/
theorem Upholds.perform {Q : R e → σ → Prop} (hG : G s e)
    (h : ∀ r, M.ok s e r → Q r (M.after s e r)) : M.Upholds G Q (perform e) s := ⟨hG, h⟩

/-- `result.map_err(wrap)?`. -/
theorem Upholds.orElse {p : Prog E R (Except δ α)} (h : M.Upholds G (Post Q) p s) :
    M.Upholds G (Post Q) (Fallible.orElse wrap p) s := by
  refine .bind h ?_
  intro r s' hr
  cases r with
  | ok a => exact hr
  | error d => exact trivial

/-- The same where the history is as it should be whatever comes of the call. -/
theorem Upholds.orElse_any {p : Prog E R (Except δ α)} (h : M.Upholds G (fun _ s' => I s') p s) :
    M.Upholds G (Post fun _ s' => I s') (Fallible.orElse wrap p) s := by
  refine .orElse (.mono h ?_)
  intro r s' hs'
  cases r with
  | ok a => exact hs'
  | error d => exact trivial

/-- A program that cannot fail. -/
theorem Upholds.run (h : M.Upholds G Q p s) :
    M.Upholds G (Post Q) (Fallible.run p : Fallible E R ε α) s :=
  Upholds.bind h fun _ _ ha => ha

/-- `if bad { return Err(e); }`. -/
theorem Upholds.reject (bad : Bool) (e : ε) (s : σ) :
    M.Upholds G (Post fun _ s' => s = s' ∧ bad = false) (Fallible.reject bad e) s := by
  cases bad with
  | false => exact ⟨rfl, rfl⟩
  | true => exact trivial

/-- A pure result. -/
theorem Upholds.ofExcept (x : Except ε α) (s : σ) :
    M.Upholds G (Post fun a s' => s = s' ∧ x = .ok a) (Fallible.ofExcept x) s := by
  cases x with
  | ok a => exact ⟨rfl, rfl⟩
  | error e => exact trivial

/-- `option.ok_or(e)?`. -/
theorem Upholds.ok_or (e : ε) (o : Option α) (s : σ) :
    M.Upholds G (Post fun a s' => s = s' ∧ o = some a) (Fallible.ok_or e o) s := by
  cases o with
  | some a => exact ⟨rfl, rfl⟩
  | none => exact trivial

/-! ## Programs that may not fail

The same rules for a program that is asked to succeed, where every check has to be shown to pass. -/

/-- What is asked of a fallible program that is asked to succeed. -/
def Must {ε : Type} (Q : α → σ → Prop) : Except ε α → σ → Prop
  | .ok a, s => Q a s
  | .error _, _ => False

/-- Sequencing after a step that does not fail. -/
theorem Upholds.bindM {Q' : Except ε β → σ → Prop} {p : Fallible E R ε α}
    (h : M.Upholds G (Must Q) p s) (hf : ∀ a s, Q a s → M.Upholds G Q' (f a) s) :
    M.Upholds G Q' (p >>= f : Fallible E R ε β) s := by
  refine .bind h ?_
  intro r s' hr
  cases r with
  | ok a => exact hf a s' hr
  | error e => exact hr.elim

theorem Upholds.monoM {p : Fallible E R ε α} (h : M.Upholds G (Must Q) p s)
    (himp : ∀ a s, Q a s → Q' a s) : M.Upholds G (Must Q') p s := by
  refine .mono h ?_
  intro r s' hr
  cases r with
  | ok a => exact himp a s' hr
  | error e => exact hr.elim

/-- `result.map_err(wrap)?` on a result that is not an error. -/
theorem Upholds.orElseM {p : Prog E R (Except δ α)} (h : M.Upholds G (Must Q) p s) :
    M.Upholds G (Must Q) (Fallible.orElse wrap p) s := by
  refine .bind h ?_
  intro r s' hr
  cases r with
  | ok a => exact hr
  | error d => exact hr.elim

/-- A program that cannot fail. -/
theorem Upholds.runM (h : M.Upholds G Q p s) :
    M.Upholds G (Must Q) (Fallible.run p : Fallible E R ε α) s :=
  Upholds.bind h fun _ _ ha => ha

/-- `if bad { return Err(e); }` where it is not. -/
theorem Upholds.rejectM {bad : Bool} (hbad : bad = false) (e : ε) (s : σ) :
    M.Upholds G (Must fun _ s' => s = s') (Fallible.reject bad e) s := by
  rw [hbad]
  exact rfl

/-- A pure result that is not an error. -/
theorem Upholds.ofExceptM {x : Except ε α} {a : α} (hx : x = .ok a) (s : σ) :
    M.Upholds G (Must fun b s' => a = b ∧ s = s') (Fallible.ofExcept x) s := by
  rw [hx]
  exact ⟨rfl, rfl⟩

/-- `option.ok_or(e)?` on a value. -/
theorem Upholds.ok_orM {o : Option α} {a : α} (ho : o = some a) (e : ε) (s : σ) :
    M.Upholds G (Must fun b s' => a = b ∧ s = s') (Fallible.ok_or e o) s := by
  rw [ho]
  exact ⟨rfl, rfl⟩

/-! ## Interruptions

An interruption is an effect like any other, answered by whether to go on. -/

/-- A program that may be ended between any two effects, by an effect that leaves the history
as it is. -/
theorem Upholds.interruptible {stop : R e → Bool} {Q' : Option α → σ → Prop} (hG : ∀ s, G s e)
    (hafter : ∀ s r, M.after s e r = s) (hstop : ∀ s, Q' none s)
    (hdone : ∀ a s, Q a s → Q' (some a) s) (h : M.Upholds G Q p s) :
    M.Upholds G Q' (p.interruptible e stop) s := by
  induction p generalizing s with
  | ret a => exact hdone a s h
  | vis e' k ih =>
    refine ⟨hG s, ?_⟩
    intro r _
    rw [hafter]
    dsimp only
    by_cases hr : stop r = true
    · rw [if_pos hr]
      exact hstop s
    · rw [if_neg hr]
      exact ⟨h.1, fun r' hr' => ih r' (h.2 r' hr')⟩

/-! ## Among others

A monitor whose answers are those of a world that others change too: the logic of `Prog` applies. -/

/-- A program that upholds its guard against every answer the monitor allows is safe among others,
as part of a larger one, as long as they leave alone what those answers depend on. -/
theorem Upholds.safe {E' : Type} {R' : E' → Type} {L : Rg τ E' R'} {inj : E → E'}
    {back : ∀ e, R' (inj e) → R e} {I : τ → Prop} (hrely : ∀ t t', L.rely t t' → I t → I t')
    (hstep : ∀ s t e r t', G s e → I t → L.step t (inj e) r t' →
      M.ok s e (back e r) ∧ L.guar t (inj e) r t' ∧ I t')
    (h : M.Upholds G Q p s) (ht : I t) :
    L.Safe (fun a t => (∃ s, Q a s) ∧ I t) (p.lift inj back) t := by
  induction p generalizing s t with
  | ret a => exact fun t' ht' => ⟨⟨s, h⟩, hrely t t' ht' ht⟩
  | vis e k ih =>
    intro t₁ h₁ r t₂ hmove
    obtain ⟨hok, hguar, hnext⟩ := hstep s t₁ e r t₂ h.1 (hrely t t₁ h₁ ht) hmove
    exact ⟨hguar, ih _ (h.2 _ hok) hnext⟩

theorem Post.of {Q : α → τ → Prop} {r : Except ε α} (h : ∀ a, r = .ok a → Q a t) : Post Q r t := by
  cases r with
  | ok a => exact h a rfl
  | error e => trivial

theorem Post.imp {τ' : Type} {Q : α → τ → Prop} {Q' : α → τ' → Prop} {r : Except ε α} {t' : τ'}
    (h : Post Q r t) (himp : ∀ a, Q a t → Q' a t') : Post Q' r t' := by
  cases r with
  | ok a => exact himp a h
  | error e => trivial

/-- One effect among others. -/
theorem safe_perform {Q : R e → τ → Prop}
    (hstep : ∀ t₁, L.rely t t₁ → ∀ r t₂, L.step t₁ e r t₂ → L.guar t₁ e r t₂ ∧ Q r t₂)
    (hstable : ∀ r t₁ t₂, L.rely t₁ t₂ → Q r t₁ → Q r t₂) : L.Safe Q (perform e) t :=
  fun t₁ h₁ r t₂ hmove => ⟨(hstep t₁ h₁ r t₂ hmove).1, fun t₃ h₃ =>
    hstable r t₂ t₃ h₃ (hstep t₁ h₁ r t₂ hmove).2⟩

/-- Sequencing among others. -/
theorem safe_bind {Q : α → τ → Prop} {Q' : β → τ → Prop} {p : Fallible E R ε α}
    (h : L.Safe (Post Q) p t) (hf : ∀ a t, Q a t → L.Safe (Post Q') (f a) t) :
    L.Safe (Post Q') (p >>= f : Fallible E R ε β) t :=
  Rg.Safe.bindF h hf fun _ _ _ _ _ => trivial

/-- A call whose error is wrapped. -/
theorem safe_orElse {Q : α → τ → Prop} {p : Prog E R (Except δ α)} (h : L.Safe (Post Q) p t) :
    L.Safe (Post Q) (Fallible.orElse wrap p) t := by
  induction p generalizing t with
  | ret r =>
    cases r with
    | ok a => exact h
    | error e => exact fun _ _ => trivial
  | vis e k ih =>
    intro t₁ h₁ r t₂ hmove
    obtain ⟨hguar, hrest⟩ := h t₁ h₁ r t₂ hmove
    exact ⟨hguar, ih r hrest⟩

/-- A check, of what is at hand. -/
theorem safe_reject {I : τ → Prop} (bad : Bool) (e : ε) (hI : ∀ t', L.rely t t' → I t') :
    L.Safe (Post fun _ t' => bad = false ∧ I t') (Fallible.reject bad e : Fallible E R ε Unit)
      t := by
  cases bad with
  | true => exact fun _ _ => trivial
  | false => exact fun t' ht' => ⟨rfl, hI t' ht'⟩

/-! ## Over more effects

Where two programs with different effects meet, each has its monitor. -/

/-- Over more effects and a longer history, of which `put` fills in the part at hand. Only the
effects that are guarded have to agree. -/
theorem Upholds.lift {σ' E' : Type} {R' : E' → Type} {M' : Monitor σ' E' R'} {inj : E → E'}
    {back : ∀ e, R' (inj e) → R e} {G' : σ' → E' → Prop} {Q' : α → σ' → Prop} (put : σ → σ')
    (hok : ∀ s e r, G s e → M'.ok (put s) (inj e) r → M.ok s e (back e r))
    (hafter : ∀ s e r, G s e → M'.after (put s) (inj e) r = put (M.after s e (back e r)))
    (hG : ∀ s e, G s e → G' (put s) (inj e)) (hQ : ∀ a s, Q a s → Q' a (put s))
    (h : M.Upholds G Q p s) : M'.Upholds G' Q' (p.lift inj back) (put s) := by
  induction p generalizing s with
  | ret a => exact hQ a s h
  | vis e k ih =>
    refine ⟨hG s e h.1, ?_⟩
    intro r hr
    rw [hafter s e r h.1]
    exact ih _ (h.2 _ (hok s e r h.1 hr))

/-! ## Runs to the end

A guard says nothing about a program that waits for ever. In a world that answers, a program that
upholds its postcondition returns. -/

/-- What holds of a history and is kept by every effect holds wherever the program has come. -/
theorem Comes.keeps (hstep : ∀ s e r, I s → M.ok s e r → I (M.after s e r))
    (hcomes : M.Comes p s p' s') (hs : I s) : I s' := by
  induction hcomes with
  | here p s => exact hs
  | vis hok _ ih => exact ih (hstep _ _ _ hs hok)

/-- The same with fewer possible answers. -/
theorem Comes.weaken {M' : Monitor σ E R} (hok : ∀ s e r, M.ok s e r → M'.ok s e r)
    (hafter : M'.after = M.after) (hcomes : M.Comes p s p' s') : M'.Comes p s p' s' := by
  induction hcomes with
  | here p s => exact .here p s
  | vis hr _ ih =>
    refine .vis (hok _ _ _ hr) ?_
    rw [hafter]
    exact ih

/-- Wherever the program has come there is an answer by which it goes on, until it returns, and
there `Q` holds. A program has finitely many effects on each of its paths, so it does return. -/
def Yields (M : Monitor σ E R) (Q : α → σ → Prop) (p : Prog E R α) (s : σ) : Prop :=
  ∀ p' s', M.Comes p s p' s' →
    (∃ e k r, p' = .vis e k ∧ M.ok s' e r) ∨ ∃ a, p' = .ret a ∧ Q a s'

/-- A program that upholds its postcondition, in a world that answers. -/
theorem Upholds.yields (h : M.Upholds G Q p s) (hs : I s)
    (hstep : ∀ s e r, I s → M.ok s e r → I (M.after s e r)) (hlive : ∀ s e, I s → ∃ r, M.ok s e r) :
    M.Yields Q p s := by
  intro p' s' hcomes
  have hp' := h.comes hcomes
  cases p' with
  | ret a => exact .inr ⟨a, rfl, hp'⟩
  | vis e k =>
    obtain ⟨r, hr⟩ := hlive s' e (hcomes.keeps hstep hs)
    exact .inl ⟨e, k, r, rfl, hr⟩

/-- In a world that answers, a program comes to its return. -/
theorem Yields.returns (h : M.Yields Q p s) : ∃ a s', M.Comes p s (.ret a) s' ∧ Q a s' := by
  induction p generalizing s with
  | ret a =>
    rcases h _ _ (.here _ _) with ⟨e, k, r, hvis, -⟩ | ⟨b, hret, hQ⟩
    · cases hvis
    · cases hret
      exact ⟨a, s, .here _ _, hQ⟩
  | vis e k ih =>
    rcases h _ _ (.here _ _) with ⟨e', k', r, hvis, hr⟩ | ⟨b, hret, -⟩
    · cases hvis
      obtain ⟨a, s', hcomes, hQ⟩ := ih r fun p' s' hcomes => h p' s' (.vis hr hcomes)
      exact ⟨a, s', .vis hr hcomes, hQ⟩
    · cases hret

/-! ## A transcript by answers chosen in advance

For runs that are computed. -/

/-- The program and its history after `n` effects, answered by `oracle`. -/
def walk (M : Monitor σ E R) (oracle : σ → (e : E) → R e) :
    ℕ → Prog E R α → σ → Prog E R α × σ
  | n + 1, .vis e k, s => walk M oracle n (k (oracle s e)) (M.after s e (oracle s e))
  | _, p, s => (p, s)

theorem comes_walk {oracle : σ → (e : E) → R e} (hok : ∀ s e, M.ok s e (oracle s e)) (n : ℕ)
    (p : Prog E R α) (s : σ) : M.Comes p s (M.walk oracle n p s).1 (M.walk oracle n p s).2 := by
  induction n generalizing p s with
  | zero => cases p <;> exact .here _ _
  | succ n ih =>
    cases p with
    | ret a => exact .here _ _
    | vis e k => exact .vis (hok s e) (ih _ _)

end Monitor

end WasmRuntime
