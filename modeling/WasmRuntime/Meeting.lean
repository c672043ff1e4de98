/-
Two programs that talk to each other.

Each has its own effects and is judged by its own history, as in `Monitor`. What lies between them
(pipes, sockets, shared files) has no state here: everything that was put into it is in one history
and everything that was taken out of it in the other, so a `Meeting` only says which answers are
possible when the histories are these. `Reaches` interleaves the two in any way. Either side may
stop at any point, so a crash is a run in which one of them makes no more steps.

The reasoning is in `Reaches.invariant`. Each side upholds its guard whatever the other does, which
is shown of the side alone. An invariant that relates the two histories may use both guards: it has
to be kept by each guarded effect that the meeting allows.
-/
import WasmRuntime.Monitor

set_option autoImplicit false

namespace WasmRuntime

/-- What lies between two programs. -/
structure Meeting (σ E : Type) (R : E → Type) (τ F : Type) (S : F → Type) where
  left : Monitor σ E R
  right : Monitor τ F S
  leftOk : σ → τ → (e : E) → R e → Prop
  rightOk : σ → τ → (f : F) → S f → Prop

namespace Meeting

variable {σ E τ F α β : Type} {R : E → Type} {S : F → Type}

/-- From `p` and `q`, with histories `s` and `t`, the two come to be where they are. -/
inductive Reaches (M : Meeting σ E R τ F S) (p : Prog E R α) (s : σ) (q : Prog F S β) (t : τ) :
    Prog E R α → σ → Prog F S β → τ → Prop where
  | start : Reaches M p s q t p s q t
  | left {e : E} {k : R e → Prog E R α} {r : R e} {s' : σ} {q' : Prog F S β} {t' : τ}
      (before : Reaches M p s q t (.vis e k) s' q' t') (hok : M.left.ok s' e r)
      (hmeet : M.leftOk s' t' e r) : Reaches M p s q t (k r) (M.left.after s' e r) q' t'
  | right {f : F} {k : S f → Prog F S β} {r : S f} {p' : Prog E R α} {s' : σ} {t' : τ}
      (before : Reaches M p s q t p' s' (.vis f k) t') (hok : M.right.ok t' f r)
      (hmeet : M.rightOk s' t' f r) : Reaches M p s q t p' s' (k r) (M.right.after t' f r)

variable {M : Meeting σ E R τ F S} {p p' : Prog E R α} {s s' : σ} {q q' : Prog F S β} {t t' : τ}
  {G : σ → E → Prop} {G' : τ → F → Prop} {Q : α → σ → Prop} {Q' : β → τ → Prop}

/-- Wherever the two have come, the left side still upholds its guard. -/
theorem Reaches.upholds_left (hreach : M.Reaches p s q t p' s' q' t')
    (h : M.left.Upholds G Q p s) : M.left.Upholds G Q p' s' := by
  induction hreach with
  | start => exact h
  | left _ hok _ ih => exact ih.2 _ hok
  | right _ _ _ ih => exact ih

/-- And so does the right side. -/
theorem Reaches.upholds_right (hreach : M.Reaches p s q t p' s' q' t')
    (h : M.right.Upholds G' Q' q t) : M.right.Upholds G' Q' q' t' := by
  induction hreach with
  | start => exact h
  | left _ _ _ ih => exact ih
  | right _ hok _ ih => exact ih.2 _ hok

/-- What holds of the two histories at the start and is kept by the guarded effects of both sides
holds wherever they have come. -/
theorem Reaches.invariant {I : σ → τ → Prop} (hreach : M.Reaches p s q t p' s' q' t')
    (hleft : M.left.Upholds G Q p s) (hright : M.right.Upholds G' Q' q t) (hstart : I s t)
    (hkeep : ∀ s t e r, I s t → G s e → M.leftOk s t e r → I (M.left.after s e r) t)
    (hkeep' : ∀ s t f r, I s t → G' t f → M.rightOk s t f r → I s (M.right.after t f r)) :
    I s' t' := by
  induction hreach with
  | start => exact hstart
  | left before hok hmeet ih => exact hkeep _ _ _ _ ih (before.upholds_left hleft).1 hmeet
  | right before hok hmeet ih => exact hkeep' _ _ _ _ ih (before.upholds_right hright).1 hmeet

/-- The right side may be judged by a monitor that is more exact than the meeting's, as long as the
meeting gives the answers that monitor allows. It may use what is known at the end of the run of the
left side's history, if it was known all along (`hback`). -/
theorem Reaches.upholds_right_of {N : Monitor τ F S} {I : σ → τ → Prop} {K : σ → Prop}
    (hreach : M.Reaches p s q t p' s' q' t') (hleft : M.left.Upholds G Q p s)
    (hright : N.Upholds G' Q' q t) (hafter : M.right.after = N.after)
    (hinv : ∀ p' s' q' t', M.Reaches p s q t p' s' q' t' → I s' t')
    (hback : ∀ s e r, G s e → K (M.left.after s e r) → K s)
    (hok : ∀ s t f r, I s t → K s → G' t f → M.rightOk s t f r → N.ok t f r)
    (hend : K s') : N.Upholds G' Q' q' t' := by
  induction hreach with
  | start => exact hright
  | left before _ _ ih => exact ih (hback _ _ _ (before.upholds_left hleft).1 hend)
  | right before _ hmeet ih =>
    have hvis := ih hend
    rw [hafter]
    exact hvis.2 _ (hok _ _ _ _ (hinv _ _ _ _ before) hend hvis.1 hmeet)

/-! ## A run by answers chosen in advance

To show that there are runs at all: a function answers each side, and a list says whose turn it
is. -/

/-- Where the two come to when the sides take turns as `turns` says, `true` for the left. A side
that is given no answer waits. -/
def walk (M : Meeting σ E R τ F S) (answer : σ → τ → (e : E) → Option (R e))
    (answer' : σ → τ → (f : F) → Option (S f)) :
    List Bool → Prog E R α → σ → Prog F S β → τ → Prog E R α × σ × Prog F S β × τ
  | true :: turns, .vis e k, s, q, t =>
    match answer s t e with
    | some r => walk M answer answer' turns (k r) (M.left.after s e r) q t
    | none => walk M answer answer' turns (.vis e k) s q t
  | false :: turns, p, s, .vis f k, t =>
    match answer' s t f with
    | some r => walk M answer answer' turns p s (k r) (M.right.after t f r)
    | none => walk M answer answer' turns p s (.vis f k) t
  | _ :: turns, p, s, q, t => walk M answer answer' turns p s q t
  | [], p, s, q, t => (p, s, q, t)

/-- The answers have to be possible ones, wherever the two come by them. -/
theorem Reaches.walk {I : σ → τ → Prop} {answer : σ → τ → (e : E) → Option (R e)}
    {answer' : σ → τ → (f : F) → Option (S f)}
    (hanswer : ∀ s t e r, I s t → answer s t e = some r →
      M.left.ok s e r ∧ M.leftOk s t e r ∧ I (M.left.after s e r) t)
    (hanswer' : ∀ s t f r, I s t → answer' s t f = some r →
      M.right.ok t f r ∧ M.rightOk s t f r ∧ I s (M.right.after t f r))
    (turns : List Bool) (hreach : M.Reaches p s q t p' s' q' t') (hI : I s' t') :
    M.Reaches p s q t (M.walk answer answer' turns p' s' q' t').1
      (M.walk answer answer' turns p' s' q' t').2.1 (M.walk answer answer' turns p' s' q' t').2.2.1
      (M.walk answer answer' turns p' s' q' t').2.2.2 := by
  induction turns generalizing p' s' q' t' with
  | nil => cases p' <;> cases q' <;> exact hreach
  | cons turn turns ih =>
    cases turn with
    | true =>
      cases p' with
      | ret a => cases q' <;> exact ih hreach hI
      | vis e k =>
        unfold Meeting.walk
        cases hr : answer s' t' e with
        | none => exact ih hreach hI
        | some r =>
          obtain ⟨hok, hmeet, hnext⟩ := hanswer s' t' e r hI hr
          exact ih (.left hreach hok hmeet) hnext
    | false =>
      cases q' with
      | ret b => cases p' <;> exact ih hreach hI
      | vis f k =>
        unfold Meeting.walk
        cases hr : answer' s' t' f with
        | none => cases p' <;> exact ih hreach hI
        | some r =>
          obtain ⟨hok, hmeet, hnext⟩ := hanswer' s' t' f r hI hr
          cases p' <;> exact ih (.right hreach hok hmeet) hnext

end Meeting

end WasmRuntime
