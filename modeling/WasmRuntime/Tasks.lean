/-
Threads that may loop, each with its own rely and guarantee.

A looping thread is cut into blocks: the program of a block returns the block that comes next, or
none when the thread is done. A block that is reached again starts its program anew, so that a loop
may go round any number of times although every program is finite.

`Tasks.safe` is the rule for such threads. Each thread has its own logic, which may speak of the
thread by its name (who holds a lock, who owes something), and an invariant for the head of each of
its blocks. If every block is safe from its invariant, and what a thread guarantees is what all
others rely on, then the threads are safe together in every interleaving.
-/
import WasmRuntime.Prog

set_option autoImplicit false

namespace WasmRuntime

open Function

/-- Threads over a shared state. -/
structure Tasks (ι σ E : Type) (R : E → Type) (B : Type) where
  state : σ
  threads : ι → Prog E R (Option B)

namespace Tasks

variable {ι σ E : Type} {R : E → Type} {B : Type} [DecidableEq ι]

/-- One move: a thread performs its next effect or enters its next block, or the environment
acts. -/
inductive Step (step : ι → σ → (e : E) → R e → σ → Prop) (env : σ → σ → Prop)
    (body : B → Prog E R (Option B)) : Tasks ι σ E R B → Tasks ι σ E R B → Prop where
  | thread (T : Tasks ι σ E R B) (i : ι) (e : E) (k : R e → Prog E R (Option B)) (r : R e) (s : σ)
      (hi : T.threads i = .vis e k) (hs : step i T.state e r s) :
      Step step env body T ⟨s, update T.threads i (k r)⟩
  | again (T : Tasks ι σ E R B) (i : ι) (b : B) (hi : T.threads i = .ret (some b)) :
      Step step env body T ⟨T.state, update T.threads i (body b)⟩
  | env (T : Tasks ι σ E R B) (s : σ) (hs : env T.state s) : Step step env body T ⟨s, T.threads⟩

/-- Any number of moves. -/
def Run (step : ι → σ → (e : E) → R e → σ → Prop) (env : σ → σ → Prop)
    (body : B → Prog E R (Option B)) : Tasks ι σ E R B → Tasks ι σ E R B → Prop :=
  Relation.ReflTransGen (Step step env body)

variable {step : ι → σ → (e : E) → R e → σ → Prop} {env : σ → σ → Prop}
  {body : B → Prog E R (Option B)} {T T' : Tasks ι σ E R B} {L : ι → Rg σ E R} {Q : ι → σ → Prop}
  {J : ι → B → σ → Prop} {i : ι}

/-- A run that ends below a bound on something that only grows stays below it. -/
theorem Run.below (measure : σ → Nat) {bound : Nat}
    (hstep : ∀ i s e r s', step i s e r s' → measure s ≤ measure s')
    (henv : ∀ s s', env s s' → measure s ≤ measure s') (hrun : Run step env body T T')
    (hbound : measure T'.state < bound) :
    Run (fun i s e r s' => step i s e r s' ∧ measure s' < bound) env body T T' := by
  induction hrun with
  | refl => exact .refl
  | tail _ hlast ih =>
    cases hlast with
    | thread i e k r s hi hs =>
      have hle := hstep _ _ _ _ _ hs
      exact (ih (Nat.lt_of_le_of_lt hle hbound)).tail (.thread _ i e k r s hi ⟨hs, hbound⟩)
    | again i b hi => exact (ih hbound).tail (.again _ i b hi)
    | env s hs =>
      exact (ih (Nat.lt_of_le_of_lt (henv _ _ hs) hbound)).tail (.env _ s hs)

/-- What a thread's program ends in: its own postcondition, or the invariant of the block that
comes next. -/
def Post (Q : σ → Prop) (J : B → σ → Prop) : Option B → σ → Prop
  | none, s => Q s
  | some b, s => J b s

/-- What is needed of a family of logics for its threads to be put together. -/
structure Fits (L : ι → Rg σ E R) (env : σ → σ → Prop) (body : B → Prog E R (Option B))
    (Q : ι → σ → Prop) (J : ι → B → σ → Prop) : Prop where
  guar : ∀ i j, j ≠ i → ∀ s e r s', (L i).guar s e r s' → (L j).rely s s'
  env : ∀ j s s', env s s' → (L j).rely s s'
  body : ∀ i b s, J i b s → (L i).Safe (Post (Q i) (J i)) (body b) s

/-- Threads that are safe alone are safe together, in every interleaving. -/
theorem safe (hfits : Fits L env body Q J)
    (h : ∀ i, (L i).Safe (Post (Q i) (J i)) (T.threads i) T.state)
    (hrun : Run (fun i => (L i).step) env body T T') :
    ∀ i, (L i).Safe (Post (Q i) (J i)) (T'.threads i) T'.state := by
  induction hrun with
  | refl => exact h
  | tail _ hstep ih =>
    cases hstep with
    | thread i e k r s hi hs =>
      -- The moving thread is safe by its own proof, the others by stability.
      have hthis := ih i
      rw [hi] at hthis
      obtain ⟨hg, hnext⟩ := hthis _ ((L i).rely_refl _) r s hs
      intro j
      by_cases hj : j = i
      · subst hj
        simpa using hnext
      · have hrely := hfits.guar i j hj _ _ _ _ hg
        simpa [update_of_ne hj] using (ih j).stable hrely
    | again i b hi =>
      have hthis := ih i
      rw [hi] at hthis
      have hblock := hfits.body i b _ (hthis _ ((L i).rely_refl _))
      intro j
      by_cases hj : j = i
      · subst hj
        simpa using hblock
      · simpa [update_of_ne hj] using ih j
    | env s hs => exact fun j => (ih j).stable (hfits.env j _ _ hs)

/-- A thread that has returned has met its postcondition. -/
theorem returned (hfits : Fits L env body Q J)
    (h : ∀ i, (L i).Safe (Post (Q i) (J i)) (T.threads i) T.state)
    (hrun : Run (fun i => (L i).step) env body T T') (hi : T'.threads i = .ret none) :
    Q i T'.state := by
  have hsafe := safe hfits h hrun i
  rw [hi] at hsafe
  exact hsafe _ ((L i).rely_refl _)

/-- A thread that is about to perform an effect meets the guarantee it gives for it. -/
theorem about_to (hfits : Fits L env body Q J)
    (h : ∀ i, (L i).Safe (Post (Q i) (J i)) (T.threads i) T.state)
    (hrun : Run (fun i => (L i).step) env body T T') {e : E} {k : R e → Prog E R (Option B)}
    (hi : T'.threads i = .vis e k) {r : R e} {s : σ} (hs : (L i).step T'.state e r s) :
    (L i).guar T'.state e r s := by
  have hsafe := safe hfits h hrun i
  rw [hi] at hsafe
  exact (hsafe _ ((L i).rely_refl _) r s hs).1

/-! ## Schedules

A run can be computed from a list that says who moves next, in a world whose answers are
determined, although an answer may have to wait. -/

/-- One move of a thread: its next effect or its next block. -/
def move (answer : ι → σ → (e : E) → Option (R e × σ)) (body : B → Prog E R (Option B))
    (T : Tasks ι σ E R B) (i : ι) : Option (Tasks ι σ E R B) :=
  match T.threads i with
  | .vis e k =>
    (answer i T.state e).map fun r => ⟨r.2, update T.threads i (k r.1)⟩
  | .ret (some b) => some ⟨T.state, update T.threads i (body b)⟩
  | .ret none => some T

/-- The moves of a schedule, one after the other. -/
def follow (answer : ι → σ → (e : E) → Option (R e × σ)) (body : B → Prog E R (Option B))
    (T : Tasks ι σ E R B) (schedule : List ι) : Option (Tasks ι σ E R B) :=
  schedule.foldlM (move answer body) T

/-- If the world answers as its threads' steps allow, a schedule makes a run. -/
theorem follow_run {answer : ι → σ → (e : E) → Option (R e × σ)}
    (hanswer : ∀ i s e r s', answer i s e = some (r, s') → step i s e r s') {schedule : List ι}
    (h : follow answer body T schedule = some T') : Run step env body T T' := by
  induction schedule generalizing T with
  | nil =>
    cases h
    exact .refl
  | cons i rest ih =>
    obtain ⟨T₁, hmove, hrest⟩ := Option.bind_eq_some_iff.mp h
    unfold move at hmove
    split at hmove
    · obtain ⟨r, hr, rfl⟩ := Option.map_eq_some_iff.mp hmove
      exact .head (.thread T i _ _ _ _ (by assumption) (hanswer _ _ _ _ _ hr)) (ih hrest)
    · cases hmove
      exact .head (.again T i _ (by assumption)) (ih hrest)
    · cases hmove
      exact ih hrest

/-- What a thread has come to: the block that comes next. -/
def result (T : Tasks ι σ E R B) (i : ι) : Option B :=
  match T.threads i with
  | .ret b => b
  | .vis _ _ => none

omit [DecidableEq ι] in
theorem threads_of_result {T : Tasks ι σ E R B} {i : ι} {b : B} (h : T.result i = some b) :
    T.threads i = .ret (some b) := by
  unfold result at h
  split at h
  · subst h
    assumption
  · cases h

/-! ## The text of a thread

What a thread may come to whatever the others do. -/

/-- Every effect that a text may come to is one of `P`, and every block it may go on with is
one of `K`. -/
def Text (P : E → Prop) (K : B → Prop) : Prog E R (Option B) → Prop
  | .ret none => True
  | .ret (some b) => K b
  | .vis e k => P e ∧ ∀ r, Text P K (k r)

omit [DecidableEq ι] in
theorem Text.bind {α : Type} {P : E → Prop} {K : B → Prop} {p : Prog E R α}
    {f : α → Prog E R (Option B)} (hp : p.Only P) (hf : ∀ a, Text P K (f a)) :
    Text P K (p >>= f) := by
  induction p with
  | ret a => exact hf a
  | vis e k ih => exact ⟨hp.1, fun r => ih r (hp.2 r)⟩

omit [DecidableEq ι] in
theorem Text.mono {P P' : E → Prop} {K : B → Prop} (hP : ∀ e, P e → P' e)
    {p : Prog E R (Option B)} (h : Text P K p) : Text P' K p := by
  induction p with
  | ret b =>
    cases b with
    | none => exact trivial
    | some b => exact h
  | vis e k ih => exact ⟨hP e h.1, fun r => ih r (h.2 r)⟩

/-- A thread keeps to its text. -/
theorem text {P : E → Prop} {K : B → Prop} (hbody : ∀ b, K b → Text P K (body b))
    (hrun : Run step env body T T') (h : Text P K (T.threads i)) : Text P K (T'.threads i) := by
  induction hrun with
  | refl => exact h
  | tail _ hstep ih =>
    cases hstep with
    | thread j e k r s hj hs =>
      by_cases hi : i = j
      · subst hi
        rw [hj] at ih
        simpa using ih.2 r
      · simpa [update_of_ne hi] using ih
    | again j b hj =>
      by_cases hi : i = j
      · subst hi
        rw [hj] at ih
        simpa using hbody b ih
      · simpa [update_of_ne hi] using ih
    | env s hs => exact ih

end Tasks

end WasmRuntime
