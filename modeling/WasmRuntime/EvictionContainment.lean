/-
Whom an idle eviction concerns.

Two runs of one schedule are compared, with the same commands and the same calls on their handles,
none of which cancels anything. In the second the command `e` is spared: where it comes to evict
itself it stays suspended. The question is whether another command `j` can tell, that is, whether
the decisions of its epoch callback are the same in both.
-/
import WasmRuntime.Interruptions

set_option autoImplicit false

namespace WasmRuntime.Invoke

open Cache Prog Token Function

section Containment

variable {ι τ : Type} [DecidableEq ι] [DecidableEq τ] (F : Commands ι τ)

/-! ## The two runs

`PauseToken::evict` cancels the token that came with the input of the command, and that token is the
caller's. -/

/-- The calls that do not cancel. -/
def patient : CommandCall → Bool
  | .pause | .resume | .state => true
  | .cancel | .drop => false

/-- The caller never cancels. -/
def Patient (calls : ι → ℕ → List CommandCall) : Prop := ∀ i k, ∀ c ∈ calls i k, patient c = true

/-- What the epoch callback of command `j` decides in the course of a run. -/
def decisions (spared : Option ι) (calls : ι → ℕ → List CommandCall) (schedule : List (Event ι))
    (j : ι) : List (Bool × UpdateDeadline) :=
  ((Machine.run F spared calls schedule).state.record j).decisions

/-- Command `j` cannot tell whether command `e` is evicted. -/
def Contained (e j : ι) : Prop :=
  ∀ calls, Patient calls → ∀ schedule : List (Event ι),
    decisions F none calls schedule j = decisions F (some e) calls schedule j

/-- The command gets past the checks on its input. -/
structure Command.Accepted (c : Command) : Prop where
  input : c.input.stdin.length ≤ c.max_input_bytes
  timeout_pos : 0 < c.input.timeout
  timeout_le : c.input.timeout ≤ c.max_timeout

/-! ## One thread on its own

What a thread does to its own command needs nothing of the others, so it can be computed apart. -/

/-- A move of a thread, as far as its own command is concerned; the thread is barred from
evicting if its command is spared. -/
def turn (w : Outside) (me : Thread ι) (barred : Bool) :
    InvokeBlockM × Local (Thread ι) → InvokeBlockM × Local (Thread ι)
  | (.vis op k, l) =>
    if !op.enabled l || (barred && op.evicts) then (.vis op k, l)
    else (k (op.run w me l).1, (op.run w me l).2)
  | (.ret (some block), l) => (block.body, l)
  | (.ret none, l) => (.ret none, l)

/-- Any number of moves. -/
def turns (w : Outside) (me : Thread ι) (barred : Bool) (n : ℕ) :
    InvokeBlockM × Local (Thread ι) → InvokeBlockM × Local (Thread ι) := (turn w me barred)^[n]

omit [DecidableEq ι] in
theorem turns_add (w : Outside) (me : Thread ι) (barred : Bool) (m n : ℕ)
    (x : InvokeBlockM × Local (Thread ι)) :
    turns w me barred (m + n) x = turns w me barred m (turns w me barred n x) :=
  iterate_add_apply _ m n x

omit [DecidableEq ι] in
theorem turn_clock (w : Outside) (me : Thread ι) (barred : Bool)
    (x : InvokeBlockM × Local (Thread ι)) : (turn w me barred x).2.clock = x.2.clock := by
  obtain ⟨p, l⟩ := x
  cases p with
  | ret b => cases b <;> rfl
  | vis op k =>
    rw [turn]
    split
    · rfl
    · exact op.run_clock w me l

omit [DecidableEq ι] in
theorem turns_clock (w : Outside) (me : Thread ι) (barred : Bool) (n : ℕ)
    (x : InvokeBlockM × Local (Thread ι)) : (turns w me barred n x).2.clock = x.2.clock := by
  induction n generalizing x with
  | zero => rfl
  | succ n ih => exact (ih _).trans (turn_clock w me barred x)

/-- What is put back changes nothing. -/
theorem put_view (s : System ι τ) (i : ι) : s.put F i (s.view F i) = s := by
  unfold System.put System.view
  simp only [update_eq_self]

/-- A move of a thread is one of these. -/
theorem move_eq (spared : Option ι) (who : Thread ι) (w : Outside) (T : Machine ι τ) :
    Machine.move F spared who w T =
      ⟨T.state.put F who.owner (turn w who (decide (spared = some who.owner))
          (T.threads who, T.state.view F who.owner)).2,
        update T.threads who (turn w who (decide (spared = some who.owner))
          (T.threads who, T.state.view F who.owner)).1⟩ := by
  rw [Machine.move.eq_def]
  cases hthread : T.threads who with
  | ret b =>
    cases b with
    | none =>
      show T = ⟨T.state.put F who.owner (T.state.view F who.owner),
        update T.threads who (.ret none)⟩
      rw [put_view, ← hthread, update_eq_self]
    | some block =>
      show _ = (⟨T.state.put F who.owner (T.state.view F who.owner), _⟩ : Machine ι τ)
      rw [put_view]
      rfl
  | vis op k =>
    dsimp only [turn]
    unfold Machine.stays
    split
    · rw [put_view, ← hthread, update_eq_self]
    · rfl

/-! ## Commands with another token

If `j` has another token, it cannot tell: nothing that the operations on `j` read or write is
touched by the commands that share the token of `e` (`Alike`). -/

/-- Functions that agree somewhere still do after the same update. -/
theorem update_eq_at {α β : Type} [DecidableEq α] {f g : α → β} {x : α} (h : f x = g x) (a : α)
    (v : β) : update f a v x = update g a v x := by
  by_cases hx : x = a
  · rw [hx, update_self, update_self]
  · rw [update_of_ne hx, update_of_ne hx, h]

/-- The runs agree on every command whose token is not that of `e`. -/
structure Alike (e : ι) (T T' : Machine ι τ) : Prop where
  clock : T.state.clock = T'.state.clock
  pause : ∀ i, F.token i ≠ F.token e → T.state.pause i = T'.state.pause i
  record : ∀ i, F.token i ≠ F.token e → T.state.record i = T'.state.record i
  cancellation : ∀ t, t ≠ F.token e → T.state.cancellation t = T'.state.cancellation t
  threads : ∀ who : Thread ι, F.token who.owner ≠ F.token e → T.threads who = T'.threads who

variable {F} {e : ι} {T T' T'' : Machine ι τ}

omit [DecidableEq ι] [DecidableEq τ] in
theorem Alike.refl (e : ι) (T : Machine ι τ) : Alike F e T T :=
  ⟨rfl, fun _ _ => rfl, fun _ _ => rfl, fun _ _ => rfl, fun _ _ => rfl⟩

omit [DecidableEq ι] [DecidableEq τ] in
theorem Alike.symm (h : Alike F e T T') : Alike F e T' T :=
  ⟨h.clock.symm, fun i hi => (h.pause i hi).symm, fun i hi => (h.record i hi).symm,
    fun t ht => (h.cancellation t ht).symm, fun who hwho => (h.threads who hwho).symm⟩

omit [DecidableEq ι] [DecidableEq τ] in
theorem Alike.trans (h : Alike F e T T') (h' : Alike F e T' T'') : Alike F e T T'' :=
  ⟨h.clock.trans h'.clock, fun i hi => (h.pause i hi).trans (h'.pause i hi),
    fun i hi => (h.record i hi).trans (h'.record i hi),
    fun t ht => (h.cancellation t ht).trans (h'.cancellation t ht),
    fun who hwho => (h.threads who hwho).trans (h'.threads who hwho)⟩

omit [DecidableEq ι] [DecidableEq τ] in
/-- Who has another token sees no difference. -/
theorem Alike.view (h : Alike F e T T') {i : ι} (hi : F.token i ≠ F.token e) :
    T.state.view F i = T'.state.view F i := by
  unfold System.view
  rw [h.pause i hi, h.record i hi, h.cancellation _ hi, h.clock]

/-- The state and the thread after a move of one thread. -/
theorem alike_update (h : Alike F e T T') (who : Thread ι) (l : Local (Thread ι))
    (p : InvokeBlockM) :
    Alike F e ⟨T.state.put F who.owner l, update T.threads who p⟩
      ⟨T'.state.put F who.owner l, update T'.threads who p⟩ where
  clock := h.clock
  pause i hi := update_eq_at (h.pause i hi) _ _
  record i hi := update_eq_at (h.record i hi) _ _
  cancellation t ht := update_eq_at (h.cancellation t ht) _ _
  threads other hother := update_eq_at (h.threads other hother) _ _

/-- A thread of a command with the token of `e` touches no other command. -/
theorem alike_update_own {who : Thread ι} (hwho : F.token who.owner = F.token e)
    (T : Machine ι τ) (l : Local (Thread ι)) (p : InvokeBlockM) :
    Alike F e T ⟨T.state.put F who.owner l, update T.threads who p⟩ := by
  have hne : ∀ i, F.token i ≠ F.token e → i ≠ who.owner := by
    rintro i hi rfl
    exact hi hwho
  refine ⟨rfl, ?_, ?_, ?_, ?_⟩
  · intro i hi
    exact (update_of_ne (hne i hi) l.pause T.state.pause).symm
  · intro i hi
    exact (update_of_ne (hne i hi) l.record T.state.record).symm
  · intro t ht
    exact (update_of_ne (hwho.symm ▸ ht) l.cancellation T.state.cancellation).symm
  · intro other hother
    have hother : other ≠ who := by
      rintro rfl
      exact hother hwho
    exact (update_of_ne hother p T.threads).symm

/-- An event of the schedule, in the run with the eviction and in the run without. -/
theorem alike_step (h : Alike F e T T') (event : Event ι) :
    Alike F e (Machine.step F none T event) (Machine.step F (some e) T' event) := by
  cases event with
  | clock now random =>
    refine ⟨?_, h.pause, h.record, h.cancellation, h.threads⟩
    show (⟨max T.state.clock.now now, random⟩ : Clock) = ⟨max T'.state.clock.now now, random⟩
    rw [h.clock]
  | thread who w =>
    rw [Machine.step, Machine.step, move_eq, move_eq]
    by_cases hwho : F.token who.owner = F.token e
    · exact (alike_update_own hwho T _ _).symm.trans (h.trans (alike_update_own hwho T' _ _))
    · -- The thread is not one of the spared command, and sees the same in both runs.
      have hbarred : decide (some e = some who.owner)
          = decide ((none : Option ι) = some who.owner) := by
        simp only [reduceCtorEq, decide_false, decide_eq_false_iff_not, Option.some.injEq]
        rintro rfl
        exact hwho rfl
      rw [hbarred, ← h.threads who hwho, ← h.view hwho]
      exact alike_update h who _ _

/-- In whole runs. -/
theorem alike_run (e : ι) (calls : ι → ℕ → List CommandCall) (schedule : List (Event ι)) :
    Alike F e (Machine.run F none calls schedule) (Machine.run F (some e) calls schedule) := by
  induction schedule using List.reverseRecOn with
  | nil => exact .refl e _
  | append_singleton schedule event ih =>
    rw [Machine.run_append, Machine.run_append]
    exact alike_step ih event

/-- With another token nothing can be told. -/
theorem contained_of_token_ne {j : ι} (h : F.token j ≠ F.token e) : Contained F e j := by
  intro calls _ schedule
  unfold decisions
  rw [(alike_run e calls schedule).record j h]

/-! ## Commands that are refused

The only exception: commands that are refused before their guest is executed have no callback and no
eviction. -/

/-- Operations that neither evict nor tell a decision. -/
def Tame : InvokeOp → Prop
  | .command (.token .store_evicted) | .update_deadline _ => False
  | _ => True

theorem InvokeOp.Quiet.tame {op : InvokeOp} (h : op.Quiet) : Tame op := by
  cases op with
  | command op =>
    cases op with
    | token op =>
      cases op with
      | store_evicted => exact h
      | _ => exact trivial
    | _ => exact trivial
  | update_deadline decision => exact h
  | _ => exact trivial

theorem Tame.evicts {op : InvokeOp} (h : Tame op) : op.evicts = false := by
  cases op with
  | command op =>
    cases op with
    | token op =>
      cases op with
      | store_evicted => exact h.elim
      | _ => rfl
    | _ => rfl
  | _ => rfl

omit [DecidableEq ι] in
/-- It decides nothing. -/
theorem Tame.decisions {op : InvokeOp} (h : Tame op) (w : Outside) (me : Thread ι)
    (l : Local (Thread ι)) : (op.run w me l).2.record.decisions = l.record.decisions := by
  cases op with
  | command op => cases op <;> rfl
  | guest a =>
    show (l.record.executed a (w.guest a)).decisions = _
    cases w.guest a <;> rfl
  | update_deadline decision => exact h.elim
  | _ => rfl

/-- The task of a refused command returns at once. -/
theorem start_refused {c : Command} (h : ¬ c.Accepted) :
    Tasks.Text Tame (fun _ => False) c.start := by
  have hfinish : ∀ error : Error, Tasks.Text Tame (fun _ => False) (finish (.error error)) := by
    intro error
    unfold finish
    split
    · exact ⟨trivial, fun _ => ⟨trivial, fun _ => trivial⟩⟩
    · exact ⟨trivial, fun _ => trivial⟩
  unfold Command.start Command.run_controlled
  rw [Fallible.reject_bind]
  by_cases hinput : c.input.stdin.length > c.max_input_bytes
  · rw [if_pos (decide_eq_true hinput)]
    exact hfinish (.Limit "input bytes")
  · rw [if_neg (by simpa using hinput), Fallible.reject_bind]
    have htimeout : (decide (c.input.timeout = 0) || decide (c.input.timeout > c.max_timeout))
        = true := by
      rw [Bool.or_eq_true, decide_eq_true_iff, decide_eq_true_iff]
      by_contra hnot
      exact h ⟨by omega, by omega, by omega⟩
    rw [if_pos htimeout]
    exact hfinish (.Limit "timeout")

/-- No thread of a refused command ever evicts or tells a decision. -/
theorem refused_text {i : ι} (h : ¬ (F.command i).Accepted) (spared : Option ι)
    (calls : ι → ℕ → List CommandCall) (schedule : List (Event ι)) {who : Thread ι}
    (hwho : who.owner = i) :
    Tasks.Text Tame (fun _ => False) ((Machine.run F spared calls schedule).threads who) := by
  refine Tasks.text (fun _ hfalse => hfalse.elim) (run_run F spared calls schedule) ?_
  cases who with
  | task i' =>
    cases hwho
    exact start_refused h
  | caller i' k =>
    exact Tasks.Text.mono (fun _ hquiet => hquiet.tame) (perform_calls_text (calls i' k))

/-- The event is the turn of a thread of `e` that has come to evict. -/
def Evicting (e : ι) (T : Machine ι τ) : Event ι → Prop
  | .clock _ _ => False
  | .thread who _ => who.owner = e ∧ ∃ op k, T.threads who = .vis op k ∧ op.evicts = true

/-- Where `e` does not come to evict, there is nothing to be spared. -/
theorem run_spared_same {e : ι} {calls : ι → ℕ → List CommandCall} {schedule : List (Event ι)}
    (h : ∀ before event after, schedule = before ++ event :: after →
      ¬ Evicting e (Machine.run F none calls before) event) :
    Machine.run F none calls schedule = Machine.run F (some e) calls schedule := by
  induction schedule using List.reverseRecOn with
  | nil => rfl
  | append_singleton schedule event ih =>
    have hlast := h schedule event [] rfl
    rw [Machine.run_append, Machine.run_append, ← ih fun before event' after hsplit =>
        h before event' (after ++ [event]) (by rw [hsplit]; simp),
      List.foldl_cons, List.foldl_cons, List.foldl_nil, List.foldl_nil]
    cases event with
    | clock now random => rfl
    | thread who w =>
      rw [Machine.step, Machine.step, move_eq, move_eq]
      by_cases hwho : who.owner = e
      · cases hthread : (Machine.run F none calls schedule).threads who with
        | ret b => cases b <;> rfl
        | vis op k =>
          have hevicts : op.evicts = false := by
            by_contra hevicts
            exact hlast ⟨hwho, op, k, hthread, Bool.eq_true_of_not_eq_false hevicts⟩
          simp only [turn, hevicts, Bool.and_false]
      · have hbarred : decide (some e = some who.owner) = false := by
          simpa using Ne.symm hwho
        rw [hbarred]
        rfl

/-- A command that is refused never comes to it. -/
theorem run_spared_refused (h : ¬ (F.command e).Accepted) (calls : ι → ℕ → List CommandCall)
    (schedule : List (Event ι)) :
    Machine.run F none calls schedule = Machine.run F (some e) calls schedule := by
  refine run_spared_same fun before event _ _ hevicting => ?_
  cases event with
  | clock now random => exact hevicting
  | thread who w =>
    obtain ⟨hwho, op, k, hthread, hevicts⟩ := hevicting
    have htext := refused_text h none calls before hwho
    rw [hthread] at htext
    exact absurd (htext.1.evicts.symm.trans hevicts) (by decide)

/-- One that is refused has no decisions. -/
theorem decisions_refused {j : ι} (h : ¬ (F.command j).Accepted) (spared : Option ι)
    (calls : ι → ℕ → List CommandCall) (schedule : List (Event ι)) :
    decisions F spared calls schedule j = [] := by
  induction schedule using List.reverseRecOn with
  | nil => rfl
  | append_singleton schedule event ih =>
    unfold decisions at ih ⊢
    rw [Machine.run_append, List.foldl_cons, List.foldl_nil]
    cases event with
    | clock now random => exact ih
    | thread who w =>
      rw [Machine.step, move_eq]
      by_cases hwho : who.owner = j
      · have htext := refused_text h spared calls schedule hwho
        subst hwho
        refine Eq.trans (congrArg Record.decisions (update_self ..)) ?_
        cases hthread : (Machine.run F spared calls schedule).threads who with
        | ret b => cases b <;> exact ih
        | vis op k =>
          rw [hthread] at htext
          -- The text of a refused command has no operation that is a decision.
          rw [turn]
          split
          · exact ih
          · exact (htext.1.decisions w who _).trans ih
      · exact (congrArg Record.decisions (update_of_ne (Ne.symm hwho) _ _)).trans ih

/-- Nor can it if either was refused. -/
theorem contained_of_refused {j : ι}
    (h : ¬ ((F.command e).Accepted ∧ (F.command j).Accepted)) : Contained F e j := by
  intro calls _ schedule
  by_cases he : (F.command e).Accepted
  · have hj : ¬ (F.command j).Accepted := fun hj => h ⟨he, hj⟩
    rw [decisions_refused hj, decisions_refused hj]
  · unfold decisions
    rw [run_spared_refused he]

/-! ## Two commands with one token

If `j` has a clone of the token, all that it sees of `e` is what becomes of the token. -/

theorem put_put (s : System ι τ) (i : ι) (l l' : Local (Thread ι)) :
    (s.put F i l).put F i l' = s.put F i l' := by
  unfold System.put
  simp only [update_idem]

/-- A command sees of what the other does only what becomes of the token. -/
theorem view_put_shared (s : System ι τ) {i j : ι} (hj : j ≠ i) (htoken : F.token j = F.token i)
    (l : Local (Thread ι)) :
    (s.put F i l).view F j = { s.view F j with cancellation := l.cancellation } := by
  unfold System.view System.put
  simp only [update_of_ne hj, htoken, update_self]

/-- A number of moves of one thread. -/
theorem moves_eq (spared : Option ι) (who : Thread ι) (w : Outside) (n : ℕ) (T : Machine ι τ) :
    (List.replicate n (Event.thread who w)).foldl (Machine.step F spared) T =
      ⟨T.state.put F who.owner (turns w who (decide (spared = some who.owner)) n
          (T.threads who, T.state.view F who.owner)).2,
        update T.threads who (turns w who (decide (spared = some who.owner)) n
          (T.threads who, T.state.view F who.owner)).1⟩ := by
  induction n generalizing T with
  | zero =>
    show T = ⟨T.state.put F who.owner (T.state.view F who.owner),
      update T.threads who (T.threads who)⟩
    rw [put_view, update_eq_self]
  | succ n ih =>
    rw [List.replicate_succ, List.foldl_cons, ih, Machine.step, move_eq]
    dsimp only
    rw [view_put F (turn_clock w who _ _), put_put, update_self, update_idem]
    rfl

/-- What they leave behind: the thread itself, the others, its command, and another one with the
same token. -/
theorem moved {a : ι} (who : Thread ι) (howner : who.owner = a) {p p₁ : InvokeBlockM}
    {l l₁ : Local (Thread ι)} (hthread : T.threads who = p) (hview : T.state.view F a = l)
    (w : Outside) (spared : Option ι) {n : ℕ}
    (hturns : turns w who (decide (spared = some a)) n (p, l) = (p₁, l₁)) (hT :
      T' = (List.replicate n (Event.thread who w)).foldl (Machine.step F spared) T) :
    T'.threads who = p₁ ∧ (∀ other ≠ who, T'.threads other = T.threads other) ∧
      T'.state.view F a = l₁ ∧ ∀ b ≠ a, F.token b = F.token a →
        T'.state.view F b = { T.state.view F b with cancellation := l₁.cancellation } := by
  subst howner hthread hview
  have hclock : l₁.clock = T.state.clock := by
    have h := turns_clock w who (decide (spared = some who.owner)) n
      (T.threads who, T.state.view F who.owner)
    rw [hturns] at h
    exact h
  rw [moves_eq, hturns] at hT
  subst hT
  refine ⟨update_self .., fun other hother => update_of_ne hother _ _, view_put F hclock _, ?_⟩
  intro b hb htoken
  exact view_put_shared T.state hb htoken l₁

/-- Where two commands with one token are: their tasks, the first callers of their handles, and
what there is of them. -/
structure Pair (F : Commands ι τ) (a b : ι) (T : Machine ι τ) (task caller : InvokeBlockM)
    (l : Local (Thread ι)) (task' caller' : InvokeBlockM) (l' : Local (Thread ι)) : Prop where
  task_eq : T.threads (.task a) = task
  caller_eq : T.threads (.caller a 0) = caller
  view_eq : T.state.view F a = l
  task_eq' : T.threads (.task b) = task'
  caller_eq' : T.threads (.caller b 0) = caller'
  view_eq' : T.state.view F b = l'

section Pair

variable {a b : ι} {task caller : InvokeBlockM} {l : Local (Thread ι)}
  {task' caller' : InvokeBlockM} {l' : Local (Thread ι)}

omit [DecidableEq ι] [DecidableEq τ] in
theorem Pair.swap (h : Pair F a b T task caller l task' caller' l') :
    Pair F b a T task' caller' l' task caller l :=
  ⟨h.task_eq', h.caller_eq', h.view_eq', h.task_eq, h.caller_eq, h.view_eq⟩

variable (hne : b ≠ a) (htoken : F.token b = F.token a) (w : Outside) (spared : Option ι)
  (h : Pair F a b T task caller l task' caller' l')

include hne htoken h

/-- The task of the first makes a number of moves. -/
theorem Pair.task_moves {n : ℕ} {p : InvokeBlockM} {l₁ : Local (Thread ι)}
    (hturns : turns w (.task a) (decide (spared = some a)) n (task, l) = (p, l₁)) :
    Pair F a b ((List.replicate n (Event.thread (.task a) w)).foldl (Machine.step F spared) T)
      p caller l₁ task' caller' { l' with cancellation := l₁.cancellation } := by
  obtain ⟨hself, hothers, hview, hshared⟩ :=
    moved (.task a) rfl h.task_eq h.view_eq w spared hturns rfl
  refine ⟨hself, ?_, hview, ?_, ?_, ?_⟩
  · rw [hothers _ (by simp), h.caller_eq]
  · rw [hothers _ (by simp [hne]), h.task_eq']
  · rw [hothers _ (by simp), h.caller_eq']
  · rw [hshared b hne htoken, h.view_eq']

/-- So does the caller. -/
theorem Pair.caller_moves {n : ℕ} {p : InvokeBlockM} {l₁ : Local (Thread ι)}
    (hturns : turns w (.caller a 0) (decide (spared = some a)) n (caller, l) = (p, l₁)) :
    Pair F a b ((List.replicate n (Event.thread (.caller a 0) w)).foldl (Machine.step F spared) T)
      task p l₁ task' caller' { l' with cancellation := l₁.cancellation } := by
  obtain ⟨hself, hothers, hview, hshared⟩ :=
    moved (.caller a 0) rfl h.caller_eq h.view_eq w spared hturns rfl
  refine ⟨?_, hself, hview, ?_, ?_, ?_⟩
  · rw [hothers _ (by simp), h.task_eq]
  · rw [hothers _ (by simp), h.task_eq']
  · rw [hothers _ (by simp [hne]), h.caller_eq']
  · rw [hshared b hne htoken, h.view_eq']

omit hne htoken in
/-- The clock moves on for both. -/
theorem Pair.elapse (now : ℕ) (random : Fin 3) :
    Pair F a b (Machine.step F spared T (.clock now random)) task caller
      { l with clock := ⟨max l.clock.now now, random⟩ } task' caller'
      { l' with clock := ⟨max l'.clock.now now, random⟩ } := by
  refine ⟨h.task_eq, h.caller_eq, ?_, h.task_eq', h.caller_eq', ?_⟩
  · rw [← h.view_eq]
    rfl
  · rw [← h.view_eq']
    rfl

end Pair

/-! ## The schedule

One that does not depend on the commands: both are paused, `e` is evicted when its time has come,
and `j`, which would have been suspended at its next epoch, is interrupted instead. -/

/-- A command that nothing has happened to. -/
def opened : Local (Thread ι) where
  pause := ⟨false, false, false, ⟨0, none⟩, none, 0⟩
  cancellation := ⟨false, 0⟩
  clock := ⟨0, firstBranch⟩
  record := ⟨false, false, none, [], none⟩

/-- The guest of a command that was started at once. -/
def opening (c : Command) : Guest :=
  .instantiate_p3 {
    profile := .Cli0_3
    total_started := 0
    prepared_from := .Cold
    prepare := 0
    start := (0, 0)
    timeout := c.input.timeout
    resident_ttl := c.paused_resident_ttl
    instantiate_started := 0 }

omit [DecidableEq ι] in
/-- The task of an accepted command comes to its guest. -/
theorem start_turns {c : Command} (h : c.Accepted) (me : Thread ι) (barred : Bool) :
    turns sampleSpinning me barred 13 (c.start, opened)
      = (.ret (some (.guest (opening c))), opened) := by
  have hinput : decide (c.input.stdin.length > c.max_input_bytes) = false :=
    decide_eq_false (Nat.not_lt.mpr h.input)
  have htimeout : (decide (c.input.timeout = 0) || decide (c.input.timeout > c.max_timeout))
      = false := by
    rw [decide_eq_false (Nat.ne_of_gt h.timeout_pos), decide_eq_false (Nat.not_lt.mpr h.timeout_le)]
    rfl
  unfold Command.start Command.run_controlled
  rw [hinput, htimeout]
  cases barred <;> rfl

/-- A command that was paused at the beginning. -/
def paused : Local (Thread ι) :=
  { (opened : Local (Thread ι)) with pause := ⟨true, false, false, ⟨0, some 0⟩, none, 0⟩ }

omit [DecidableEq ι] in
theorem pause_turns (me : Thread ι) (barred : Bool) :
    turns sampleSpinning me barred 10 (perform_calls [.pause], opened) = (.ret none, paused) := by
  cases barred <;> rfl

/-- The same at a later time. -/
def pausedAt (now : ℕ) : Local (Thread ι) :=
  { (paused : Local (Thread ι)) with clock := ⟨now, firstBranch⟩ }

/-- A command whose callback has found it paused. -/
def suspended (now : ℕ) : Local (Thread ι) where
  pause := ⟨true, true, false, ⟨0, some 0⟩, none, 1⟩
  cancellation := ⟨false, 0⟩
  clock := ⟨now, firstBranch⟩
  record := ⟨false, false, none, [(false, .YieldCustom)], none⟩

omit [DecidableEq ι] in
/-- A paused command is suspended at its next epoch: none of the time counts. -/
theorem epoch_turns {c : Command} (h : c.Accepted) {now : ℕ} (hnow : now ≤ DURATION_MAX)
    (me : Thread ι) (barred : Bool) :
    turns sampleSpinning me barred 15 (.ret (some (.guest (opening c))), pausedAt now)
      = (.ret (some (.wait (opening c) .wait)), suspended now) := by
  have hactive : ¬ c.input.timeout ≤ active (now - 0) (saturating_add 0 (now - 0)) 0 := by
    have hpos := h.timeout_pos
    unfold active saturating_add
    rw [Nat.min_eq_left (by omega)]
    omega
  -- The first nine moves lead to the test of the timeout, the others are made after it.
  have hfirst : turns sampleSpinning me barred 9
      (.ret (some (.guest (opening c))), (pausedAt now : Local (Thread ι)))
      = ((on_tokens (if c.input.timeout ≤ active (now - 0) (saturating_add 0 (now - 0)) 0
          then pure (true, UpdateDeadline.Interrupt)
          else do
            if ← PauseToken.is_paused then
              PauseToken.mark_resident
              pure (false, .YieldCustom)
            else pure (false, .Yield)) >>= Guest.record_timeout) >>= (opening c).obey,
        pausedAt now) := by
    cases barred <;> rfl
  rw [show 15 = 6 + 9 from rfl, turns_add, hfirst, if_neg hactive]
  cases barred <;> rfl

/-- A command that has evicted itself. -/
def evicted (now : ℕ) : Local (Thread ι) where
  pause := ⟨true, false, true, ⟨0, some 0⟩, none, 2⟩
  cancellation := ⟨true, 1⟩
  clock := ⟨now, firstBranch⟩
  record := ⟨false, false, none, [(false, .YieldCustom)], none⟩

omit [DecidableEq ι] in
/-- A suspended command comes to its eviction when it has been paused for as long as it may. -/
theorem wait_turns (c : Command) (me : Thread ι) (barred : Bool) :
    turns sampleSpinning me barred 8
      (.ret (some (.wait (opening c) .wait)), suspended c.paused_resident_ttl)
      = (on_tokens (PauseToken.evict >>= fun _ => done) >>= (opening c).waited,
        suspended c.paused_resident_ttl) := by
  have hremaining : (c.paused_resident_ttl - (c.paused_resident_ttl - 0) == 0) = true := by simp
  have hfirst : turns sampleSpinning me barred 8 (.ret (some (.wait (opening c) .wait)),
      (suspended c.paused_resident_ttl : Local (Thread ι)))
      = (on_tokens (if c.paused_resident_ttl - (c.paused_resident_ttl - 0) == 0
          then PauseToken.evict >>= fun _ => done
          else do
            let now ← ask .now
            goto (.select ⟨1, none, now + (c.paused_resident_ttl - (c.paused_resident_ttl - 0))⟩))
          >>= (opening c).waited, suspended c.paused_resident_ttl) := by
    cases barred <;> rfl
  rw [hfirst, if_pos hremaining]

omit [DecidableEq ι] in
theorem evict_turns (c : Command) (me : Thread ι) {barred : Bool} (hbarred : barred = false) :
    turns sampleSpinning me barred 13
      (.ret (some (.wait (opening c) .wait)), suspended c.paused_resident_ttl)
      = (.ret (some (.guest (opening c))), evicted c.paused_resident_ttl) := by
  rw [show 13 = 5 + 8 from rfl, turns_add, wait_turns, hbarred]
  rfl

omit [DecidableEq ι] in
/-- A spared one stays where it is. -/
theorem spared_turns (c : Command) (me : Thread ι) {barred : Bool} (hbarred : barred = true) :
    turns sampleSpinning me barred 13
      (.ret (some (.wait (opening c) .wait)), suspended c.paused_resident_ttl)
      = (on_tokens (PauseToken.evict >>= fun _ => done) >>= (opening c).waited,
        suspended c.paused_resident_ttl) := by
  rw [show 13 = 5 + 8 from rfl, turns_add, wait_turns, hbarred]
  rfl

omit [DecidableEq ι] in
/-- A paused command whose token has been cancelled is interrupted at its next epoch. -/
theorem interrupt_turns (c : Command) (now : ℕ) (me : Thread ι) (barred : Bool) :
    (turns sampleSpinning me barred 15 (.ret (some (.guest (opening c))),
      { (pausedAt now : Local (Thread ι)) with
        cancellation := (evicted now : Local (Thread ι)).cancellation })).2.record.decisions
      = [(false, .Interrupt)] := by
  cases barred <;> rfl

omit [DecidableEq ι] [DecidableEq τ] in
theorem decisions_of_view {s : System ι τ} {i : ι} {l : Local (Thread ι)} (h : s.view F i = l) :
    (s.record i).decisions = l.record.decisions := by
  rw [← h]
  rfl

/-- A number of moves of one thread. -/
def moves (n : ℕ) (who : Thread ι) : List (Event ι) :=
  List.replicate n (.thread who sampleSpinning)

/-- Both commands are started and paused, the first is suspended, and its time goes by. -/
def approach (e j : ι) (ttl : ℕ) : List (Event ι) :=
  moves 13 (.task e) ++ moves 10 (.caller e 0) ++ moves 13 (.task j) ++ moves 10 (.caller j 0) ++
    moves 15 (.task e) ++ [.clock ttl firstBranch]

omit [DecidableEq ι] in
/-- The only calls are of `pause`. -/
theorem patient_pause : Patient fun (_ : ι) (_ : ℕ) => [CommandCall.pause] := by
  intro i k c hc
  rw [List.mem_singleton] at hc
  rw [hc]
  rfl

/-- The first evicts itself unless it is spared, and the second comes to an epoch. -/
def telling (e j : ι) (ttl : ℕ) : List (Event ι) :=
  approach e j ttl ++ moves 13 (.task e) ++ moves 15 (.task j)

section Shared

variable {j : ι} (hne : j ≠ e) (htoken : F.token j = F.token e)
  (he : (F.command e).Accepted) (hj : (F.command j).Accepted)

include hne htoken he hj

theorem approach_pair (spared : Option ι) :
    Pair F e j (Machine.run F spared (fun _ _ => [.pause])
        (approach e j (F.command e).paused_resident_ttl))
      (.ret (some (.wait (opening (F.command e)) .wait))) (.ret none)
      (suspended (F.command e).paused_resident_ttl)
      (.ret (some (.guest (opening (F.command j))))) (.ret none)
      (pausedAt (F.command e).paused_resident_ttl) := by
  unfold approach
  rw [Machine.run_append, Machine.run_append, Machine.run_append, Machine.run_append,
    Machine.run_append]
  have hstart : Pair F e j (Machine.start F fun _ _ => [.pause]) (F.command e).start
      (perform_calls [.pause]) opened (F.command j).start (perform_calls [.pause]) opened :=
    ⟨rfl, rfl, rfl, rfl, rfl, rfl⟩
  have hstarted := hstart.task_moves hne htoken sampleSpinning spared (start_turns he _ _)
  have hpaused := hstarted.caller_moves hne htoken sampleSpinning spared (pause_turns _ _)
  have hstarted' := hpaused.swap.task_moves hne.symm htoken.symm sampleSpinning spared
    (start_turns hj _ _)
  have hpaused' := hstarted'.caller_moves hne.symm htoken.symm sampleSpinning spared
    (pause_turns _ _)
  have hsuspended := hpaused'.swap.task_moves hne htoken sampleSpinning spared
    (epoch_turns he (Nat.zero_le _) _ _)
  have hlater := hsuspended.elapse spared (F.command e).paused_resident_ttl firstBranch
  have hzero : max 0 (F.command e).paused_resident_ttl = (F.command e).paused_resident_ttl :=
    Nat.zero_max _
  rw [← hzero]
  exact hlater

/-- In the run with the eviction the second command is interrupted. -/
theorem decisions_evicted :
    decisions F none (fun _ _ => [.pause]) (telling e j (F.command e).paused_resident_ttl) j
      = [(false, .Interrupt)] := by
  unfold decisions telling moves
  rw [Machine.run_append, Machine.run_append]
  have hbefore := approach_pair hne htoken he hj none
  have hevicted := hbefore.task_moves hne htoken sampleSpinning none
    (evict_turns _ _ (decide_eq_false (by simp)))
  have hlast := hevicted.swap.task_moves hne.symm htoken.symm sampleSpinning none (n := 15)
    Prod.mk.eta.symm
  exact (decisions_of_view hlast.view_eq).trans (interrupt_turns _ _ _ _)

/-- In the run without it is suspended. -/
theorem decisions_spared :
    decisions F (some e) (fun _ _ => [.pause]) (telling e j (F.command e).paused_resident_ttl) j
      = [(false, .YieldCustom)] := by
  unfold decisions telling moves
  rw [Machine.run_append, Machine.run_append]
  have hbefore := approach_pair hne htoken he hj (some e)
  have hspared := hbefore.task_moves hne htoken sampleSpinning (some e)
    (spared_turns _ _ (decide_eq_true rfl))
  have hlast := hspared.swap.task_moves hne.symm htoken.symm sampleSpinning (some e)
    (epoch_turns hj (F.command e).paused_resident_ttl_le _ _)
  exact (decisions_of_view hlast.view_eq).trans rfl

end Shared

/-- The idle eviction of a command is hidden from another one, in every schedule in which the
caller does not cancel, if and only if they do not share a cancellation token or one of them is
refused. -/
theorem eviction_contained_iff (F : Commands ι τ) (e j : ι) (hne : j ≠ e) :
    Contained F e j ↔
      ¬ (F.token j = F.token e ∧ (F.command e).Accepted ∧ (F.command j).Accepted) := by
  constructor
  · rintro hcontained ⟨htoken, he, hj⟩
    have hsame := hcontained _ patient_pause (telling e j (F.command e).paused_resident_ttl)
    rw [decisions_evicted hne htoken he hj, decisions_spared hne htoken he hj] at hsame
    simp at hsame
  · intro h
    by_cases htoken : F.token j = F.token e
    · exact contained_of_refused fun hboth => h ⟨htoken, hboth⟩
    · exact contained_of_token_ne htoken

/-- What it takes to tell in one given schedule: the two commands share the token, both are
accepted, and the first comes to evict. -/
theorem told_only_by_eviction {F : Commands ι τ} {e j : ι} {calls : ι → ℕ → List CommandCall}
    {schedule : List (Event ι)} (hcalls : Patient calls)
    (htold : decisions F none calls schedule j ≠ decisions F (some e) calls schedule j) :
    F.token j = F.token e ∧ (F.command e).Accepted ∧ (F.command j).Accepted ∧
      ∃ before event after, schedule = before ++ event :: after ∧
        Evicting e (Machine.run F none calls before) event := by
  have hboth : (F.command e).Accepted ∧ (F.command j).Accepted := by
    by_contra h
    exact htold (contained_of_refused h calls hcalls schedule)
  refine ⟨?_, hboth.1, hboth.2, ?_⟩
  · by_contra h
    exact htold (contained_of_token_ne h calls hcalls schedule)
  · by_contra hnone
    refine htold ?_
    unfold decisions
    rw [run_spared_same fun before event after hsplit hevicting =>
      hnone ⟨before, event, after, hsplit, hevicting⟩]

end Containment

/-! ## Two commands

The schedule at work, and two pairs that cannot tell. -/

/-- Two commands with a timeout of ten nanoseconds and a residency limit of one, each with the
token that is given for it. -/
def samplePair {τ : Type} (token : Bool → τ) : Commands Bool τ where
  command _ := ⟨⟨[], [], [], 10⟩, 0, 10, 1, sample_ttl_le⟩
  token := token

/-- With clones of one token, the second command is interrupted by the eviction of the first. -/
theorem shared_token_interrupted :
    decisions (samplePair fun _ => ()) none (fun _ _ => [.pause]) (telling false true 1) true
        = [(false, .Interrupt)] ∧
      decisions (samplePair fun _ => ()) (some false) (fun _ _ => [.pause]) (telling false true 1)
        true = [(false, .YieldCustom)] ∧
      ¬ Contained (samplePair fun _ => ()) false true := by
  have haccepted : ∀ i, ((samplePair fun _ => ()).command i).Accepted :=
    fun _ => ⟨Nat.le_refl 0, Nat.succ_pos 9, Nat.le_refl 10⟩
  have hevicted := decisions_evicted (F := samplePair fun _ => ()) (e := false) (j := true)
    (by decide) rfl (haccepted _) (haccepted _)
  have hspared := decisions_spared (F := samplePair fun _ => ()) (e := false) (j := true)
    (by decide) rfl (haccepted _) (haccepted _)
  refine ⟨hevicted, hspared, fun hcontained => ?_⟩
  have hsame := hcontained _ patient_pause (telling false true 1)
  have hne := hevicted.symm.trans (hsame.trans hspared)
  simp at hne

/-- The same two with one token, of which the second has no time and is refused. -/
def refusedPair : Commands Bool Unit where
  command i := ⟨⟨[], [], [], if i then 0 else 10⟩, 0, 10, 1, sample_ttl_le⟩
  token _ := ()

/-- With tokens of their own it is not, and neither is one that shares the token and is
refused. -/
theorem eviction_contained_own_tokens :
    Contained (samplePair id) false true ∧
      (refusedPair.command false).Accepted ∧ Contained refusedPair false true := by
  refine ⟨(eviction_contained_iff (samplePair id) false true (by simp)).mpr ?_,
    ⟨Nat.le_refl 0, Nat.succ_pos 9, Nat.le_refl 10⟩,
    (eviction_contained_iff refusedPair false true (by simp)).mpr ?_⟩
  · rintro ⟨htoken, -⟩
    simp [samplePair] at htoken
  · rintro ⟨-, -, hsecond⟩
    exact absurd hsecond.timeout_pos (Nat.lt_irrefl 0)

end WasmRuntime.Invoke
