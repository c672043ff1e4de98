/-
What becomes of a command that is interrupted.

The callback interrupts the guest when the pause token is evicted, when the cancellation token is
cancelled, or when the time is over, and the task is to return `IdleEvicted`, `Timeout` or
`Cancelled` accordingly, in this order; after `IdleEvicted` the package is demoted.
`interruptions_classified_iff` says when the reason is missed.
-/
import WasmRuntime.Invoke

set_option autoImplicit false

namespace WasmRuntime.Invoke

open Cache Prog Token Function

/-! ## What is to be returned

Only the errors of the call of `run` go through `map_execution_error`. An instantiation that is
interrupted returns `Execution` with Wasmtime's text, whatever the reason was, and an eviction there
does not demote. And an eviction comes with no interruption of its own: the suspended guest goes on
to its next epoch, and if it gets to its end before that, the task returns its output. -/

namespace Local

variable {κ : Type}

/-- The reason for an interruption, in the order of precedence. -/
def interruption (l : Local κ) : Option Error :=
  if l.pause.evicted then some .IdleEvicted
  else if l.record.timed_out then some .Timeout
  else if l.cancellation.cancelled then some .Cancelled
  else none

/-- An eviction comes before all else. -/
theorem interruption_evicted {l : Local κ} (h : l.pause.evicted = true) :
    l.interruption = some .IdleEvicted := if_pos h

theorem interruption_timed_out {l : Local κ} (hevicted : l.pause.evicted = false)
    (h : l.record.timed_out = true) : l.interruption = some .Timeout := by
  simp [interruption, hevicted, h]

theorem interruption_cancelled {l : Local κ} (hevicted : l.pause.evicted = false)
    (htimed : l.record.timed_out = false) (h : l.cancellation.cancelled = true) :
    l.interruption = some .Cancelled := by
  simp [interruption, hevicted, htimed, h]

/-- An interruption is returned for its reason, and an eviction as such, with the package
demoted. -/
structure Classified (l : Local κ) : Prop where
  interrupted : ∀ a, l.record.ended = some (a, .interrupted) →
    ∃ e, l.interruption = some e ∧ l.record.output = some (.error e)
  evicted : l.pause.evicted = true →
    l.record.output = some (.error .IdleEvicted) ∧ l.record.demoted = true

/-- What others leave alone: the eviction, and what only the task writes. A cancellation stays. -/
structure Untouched (l l' : Local κ) : Prop where
  evicted : l'.pause.evicted = l.pause.evicted
  record : l'.record = l.record
  cancelled : l.cancellation.cancelled = true → l'.cancellation.cancelled = true

/-- Nothing at all has happened. -/
theorem Untouched.refl (l : Local κ) : l.Untouched l := ⟨rfl, rfl, id⟩

/-- Whatever several others do. -/
theorem Untouched.trans {l l' l'' : Local κ} (h : l.Untouched l') (h' : l'.Untouched l'') :
    l.Untouched l'' :=
  ⟨h'.evicted.trans h.evicted, h'.record.trans h.record, fun hc => h'.cancelled (h.cancelled hc)⟩

/-- Something gives a reason to interrupt. -/
def Struck (l : Local κ) : Prop :=
  l.pause.evicted = true ∨ l.record.timed_out = true ∨ l.cancellation.cancelled = true

/-- What the task may return, by how the guest ended what was awaited last. -/
inductive Due (l : Local κ) : Except Error CommandOutput → Prop where
  | refused (e : Error) (hended : l.record.ended = none) (hevicted : l.pause.evicted = false) :
      Due l (.error e)
  | instantiation (message : String) (a : Await) (how : Ending)
      (hended : l.record.ended = some (a, how)) (ha : a.instantiates = true)
      (hstruck : how = .interrupted → l.Struck) : Due l (.error (.Execution message))
  | execution (e : Error) (a : Await) (how : Ending) (hended : l.record.ended = some (a, how))
      (ha : a.instantiates = false) (hhow : how ≠ .returned)
      (hevicted : l.pause.evicted = true → e = .IdleEvicted)
      (hinterrupted : how = .interrupted → l.interruption = some e) : Due l (.error e)
  | returned (output : CommandOutput) (a : Await) (hended : l.record.ended = some (a, .returned)) :
      Due l (.ok output)

/-- What is known of what the task has returned. -/
def Told (l : Local κ) : Prop :=
  ∀ r, l.record.output = some r → l.Due r ∧ l.record.demoted = idle_evicted r

section Stable

variable {l l' : Local κ} (h : l.Untouched l')

include h

/-- What has struck stays. -/
theorem Struck.stable (hstruck : l.Struck) : l'.Struck := by
  unfold Struck at hstruck ⊢
  rw [h.evicted, h.record]
  exact hstruck.imp_right (Or.imp_right h.cancelled)

/-- So does its classification. -/
theorem interruption_stable {e : Error} (he : l.interruption = some e) :
    l'.interruption = some e := by
  unfold interruption at he ⊢
  rw [h.evicted, h.record]
  by_cases hevicted : l.pause.evicted = true
  · rwa [if_pos hevicted] at he ⊢
  rw [if_neg hevicted] at he ⊢
  by_cases htimed : l.record.timed_out = true
  · rwa [if_pos htimed] at he ⊢
  rw [if_neg htimed] at he ⊢
  by_cases hcancelled : l.cancellation.cancelled = true
  · rw [if_pos (h.cancelled hcancelled)]
    rwa [if_pos hcancelled] at he
  · rw [if_neg hcancelled] at he
    cases he

theorem Due.stable {r : Except Error CommandOutput} (hdue : l.Due r) : l'.Due r := by
  cases hdue with
  | refused e hended hevicted =>
    exact .refused e (h.record ▸ hended) (h.evicted.trans hevicted)
  | instantiation message a how hended ha hstruck =>
    exact .instantiation message a how (h.record ▸ hended) ha fun hhow => (hstruck hhow).stable h
  | execution e a how hended ha hhow hevicted hinterrupted =>
    exact .execution e a how (h.record ▸ hended) ha hhow
      (fun hev => hevicted (h.evicted.symm.trans hev))
      fun hi => interruption_stable h (hinterrupted hi)
  | returned output a hended => exact .returned output a (h.record ▸ hended)

theorem Told.stable (htold : l.Told) : l'.Told := by
  intro r hr
  rw [h.record] at hr ⊢
  obtain ⟨hdue, hdemoted⟩ := htold r hr
  exact ⟨hdue.stable h, hdemoted⟩

end Stable

/-- Neither the demotion nor the returning has a part in it. -/
theorem Due.with_output {l : Local κ} {r : Except Error CommandOutput} (h : l.Due r)
    (demoted : Bool) (output : Option (Except Error CommandOutput)) :
    Due { l with record := { l.record with demoted, output } } r := by
  cases h with
  | refused e hended hevicted => exact .refused e hended hevicted
  | instantiation message a how hended ha hstruck =>
    exact .instantiation message a how hended ha hstruck
  | execution e a how hended ha hhow hevicted hinterrupted =>
    exact .execution e a how hended ha hhow hevicted hinterrupted
  | returned output a hended => exact .returned output a hended

/-- A command whose task has not returned. -/
theorem told_of_none {l : Local κ} (h : l.record.output = none) : l.Told := by
  intro r hr
  rw [h] at hr
  cases hr

end Local

/-! ## What an operation touches

Only the task stores `evicted` and `timed_out`, and a cancellation is not taken back. -/

/-- The operations that leave alone what others rely on. -/
def InvokeOp.Quiet : InvokeOp → Prop
  | .command (.token .store_evicted) => False
  | .command _ | .load_timed_out | .tier | .prepare | .set_fuel | .linker _ | .stdout | .stderr =>
    True
  | .store_timed_out | .guest _ | .update_deadline _ | .interrupt _ | .demote | .complete _ => False

section Operations

variable {κ : Type} (w : Outside) (me : κ) (l : Local κ)

/-- No operation takes a cancellation back. -/
theorem InvokeOp.run_cancelled (op : InvokeOp) (h : l.cancellation.cancelled = true) :
    (op.run w me l).2.cancellation.cancelled = true := by
  cases op with
  | command op =>
    cases op with
    | token op =>
      cases op with
      | store_cancelled => rfl
      | _ => exact h
    | _ => exact h
  | _ => exact h

/-- The clock is not an operation's to set. -/
theorem InvokeOp.run_clock (op : InvokeOp) : (op.run w me l).2.clock = l.clock := by
  cases op with
  | command op => cases op <;> rfl
  | _ => rfl

theorem InvokeOp.Quiet.untouched {op : InvokeOp} (h : op.Quiet) :
    l.Untouched (op.run w me l).2 := by
  refine ⟨?_, ?_, op.run_cancelled w me l⟩
  · cases op with
    | command op =>
      cases op with
      | token op =>
        cases op with
        | store_evicted => exact h.elim
        | _ => rfl
      | _ => rfl
    | _ => rfl
  · cases op with
    | command op => cases op <;> rfl
    | store_timed_out => exact h.elim
    | guest a => exact h.elim
    | update_deadline decision => exact h.elim
    | interrupt a => exact h.elim
    | demote => exact h.elim
    | complete output => exact h.elim
    | _ => rfl

end Operations

/-! ## The threads

Everyone else leaves the task's part of the state alone (`Untouched`), and that is what a task
relies on. -/

section Threads

variable {ι τ : Type} [DecidableEq ι] [DecidableEq τ] (F : Commands ι τ)

/-- One operation of a thread. -/
def Performs (who : Thread ι) (s : System ι τ) (op : InvokeOp) (r : op.Answer)
    (s' : System ι τ) : Prop :=
  ∃ w, r = (op.run w who (s.view F who.owner)).1 ∧
    s' = s.put F who.owner (op.run w who (s.view F who.owner)).2

/-- The clock moves on. -/
def elapses (s s' : System ι τ) : Prop := ∃ clock, s' = { s with clock }

omit [DecidableEq ι] [DecidableEq τ] in
/-- Time passes for all alike. -/
theorem elapses_untouched {s s' : System ι τ} (h : elapses s s') (i : ι) :
    (s.view F i).Untouched (s'.view F i) := by
  obtain ⟨clock, rfl⟩ := h
  exact ⟨rfl, rfl, id⟩

/-- An event of a schedule is a move of the threads, or nothing. -/
theorem step_run (spared : Option ι) (T : Machine ι τ) (event : Event ι) :
    Tasks.Run (Performs F) elapses InvokeBlock.body T (Machine.step F spared T event) := by
  cases event with
  | clock now random => exact .single (.env T _ ⟨_, rfl⟩)
  | thread who w =>
    rw [Machine.step, Machine.move.eq_def]
    cases hthread : T.threads who with
    | ret b =>
      cases b with
      | none => exact .refl
      | some block => exact .single (.again T who block hthread)
    | vis op k =>
      dsimp only
      split
      · exact .refl
      · exact .single (.thread T who op k _ _ hthread ⟨w, rfl, rfl⟩)

/-- The run of a schedule is one of the threads. -/
theorem run_run (spared : Option ι) (calls : ι → ℕ → List CommandCall)
    (schedule : List (Event ι)) :
    Tasks.Run (Performs F) elapses InvokeBlock.body (Machine.start F calls)
      (Machine.run F spared calls schedule) := by
  induction schedule using List.reverseRecOn with
  | nil => exact .refl
  | append_singleton schedule event ih =>
    rw [Machine.run_append]
    exact Relation.ReflTransGen.trans ih (step_run F spared _ event)

/-! What an operation on one command does to the view of it, and of another. -/

theorem view_put {s : System ι τ} {l : Local (Thread ι)} (hclock : l.clock = s.clock) (i : ι) :
    (s.put F i l).view F i = l := by
  unfold System.view System.put
  simp only [update_self]
  rw [← hclock]

theorem view_put_run (s : System ι τ) (i : ι) (op : InvokeOp) (w : Outside) (who : Thread ι) :
    (s.put F i (op.run w who (s.view F i)).2).view F i = (op.run w who (s.view F i)).2 :=
  view_put F (op.run_clock w who _) i

/-- What one invocation does leaves another its own state, but for the shared token. -/
theorem view_put_other (s : System ι τ) {i j : ι} (hj : j ≠ i) (l : Local (Thread ι))
    (hcancelled : (s.cancellation (F.token i)).cancelled = true → l.cancellation.cancelled = true) :
    (s.view F j).Untouched ((s.put F i l).view F j) := by
  refine ⟨?_, ?_, ?_⟩
  · show (update s.pause i l.pause j).evicted = _
    rw [update_of_ne hj]
    rfl
  · show update s.record i l.record j = _
    rw [update_of_ne hj]
    rfl
  · intro h
    show (update s.cancellation (F.token i) l.cancellation (F.token j)).cancelled = true
    by_cases htoken : F.token j = F.token i
    · rw [htoken, update_self]
      exact hcancelled (htoken ▸ h)
    · rwa [update_of_ne htoken]

/-- An operation leaves the commands of other handles alone. -/
theorem performs_other {who : Thread ι} {s s' : System ι τ} {op : InvokeOp} {r : op.Answer}
    (h : Performs F who s op r s') {j : ι} (hj : j ≠ who.owner) :
    (s.view F j).Untouched (s'.view F j) := by
  obtain ⟨w, -, rfl⟩ := h
  exact view_put_other F s hj _ (op.run_cancelled w who (s.view F who.owner))

/-- A quiet operation leaves all of them alone. -/
theorem performs_quiet {who : Thread ι} {s s' : System ι τ} {op : InvokeOp} {r : op.Answer}
    (h : Performs F who s op r s') (hquiet : op.Quiet) (j : ι) :
    (s.view F j).Untouched (s'.view F j) := by
  by_cases hj : j = who.owner
  · obtain ⟨w, -, rfl⟩ := h
    subst hj
    rw [view_put_run]
    exact hquiet.untouched w who _
  · exact performs_other F h hj

/-- A task relies on the others to leave its command alone. It does so with theirs, and what it
has returned is as `Told` says at every moment. -/
def logic (who : Thread ι) : Rg (System ι τ) InvokeOp InvokeOp.Answer where
  rely s s' := ∀ i, who = .task i → (s.view F i).Untouched (s'.view F i)
  step := Performs F who
  guar s _ _ s' := (∀ i, who ≠ .task i → (s.view F i).Untouched (s'.view F i)) ∧
    ∀ i, who = .task i → (s'.view F i).Told
  rely_refl _ _ _ := .refl _
  rely_trans _ _ _ h h' i hi := (h i hi).trans (h' i hi)

/-- A statement about a command that others do not make false. -/
def Stable (P : Local (Thread ι) → Prop) : Prop := ∀ l l', l.Untouched l' → P l → P l'

section Rules

variable {F} {i : ι} {P : Local (Thread ι) → Prop} {s : System ι τ}

/-- What is stable outlasts the others. -/
theorem rely_stable (hP : Stable P) {s s' : System ι τ}
    (hrely : (logic F (.task i)).rely s s') (h : P (s.view F i)) : P (s'.view F i) :=
  hP _ _ (hrely i rfl) h

/-- One operation of the task meets the guarantee if what it leaves behind is told. -/
theorem task_guar {s s' : System ι τ} {op : InvokeOp} {r : op.Answer}
    (h : Performs F (.task i) s op r s') (htold : (s'.view F i).Told) :
    (logic F (.task i)).guar s op r s' := by
  refine ⟨fun j hj => performs_other F h ?_, ?_⟩
  · intro hji
    exact hj (congrArg Thread.task hji.symm)
  · intro j hj
    cases hj
    exact htold

/-- A program all of whose operations keep a statement. -/
theorem safe_only {α : Type} {A : InvokeOp → Prop} (hP : Stable P) (htold : ∀ l, P l → l.Told)
    (hA : ∀ op w l, A op → P l → P (op.run w (.task i) l).2) {p : InvokeM α} (hp : p.Only A)
    (hs : P (s.view F i)) :
    (logic F (.task i)).Safe (fun _ s => P (s.view F i)) p s := by
  induction p generalizing s with
  | ret a => exact fun s' hrely => rely_stable hP hrely hs
  | vis op k ih =>
    intro s₁ hrely r s₂ hstep
    have hs₁ := rely_stable hP hrely hs
    have hs₂ : P (s₂.view F i) := by
      obtain ⟨w, -, rfl⟩ := hstep
      exact (view_put_run F s₁ i op w (.task i)).symm ▸ hA op w _ hp.1 hs₁
    exact ⟨task_guar hstep (htold _ hs₂), ih r (hp.2 r) hs₂⟩

/-- One operation, with what is known of its answer. -/
theorem safe_act (op : InvokeOp) {Q : op.Answer → Local (Thread ι) → Prop} (hP : Stable P)
    (hQ : ∀ r, Stable (Q r)) (htold : ∀ r l, Q r l → l.Told)
    (hop : ∀ w l, P l → Q (op.run w (.task i) l).1 (op.run w (.task i) l).2)
    (hs : P (s.view F i)) :
    (logic F (.task i)).Safe (fun r s => Q r (s.view F i)) (act op) s := by
  intro s₁ hrely r s₂ hstep
  have hs₁ := rely_stable hP hrely hs
  have hs₂ : Q r (s₂.view F i) := by
    obtain ⟨w, rfl, rfl⟩ := hstep
    exact (view_put_run F s₁ i op w (.task i)).symm ▸ hop w _ hs₁
  exact ⟨task_guar hstep (htold r _ hs₂), fun s₃ hrely' => rely_stable (hQ r) hrely' hs₂⟩

/-- A quiet program keeps what others would keep, too. -/
theorem safe_quiet {α : Type} (hP : Stable P) (htold : ∀ l, P l → l.Told) {p : InvokeM α}
    (hp : p.Only InvokeOp.Quiet) (hs : P (s.view F i)) :
    (logic F (.task i)).Safe (fun _ s => P (s.view F i)) p s :=
  safe_only hP htold (fun _ w l hquiet => hP _ _ (hquiet.untouched w _ l)) hp hs

end Rules

end Threads

/-! ## The text of the task

What is known at each point of the task is stable under what the others do. -/

section Text

variable {ι : Type}

/-- The guest may be executed: nothing has been recorded, and the task has not returned. -/
structure Local.Fresh (l : Local (Thread ι)) : Prop where
  timed_out : l.record.timed_out = false
  demoted : l.record.demoted = false
  output : l.record.output = none

/-- The guest has not been executed at all. -/
structure Local.Unstarted (l : Local (Thread ι)) : Prop extends l.Fresh where
  ended : l.record.ended = none
  evicted : l.pause.evicted = false

/-- The guest has ended what was awaited. -/
structure Local.Ended (a : Await) (how : Ending) (l : Local (Thread ι)) : Prop where
  demoted : l.record.demoted = false
  output : l.record.output = none
  ended : l.record.ended = some (a, how)
  struck : how = .interrupted → l.Struck
  timed_out : how = .returned → l.record.timed_out = false

/-- The task is about to return. -/
structure Local.Ready (result : Except Error CommandOutput) (demoted : Bool)
    (l : Local (Thread ι)) : Prop where
  demoted : l.record.demoted = demoted
  output : l.record.output = none
  due : l.Due result

theorem Local.Fresh.told {l : Local (Thread ι)} (h : l.Fresh) : l.Told := told_of_none h.output

theorem Local.Ended.told {a : Await} {how : Ending} {l : Local (Thread ι)} (h : l.Ended a how) :
    l.Told := told_of_none h.output

theorem Local.Ready.told {result : Except Error CommandOutput} {demoted : Bool}
    {l : Local (Thread ι)} (h : l.Ready result demoted) : l.Told := told_of_none h.output

theorem Stable.and {P P' : Local (Thread ι) → Prop} (h : Stable P) (h' : Stable P') :
    Stable fun l => P l ∧ P' l := fun l l' hl hp => ⟨h l l' hl hp.1, h' l l' hl hp.2⟩

theorem evicted_stable (b : Bool) : Stable (ι := ι) fun l => l.pause.evicted = b :=
  fun _ _ h hl => h.evicted.trans hl

theorem timed_out_stable (b : Bool) : Stable (ι := ι) fun l => l.record.timed_out = b :=
  fun _ _ h hl => (congrArg Record.timed_out h.record).trans hl

/-- A cancellation that was found stays, and one that was not proves something about the past. -/
theorem cancelled_stable (b : Bool) (before : Prop) :
    Stable (ι := ι) fun l => (b = true → l.cancellation.cancelled = true) ∧ (b = false → before) :=
  fun _ _ h hl => ⟨fun hb => h.cancelled (hl.1 hb), hl.2⟩

theorem fresh_stable : Stable (ι := ι) Local.Fresh := fun _ _ h hl =>
  ⟨h.record ▸ hl.timed_out, h.record ▸ hl.demoted, h.record ▸ hl.output⟩

theorem unstarted_stable : Stable (ι := ι) Local.Unstarted := fun _ _ h hl =>
  ⟨fresh_stable _ _ h hl.toFresh, h.record ▸ hl.ended, h.evicted.trans hl.evicted⟩

theorem ended_stable (a : Await) (how : Ending) : Stable (ι := ι) (Local.Ended a how) :=
  fun _ _ h hl => ⟨h.record ▸ hl.demoted, h.record ▸ hl.output, h.record ▸ hl.ended,
    fun hhow => (hl.struck hhow).stable h, fun hhow => h.record ▸ hl.timed_out hhow⟩

theorem ready_stable (result : Except Error CommandOutput) (demoted : Bool) :
    Stable (ι := ι) (Local.Ready result demoted) :=
  fun _ _ h hl => ⟨h.record ▸ hl.demoted, h.record ▸ hl.output, hl.due.stable h⟩

/-- What was told stays true. -/
theorem told_stable : Stable (ι := ι) Local.Told := fun _ _ h hl => hl.stable h

/-- Operations on the tokens. -/
def InvokeOp.OnTokens : InvokeOp → Prop
  | .command (.token _) => True
  | _ => False

/-- Those that do not evict. -/
def Calm : TokenOp → Prop
  | .store_evicted => False
  | _ => True

theorem on_tokens_bind {α β : Type} (p : TokenM α) (f : α → TokenM β) :
    on_tokens (p >>= f) = on_tokens p >>= fun a => on_tokens (f a) := lift_bind _ _ p f

/-- Only operations on the tokens. -/
theorem on_tokens_only {α : Type} (p : TokenM α) : (on_tokens p).Only InvokeOp.OnTokens := by
  unfold on_tokens
  induction p with
  | ret a => exact trivial
  | vis op k ih => exact ⟨trivial, fun r => ih r⟩

/-- Methods that do not evict are quiet. -/
theorem on_tokens_quiet {α : Type} {p : TokenM α} (hp : p.Only Calm) :
    (on_tokens p).Only InvokeOp.Quiet := by
  refine Only.lift ?_ hp
  intro op hop
  cases op with
  | store_evicted => exact hop
  | _ => exact trivial

theorem now_calm : (ask .now).Only Calm := ⟨trivial, fun _ => trivial⟩

theorem elapsed_calm (started : ℕ) : (PauseToken.elapsed started).Only Calm :=
  ⟨trivial, fun _ => trivial⟩

theorem total_paused_calm : PauseToken.total_paused.Only Calm := by
  refine ⟨trivial, fun _ => ⟨trivial, fun timing => ?_⟩⟩
  obtain ⟨completed, _ | started⟩ := timing
  · exact ⟨trivial, fun _ => trivial⟩
  · exact ⟨trivial, fun _ => ⟨trivial, fun _ => trivial⟩⟩

theorem pause_calm : PauseToken.pause.Only Calm := by
  refine ⟨trivial, fun _ => ⟨trivial, fun was => ?_⟩⟩
  cases was with
  | true => exact ⟨trivial, fun _ => trivial⟩
  | false => exact ⟨trivial, fun _ => ⟨trivial, fun _ => ⟨trivial, fun _ => ⟨trivial, fun _ =>
    trivial⟩⟩⟩⟩

theorem end_pause_calm : PauseToken.end_pause.Only Calm := by
  refine ⟨trivial, fun _ => ⟨trivial, fun paused_at => ?_⟩⟩
  cases paused_at with
  | none => exact ⟨trivial, fun _ => trivial⟩
  | some started => exact ⟨trivial, fun _ => ⟨trivial, fun _ => ⟨trivial, fun _ => trivial⟩⟩⟩

theorem resume_calm : PauseToken.resume.Only Calm := by
  refine ⟨trivial, fun evicted => ?_⟩
  cases evicted with
  | true => exact trivial
  | false =>
    refine ⟨trivial, fun _ => ⟨trivial, fun was => ?_⟩⟩
    cases was with
    | false => exact ⟨trivial, fun _ => trivial⟩
    | true =>
      show Only Calm (PauseToken.end_pause >>= fun _ => _)
      exact Only.bind end_pause_calm fun _ => ⟨trivial, fun _ => trivial⟩

theorem mark_resident_calm : PauseToken.mark_resident.Only Calm := by
  refine ⟨trivial, fun paused => ?_⟩
  cases paused with
  | false => exact trivial
  | true =>
    refine ⟨trivial, fun evicted => ?_⟩
    cases evicted with
    | true => exact trivial
    | false => exact ⟨trivial, fun _ => ⟨trivial, fun _ => trivial⟩⟩

/-! The methods of the handle, which never evict. -/

/-- The same for the operations of the handle. -/
def CalmCommand : CommandOp → Prop
  | .token op => Calm op
  | _ => True

theorem on_token_calm {α : Type} {p : TokenM α} (hp : p.Only Calm) :
    (on_token p).Only CalmCommand := by
  refine Only.lift ?_ hp
  intro op hop
  exact hop

theorem state_calm : RunningCommand.state.Only CalmCommand := by
  refine ⟨trivial, fun evicted => ?_⟩
  cases evicted with
  | true => exact trivial
  | false =>
    refine ⟨trivial, fun finished => ?_⟩
    cases finished with
    | true => exact trivial
    | false =>
      refine ⟨trivial, fun resident => ?_⟩
      cases resident with
      | true => exact trivial
      | false =>
        refine ⟨trivial, fun paused => ?_⟩
        cases paused <;> exact trivial

theorem command_pause_calm : RunningCommand.pause.Only CalmCommand := by
  refine Only.bind state_calm fun state => ?_
  have hpause : Only CalmCommand (on_token PauseToken.pause >>= fun _ =>
      (pure (.ok ()) : CommandM (Except Error Unit))) :=
    Only.bind (on_token_calm pause_calm) fun _ => trivial
  cases state with
  | Running => exact hpause
  | PauseRequested => exact hpause
  | PausedResident => exact hpause
  | Evicted => exact trivial
  | Finished => exact trivial

theorem command_resume_calm : RunningCommand.resume.Only CalmCommand := by
  refine Only.bind state_calm fun state => ?_
  have hresume : Only CalmCommand (on_token PauseToken.resume >>= fun resumed =>
      (if resumed then pure (.ok ()) else pure (.error .IdleEvicted) :
        CommandM (Except Error Unit))) := by
    refine Only.bind (on_token_calm resume_calm) fun resumed => ?_
    cases resumed <;> exact trivial
  cases state with
  | Running => exact trivial
  | PauseRequested => exact hresume
  | PausedResident => exact hresume
  | Evicted => exact trivial
  | Finished => exact trivial

/-- Every call of the handle. -/
theorem call_calm (c : CommandCall) : c.program.Only CalmCommand := by
  have hcancel : Only CalmCommand (on_token CancellationToken.cancel) :=
    on_token_calm ⟨trivial, fun _ => ⟨trivial, fun _ => trivial⟩⟩
  cases c with
  | pause => exact Only.bind command_pause_calm fun _ => trivial
  | resume => exact Only.bind command_resume_calm fun _ => trivial
  | cancel => exact hcancel
  | state => exact Only.bind state_calm fun _ => trivial
  | drop => exact Only.bind hcancel fun _ => Only.bind (on_token_calm resume_calm) fun _ => trivial

/-- A caller is quiet, and has no blocks. -/
theorem perform_calls_text (calls : List CommandCall) :
    Tasks.Text InvokeOp.Quiet (fun _ => False) (perform_calls calls) := by
  induction calls with
  | nil => exact trivial
  | cons c rest ih =>
    refine Tasks.Text.bind (Only.lift ?_ (call_calm c)) fun _ => ih
    intro op hop
    cases op with
    | token op =>
      cases op with
      | store_evicted => exact hop
      | _ => exact trivial
    | _ => exact trivial

/-! The checks before the guest is executed. -/

/-- The checks before the guest interrupt nothing. -/
theorem run_controlled_quiet (c : Command) : Only InvokeOp.Quiet c.run_controlled := by
  unfold Command.run_controlled Command.invoke
  refine Only.bindF (Only.reject _ _) fun _ => Only.bindF (Only.reject _ _) fun _ => ?_
  refine ⟨trivial, fun cancelled => ?_⟩
  refine Only.bindF (Only.reject _ _) fun _ => ⟨trivial, fun _ => ⟨trivial, fun _ => ?_⟩⟩
  refine ⟨trivial, fun _ => ⟨trivial, fun prepared => ?_⟩⟩
  cases prepared with
  | error e => exact trivial
  | ok profile =>
    refine ⟨trivial, fun _ => Only.bindF (Only.reject _ _) fun _ => ⟨trivial, fun fuel => ?_⟩⟩
    cases fuel with
    | error e => exact trivial
    | ok u =>
      have hstart : invocation_start.Only Calm :=
        Only.bind now_calm fun _ => Only.bind total_paused_calm fun _ => trivial
      refine Only.bindF (Only.bind (on_tokens_quiet hstart) fun _ => trivial) fun start => ?_
      refine ⟨trivial, fun _ => ?_⟩
      cases profile with
      | Cli0_3 =>
        refine ⟨trivial, fun linker => ?_⟩
        cases linker <;> exact trivial
      | Cli0_2 =>
        refine ⟨trivial, fun linker => ?_⟩
        cases linker <;> exact trivial
      | Http0_3 => exact trivial
      | Http0_2 => exact trivial

end Text

/-! ## The blocks of the task

One invariant for each block, and `Told` for what the task has returned. The order of the reasons is
kept by `map_execution_error`, which looks at the same flags again: what it finds is what the
callback found or something that comes before it. -/

section Safe

variable {ι τ : Type} [DecidableEq ι] [DecidableEq τ] {F : Commands ι τ} {i : ι} {s : System ι τ}

/-- What a stretch of the task's text ends in: it has returned, or the guest may be executed. -/
def Ends (F : Commands ι τ) (i : ι) : Option InvokeBlock → System ι τ → Prop :=
  Tasks.Post (fun s => (s.view F i).Told) fun _ s => (s.view F i).Fresh

/-! The loads of the three flags, under a statement that others keep. -/

section Loads

variable {P : Local (Thread ι) → Prop} (hP : Stable P) (htold : ∀ l, P l → l.Told)
  (hs : P (s.view F i))

include hP htold hs

/-- The flag as it was read stays so. -/
theorem load_evicted_safe :
    (logic F (.task i)).Safe
      (fun (evicted : Bool) s => P (s.view F i) ∧ (s.view F i).pause.evicted = evicted)
      (act (.command (.token .load_evicted))) s :=
  safe_act (.command (.token .load_evicted))
    (Q := fun (evicted : Bool) l => P l ∧ l.pause.evicted = evicted) hP
    (fun b => hP.and (evicted_stable b)) (fun _ l hl => htold l hl.1) (fun _ _ hl => ⟨hl, rfl⟩) hs

theorem load_timed_out_safe :
    (logic F (.task i)).Safe
      (fun (timed_out : Bool) s => P (s.view F i) ∧ (s.view F i).record.timed_out = timed_out)
      (act .load_timed_out) s :=
  safe_act .load_timed_out
    (Q := fun (timed_out : Bool) l => P l ∧ l.record.timed_out = timed_out) hP
    (fun b => hP.and (timed_out_stable b)) (fun _ l hl => htold l hl.1) (fun _ _ hl => ⟨hl, rfl⟩) hs

/-- A token that is found not to be cancelled may be so at the next moment; what remains is what
followed from it then. -/
theorem load_cancelled_safe (before : Prop)
    (hbefore : ∀ l, P l → l.cancellation.cancelled = false → before) :
    (logic F (.task i)).Safe
      (fun (cancelled : Bool) s => P (s.view F i) ∧
        (cancelled = true → (s.view F i).cancellation.cancelled = true) ∧
        (cancelled = false → before))
      (act (.command (.token .load_cancelled))) s :=
  safe_act (.command (.token .load_cancelled)) (Q := fun (cancelled : Bool) l => P l ∧
      (cancelled = true → l.cancellation.cancelled = true) ∧ (cancelled = false → before)) hP
    (fun b => hP.and (cancelled_stable b before)) (fun _ l hl => htold l hl.1)
    (fun _ l hl => ⟨hl, id, hbefore l hl⟩) hs

end Loads

/-- The task goes on with a block. -/
theorem goto_safe (block : InvokeBlock) (hs : (s.view F i).Fresh) :
    (logic F (.task i)).Safe (Ends F i) (.ret (some block)) s :=
  fun _ hrely => rely_stable fresh_stable hrely hs

/-- The task returns. -/
theorem complete_safe {result : Except Error CommandOutput}
    (hs : (s.view F i).Ready result (idle_evicted result)) :
    (logic F (.task i)).Safe (Ends F i) (act (.complete result) >>= fun _ => pure none) s := by
  refine .bind (safe_act (.complete result) (Q := fun _ l => l.Told) (ready_stable _ _)
    (fun _ => told_stable) (fun _ _ h => h) ?_ hs) ?_
  · intro w l hready r hr
    cases hr
    exact ⟨hready.due.with_output _ _, hready.demoted⟩
  · intro _ s' htold
    exact fun _ hrely => rely_stable told_stable hrely htold

/-- The task returns what is due. -/
theorem finish_safe {result : Except Error CommandOutput}
    (hs : (s.view F i).Ready result false) :
    (logic F (.task i)).Safe (Ends F i) (finish result) s := by
  unfold finish
  by_cases hevicted : idle_evicted result = true
  · rw [if_pos hevicted]
    refine .bind (safe_act .demote (Q := fun _ l => l.Ready result true) (ready_stable _ _)
      (fun _ => ready_stable _ _) (fun _ _ h => h.told) ?_ hs) ?_
    · intro w l hready
      exact ⟨rfl, hready.output, hready.due.with_output true _⟩
    · intro _ s' hready
      rw [← hevicted] at hready
      exact complete_safe hready
  · rw [if_neg hevicted]
    rw [← Bool.eq_false_iff.mpr hevicted] at hs
    exact complete_safe hs

variable {a : Await} {how : Ending}

/-- An error of the call of `run`, with the reason in it. -/
theorem failed_safe (e : Error) (ha : a.instantiates = false) (hhow : how ≠ .returned)
    (hended : (s.view F i).Ended a how)
    (hevicted : (s.view F i).pause.evicted = true → e = .IdleEvicted)
    (hinterrupted : how = .interrupted → (s.view F i).interruption = some e) :
    (logic F (.task i)).Safe (fun e s => (s.view F i).Ready (.error e) false) (.ret e) s := by
  intro s' hrely
  refine rely_stable (ready_stable (.error e) false) hrely ⟨hended.demoted, hended.output, ?_⟩
  exact .execution e a how hended.ended ha hhow hevicted hinterrupted

/-- `map_execution_error` finds the reason for an interruption. -/
theorem map_execution_error_safe (message : String) (ha : a.instantiates = false)
    (hhow : how ≠ .returned) (hs : (s.view F i).Ended a how) :
    (logic F (.task i)).Safe (fun e s => (s.view F i).Ready (.error e) false)
      (map_execution_error message) s := by
  show (logic F (.task i)).Safe _ (act (.command (.token .load_evicted)) >>= fun _ => _) s
  refine .bind (load_evicted_safe (ended_stable a how) (fun _ => Local.Ended.told) hs) ?_
  rintro evicted s₁ ⟨hs₁, hevicted⟩
  cases evicted with
  | true =>
    exact failed_safe .IdleEvicted ha hhow hs₁ (fun _ => rfl)
      fun _ => Local.interruption_evicted hevicted
  | false =>
    show (logic F (.task i)).Safe _ (act .load_timed_out >>= fun _ => _) s₁
    have hstable := (ended_stable (ι := ι) a how).and (evicted_stable false)
    refine .bind
      (load_timed_out_safe hstable (fun _ hl => hl.1.told) ⟨hs₁, hevicted⟩) ?_
    rintro timed_out s₂ ⟨⟨hs₂, hevicted⟩, htimed⟩
    cases timed_out with
    | true =>
      exact failed_safe .Timeout ha hhow hs₂ (absurd · (hevicted ▸ Bool.false_ne_true))
        fun _ => Local.interruption_timed_out hevicted htimed
    | false =>
      show (logic F (.task i)).Safe _
        (act (.command (.token .load_cancelled)) >>= fun _ => _) s₂
      -- If nothing has struck, nothing has been interrupted.
      refine .bind (load_cancelled_safe (hstable.and (timed_out_stable false))
        (fun _ hl => hl.1.1.told) ⟨⟨hs₂, hevicted⟩, htimed⟩ (how ≠ .interrupted) ?_) ?_
      · rintro l ⟨⟨hended, hevicted⟩, htimed⟩ hcancelled hinterrupted
        have hstruck := hended.struck hinterrupted
        rw [Local.Struck, hevicted, htimed, hcancelled] at hstruck
        simp at hstruck
      · rintro cancelled s₃ ⟨⟨⟨hs₃, hevicted⟩, htimed⟩, hfound, hmissed⟩
        cases cancelled with
        | true =>
          exact failed_safe .Cancelled ha hhow hs₃ (absurd · (hevicted ▸ Bool.false_ne_true))
            fun _ => Local.interruption_cancelled hevicted htimed (hfound rfl)
        | false =>
          exact failed_safe (.Execution message) ha hhow hs₃
            (absurd · (hevicted ▸ Bool.false_ne_true)) fun h => absurd h (hmissed rfl)

/-- A failure of the guest is classified. -/
theorem execution_failed_safe (message : String) (ha : a.instantiates = false)
    (hhow : how ≠ .returned) (hs : (s.view F i).Ended a how) :
    (logic F (.task i)).Safe (Ends F i) (Guest.execution_failed message) s :=
  Rg.Safe.bind (map_execution_error_safe message ha hhow hs) fun _ _ hready => finish_safe hready

/-- A failed instantiation is an `Execution` error. -/
theorem instantiation_failed_safe (message : String) (ha : a.instantiates = true)
    (hs : (s.view F i).Ended a how) :
    (logic F (.task i)).Safe (Ends F i) (finish (.error (.Execution message))) s :=
  finish_safe ⟨hs.demoted, hs.output, .instantiation message a how hs.ended ha hs.struck⟩

theorem instantiated_safe (c : Running) (next : Executing → Guest)
    (hs : (s.view F i).Ended a .returned) :
    (logic F (.task i)).Safe (Ends F i)
      (Guest.instantiated c >>= fun x => pure (some (.guest (next x)))) s := by
  have hquiet : (Guest.instantiated c).Only InvokeOp.Quiet := by
    refine Only.bind (on_tokens_quiet (elapsed_calm _)) fun _ => ?_
    refine Only.bind (on_tokens_quiet now_calm) fun _ => ?_
    exact Only.bind (on_tokens_quiet total_paused_calm) fun _ => trivial
  refine .bind (safe_quiet fresh_stable (fun _ h => h.told) hquiet
    ⟨hs.timed_out rfl, hs.demoted, hs.output⟩) ?_
  intro x s' hfresh
  exact goto_safe _ hfresh

/-- The guest has returned. -/
theorem returned_safe (c : Running) (x : Executing) (result : Except Unit Unit)
    (hs : (s.view F i).Ended a .returned) :
    (logic F (.task i)).Safe (Ends F i) (Guest.returned c x result) s := by
  have hquiet : ∀ {α : Type} {p : InvokeM α} {s : System ι τ}, p.Only InvokeOp.Quiet →
      (s.view F i).Ended a .returned →
      (logic F (.task i)).Safe (fun _ s => (s.view F i).Ended a .returned) p s :=
    fun hp hs => safe_quiet (ended_stable a _) (fun _ h => h.told) hp hs
  unfold Guest.returned
  refine .bind (hquiet (on_tokens_quiet (elapsed_calm _)) hs) fun _ _ hs => ?_
  refine .bind (hquiet (on_tokens_quiet total_paused_calm) hs) fun _ _ hs => ?_
  refine .bind (hquiet ⟨trivial, fun _ => trivial⟩ hs) fun _ _ hs => ?_
  refine .bind (hquiet ⟨trivial, fun _ => trivial⟩ hs) fun _ _ hs => ?_
  refine .bind (hquiet (on_tokens_quiet (elapsed_calm _)) hs) fun _ _ hs => ?_
  exact finish_safe ⟨hs.demoted, hs.output, .returned _ a hs.ended⟩

/-- What comes after an await, for each of the four. -/
theorem ended_safe (g : Guest) (outcome : g.await.Outcome)
    (hfailed : g.await.failed outcome = true → how ≠ .returned)
    (hreturned : g.await.failed outcome = false → how = .returned)
    (hs : (s.view F i).Ended g.await how) :
    (logic F (.task i)).Safe (Ends F i) (g.ended outcome) s := by
  cases g with
  | instantiate_p3 c =>
    cases outcome with
    | error message => exact instantiation_failed_safe message rfl hs
    | ok u =>
      cases hreturned rfl
      exact instantiated_safe c (.run_p3 c) hs
  | run_p3 c x =>
    cases outcome with
    | error message => exact execution_failed_safe message rfl (hfailed rfl) hs
    | ok inner =>
      cases inner with
      | error message => exact execution_failed_safe message rfl (hfailed rfl) hs
      | ok result =>
        cases hreturned rfl
        exact returned_safe c x result hs
  | instantiate_p2 c =>
    cases outcome with
    | error message => exact instantiation_failed_safe message rfl hs
    | ok u =>
      cases hreturned rfl
      exact instantiated_safe c (.run_p2 c) hs
  | run_p2 c x =>
    cases outcome with
    | error message => exact execution_failed_safe message rfl (hfailed rfl) hs
    | ok result =>
      cases hreturned rfl
      exact returned_safe c x result hs

/-- What the callback has decided, before it records a timeout. -/
structure Local.Decided (decision : Bool × UpdateDeadline) (l : Local (Thread ι)) : Prop
    extends l.Fresh where
  timeout : decision.1 = true → decision.2 = .Interrupt
  interrupt : decision = (false, .Interrupt) →
    l.pause.evicted = true ∨ l.cancellation.cancelled = true

omit [DecidableEq ι] in
theorem decided_stable (decision : Bool × UpdateDeadline) :
    Stable (ι := ι) (Local.Decided decision) := fun _ _ h hl =>
  ⟨fresh_stable _ _ h hl.toFresh, hl.timeout,
    fun hd => (hl.interrupt hd).imp h.evicted.trans h.cancelled⟩

/-- What it has decided, once it has. -/
structure Local.Announced (decision : Bool × UpdateDeadline) (l : Local (Thread ι)) : Prop where
  demoted : l.record.demoted = false
  output : l.record.output = none
  interrupt : decision.2 = .Interrupt → l.Struck
  timed_out : decision.2 ≠ .Interrupt → l.record.timed_out = false

omit [DecidableEq ι] in
theorem announced_stable (decision : Bool × UpdateDeadline) :
    Stable (ι := ι) (Local.Announced decision) := fun _ _ h hl =>
  ⟨h.record ▸ hl.demoted, h.record ▸ hl.output, fun hd => (hl.interrupt hd).stable h,
    fun hd => h.record ▸ hl.timed_out hd⟩

omit [DecidableEq ι] in
theorem Local.Announced.told {decision : Bool × UpdateDeadline} {l : Local (Thread ι)}
    (h : l.Announced decision) : l.Told := told_of_none h.output

/-- The callback returns. -/
theorem decided_safe (decision : Bool × UpdateDeadline) (hs : (s.view F i).Decided decision) :
    (logic F (.task i)).Safe (fun d s => (s.view F i).Decided d) (.ret decision) s :=
  fun _ hrely => rely_stable (decided_stable decision) hrely hs

/-- Asking the tokens keeps what the callback starts from. -/
theorem fresh_safe {α : Type} {p : TokenM α} (hp : p.Only Calm) (hs : (s.view F i).Fresh) :
    (logic F (.task i)).Safe (fun _ s => (s.view F i).Fresh) (on_tokens p) s :=
  safe_quiet fresh_stable (fun _ => Local.Fresh.told) (on_tokens_quiet hp) hs

/-- The callback lets the guest go on, now or after the pause. -/
theorem yield_safe (hs : (s.view F i).Fresh) :
    (logic F (.task i)).Safe (fun d s => (s.view F i).Decided d)
      (on_tokens do
        if ← PauseToken.is_paused then
          PauseToken.mark_resident
          pure (false, .YieldCustom)
        else pure (false, .Yield)) s := by
  have hpaused : PauseToken.is_paused.Only Calm := ⟨trivial, fun _ => trivial⟩
  rw [on_tokens_bind]
  refine .bind (fresh_safe hpaused hs) ?_
  intro paused s₁ hs₁
  cases paused with
  | false => exact decided_safe (false, .Yield) ⟨hs₁, fun h => by simp at h, fun h => by simp at h⟩
  | true =>
    show (logic F (.task i)).Safe _ (on_tokens
      (PauseToken.mark_resident >>= fun _ => pure (false, UpdateDeadline.YieldCustom))) s₁
    rw [on_tokens_bind]
    refine .bind (fresh_safe mark_resident_calm hs₁) ?_
    intro _ s₂ hs₂
    exact decided_safe (false, .YieldCustom) ⟨hs₂, fun h => by simp at h, fun h => by simp at h⟩

/-- What the callback decides is what the flags say. -/
theorem epoch_callback_safe (start : ℕ × ℕ) (timeout : ℕ) (hs : (s.view F i).Fresh) :
    (logic F (.task i)).Safe (fun d s => (s.view F i).Decided d)
      (on_tokens (epoch_callback start timeout)) s := by
  rw [epoch_callback, on_tokens_bind]
  refine .bind (fresh_safe total_paused_calm hs) ?_
  intro total_paused s₁ hs₁
  rw [epoch_decision, on_tokens_bind]
  refine .bind (fresh_safe (elapsed_calm _) hs₁) ?_
  intro elapsed s₂ hs₂
  show (logic F (.task i)).Safe _ (act (.command (.token .load_evicted)) >>= fun _ => _) s₂
  refine .bind (load_evicted_safe fresh_stable (fun _ => Local.Fresh.told) hs₂) ?_
  rintro evicted s₃ ⟨hs₃, hevicted⟩
  -- In the order of the source: an eviction, a cancellation and then the timeout.
  cases evicted with
  | true => exact decided_safe (false, .Interrupt) ⟨hs₃, fun _ => rfl, fun _ => .inl hevicted⟩
  | false =>
    show (logic F (.task i)).Safe _ (act (.command (.token .load_cancelled)) >>= fun _ => _) s₃
    refine .bind (load_cancelled_safe fresh_stable (fun _ => Local.Fresh.told) hs₃ True
      fun _ _ _ => trivial) ?_
    rintro cancelled s₄ ⟨hs₄, hcancelled, -⟩
    cases cancelled with
    | true =>
      exact decided_safe (false, .Interrupt) ⟨hs₄, fun _ => rfl, fun _ => .inr (hcancelled rfl)⟩
    | false =>
      show (logic F (.task i)).Safe _
        (on_tokens (if timeout ≤ active elapsed total_paused start.2 then _ else _)) s₄
      split
      · exact decided_safe (true, .Interrupt) ⟨hs₄, fun _ => rfl, fun h => by simp at h⟩
      · exact yield_safe hs₄

/-- The whole callback, which records a timeout before it returns. -/
theorem callback_safe (g : Guest) (hs : (s.view F i).Fresh) :
    (logic F (.task i)).Safe (fun d s => (s.view F i).Announced d) g.callback s := by
  unfold Guest.callback
  refine .bind (epoch_callback_safe _ _ hs) ?_
  rintro ⟨timed_out, update⟩ s₁ hs₁
  cases timed_out with
  | false =>
    show (logic F (.task i)).Safe _ (.ret (false, update)) s₁
    intro s₂ hrely
    refine rely_stable (announced_stable _) hrely
      ⟨hs₁.demoted, hs₁.output, ?_, fun _ => hs₁.timed_out⟩
    rintro rfl
    exact (hs₁.interrupt rfl).imp_right .inr
  | true =>
    -- A timeout is stored before the interruption is returned.
    have hupdate : update = .Interrupt := hs₁.timeout rfl
    show (logic F (.task i)).Safe _ (act .store_timed_out >>= fun _ => .ret (true, update)) s₁
    refine .bind (safe_act .store_timed_out (Q := fun _ l => l.Announced (true, update))
      fresh_stable (fun _ => announced_stable _) (fun _ _ h => h.told) ?_
      hs₁.toFresh) ?_
    · intro w l hl
      exact ⟨hl.demoted, hl.output, fun _ => .inr (.inl rfl), fun h => absurd hupdate h⟩
    · intro _ s₂ hs₂ s₃ hrely
      exact rely_stable (announced_stable _) hrely hs₂

/-- The store does what the callback says. -/
theorem obey_safe (g : Guest) {decision : Bool × UpdateDeadline}
    (hs : (s.view F i).Announced decision) :
    (logic F (.task i)).Safe (Ends F i) (g.obey decision) s := by
  obtain ⟨timed_out, update⟩ := decision
  unfold Guest.obey
  refine .bind (safe_act (.update_deadline (timed_out, update))
    (Q := fun _ l => l.Announced (timed_out, update)) (announced_stable _)
    (fun _ => announced_stable _) (fun _ _ h => h.told) ?_ hs) ?_
  · intro w l hl
    exact ⟨hl.demoted, hl.output, hl.interrupt, hl.timed_out⟩
  intro _ s₁ hs₁
  cases update with
  | Yield => exact goto_safe _ ⟨hs₁.timed_out (by simp), hs₁.demoted, hs₁.output⟩
  | YieldCustom => exact goto_safe _ ⟨hs₁.timed_out (by simp), hs₁.demoted, hs₁.output⟩
  | Interrupt =>
    refine .bind (safe_act (.interrupt g.await)
      (Q := fun outcome l => l.Ended g.await .interrupted ∧ g.await.failed outcome = true)
      (announced_stable _) (fun _ => (ended_stable _ _).and fun _ _ _ h => h)
      (fun _ _ h => h.1.told) ?_ hs₁) ?_
    · intro w l hl
      exact ⟨⟨hl.demoted, hl.output, rfl, fun _ => hl.interrupt rfl, fun h => by simp at h⟩,
        w.interrupt_failed g.await⟩
    · rintro outcome s₂ ⟨hs₂, hfailed⟩
      refine ended_safe g outcome (fun _ => by simp) (fun h => ?_) hs₂
      rw [hfailed] at h
      cases h

/-- The store at an epoch. -/
theorem at_epoch_safe (g : Guest) (hs : (s.view F i).Fresh) :
    (logic F (.task i)).Safe (Ends F i) g.at_epoch s :=
  Rg.Safe.bind (callback_safe g hs) fun _ _ hannounced => obey_safe g hannounced

/-- How far the guest has got. -/
def Local.Executed (a : Await) (progress : Progress a.Outcome) (l : Local (Thread ι)) : Prop :=
  match progress with
  | .epoch => l.Fresh
  | .ended outcome => l.Ended a (if a.failed outcome then .failed else .returned)

omit [DecidableEq ι] in
theorem executed_stable (a : Await) (progress : Progress a.Outcome) :
    Stable (ι := ι) (Local.Executed a progress) := by
  cases progress with
  | epoch => exact fresh_stable
  | ended outcome => exact ended_stable _ _

omit [DecidableEq ι] in
theorem Local.Executed.output {a : Await} {progress : Progress a.Outcome} {l : Local (Thread ι)}
    (h : l.Executed a progress) : l.record.output = none := by
  cases progress with
  | epoch => exact Fresh.output h
  | ended outcome => exact Ended.output h

omit [DecidableEq ι] in
theorem Local.Fresh.executed {l : Local (Thread ι)} (h : l.Fresh) (a : Await)
    (progress : Progress a.Outcome) :
    Executed a progress { l with record := l.record.executed a progress } := by
  cases progress with
  | epoch => exact h
  | ended outcome =>
    refine ⟨h.demoted, h.output, rfl, ?_, fun _ => h.timed_out⟩
    by_cases hfailed : a.failed outcome = true
    · simp [hfailed]
    · simp [hfailed]

/-- The guest is executed. -/
theorem execute_safe (g : Guest) (hs : (s.view F i).Fresh) :
    (logic F (.task i)).Safe (Ends F i) g.execute s := by
  unfold Guest.execute
  refine .bind (safe_act (.guest g.await)
    (Q := fun progress l => l.Executed g.await progress) fresh_stable
    (fun progress => executed_stable g.await progress) (fun _ _ h => Local.told_of_none h.output)
    (fun w _ h => h.executed g.await (w.guest g.await)) hs) ?_
  intro progress s₁ hs₁
  cases progress with
  | epoch => exact at_epoch_safe g hs₁
  | ended outcome =>
    refine ended_safe g outcome ?_ ?_ hs₁
    · intro hfailed
      simp [hfailed]
    · intro hreturned
      simp [hreturned]

/-- The guest is suspended; the eviction, if it comes, is the last that `wait` does. -/
theorem suspend_safe (g : Guest) (block : Block) (hs : (s.view F i).Fresh) :
    (logic F (.task i)).Safe (Ends F i) (g.suspend block) s := by
  unfold Guest.suspend
  refine .bind (safe_only fresh_stable (fun _ => Local.Fresh.told) ?_
    (on_tokens_only _) hs) ?_
  · intro op w l hop hl
    cases op with
    | command op =>
      cases op with
      | token op => exact ⟨hl.timed_out, hl.demoted, hl.output⟩
      | _ => exact hop.elim
    | _ => exact hop.elim
  · intro next s₁ hs₁
    cases next with
    | none => exact goto_safe _ hs₁
    | some block => exact goto_safe _ hs₁

/-- Every block, from what holds where it is entered. -/
theorem body_safe (block : InvokeBlock) (hs : (s.view F i).Fresh) :
    (logic F (.task i)).Safe (Ends F i) block.body s := by
  cases block with
  | guest g => exact execute_safe g hs
  | wait g block => exact suspend_safe g block hs

/-- The task from its beginning to its first block. -/
theorem start_safe (c : Command) (hs : (s.view F i).Unstarted) :
    (logic F (.task i)).Safe (Ends F i) c.start s := by
  unfold Command.start
  refine .bind (safe_quiet unstarted_stable (fun _ h => Local.told_of_none h.output)
    (run_controlled_quiet c) hs) ?_
  intro result s₁ hs₁
  cases result with
  | error e => exact finish_safe ⟨hs₁.demoted, hs₁.output, .refused e hs₁.ended hs₁.evicted⟩
  | ok guest =>
    cases guest with
    | none =>
      intro s₂ hrely
      exact rely_stable told_stable hrely (Local.told_of_none hs₁.output)
    | some g => exact goto_safe _ hs₁.toFresh

/-- A caller leaves everyone alone. -/
theorem caller_safe {k : ℕ} {p : InvokeBlockM}
    (hp : Tasks.Text InvokeOp.Quiet (fun _ => False) p) :
    (logic F (.caller i k)).Safe (Tasks.Post (fun _ => True) fun _ _ => False) p s := by
  induction p generalizing s with
  | ret b =>
    cases b with
    | none => exact fun _ _ => trivial
    | some block => exact hp.elim
  | vis op k ih =>
    intro s₁ hrely r s₂ hstep
    refine ⟨⟨fun j _ => performs_quiet F hstep hp.1 j, ?_⟩, ih r (hp.2 r)⟩
    intro j hj
    cases hj

end Safe

/-! ## All threads together

The blocks make up a run, and there is no other way to miss the reason. -/

section Runs

variable {ι τ : Type} [DecidableEq ι] [DecidableEq τ] (F : Commands ι τ)

/-- What a thread has met when it returns. -/
def Returned : Thread ι → System ι τ → Prop
  | .task i, s => (s.view F i).Told
  | .caller _ _, _ => True

/-- What holds when a thread enters a block. -/
def Enters : Thread ι → InvokeBlock → System ι τ → Prop
  | .task i, _, s => (s.view F i).Fresh
  | .caller _ _, _, _ => False

/-- The threads guarantee each other what they rely on. -/
theorem fits :
    Tasks.Fits (logic F) elapses InvokeBlock.body (Returned F) (Enters F) where
  guar who other hne s op r s' h i hi := by
    subst hi
    exact h.1 i hne.symm
  env who s s' h i hi := by
    exact elapses_untouched F h i
  body who block s h := by
    cases who with
    | task i => exact body_safe block h
    | caller i k => exact h.elim

/-- Every thread, from the start. -/
theorem start_all_safe (calls : ι → ℕ → List CommandCall) (who : Thread ι) :
    (logic F who).Safe (Tasks.Post (Returned F who) (Enters F who))
      ((Machine.start F calls).threads who) (Machine.start F calls).state := by
  cases who with
  | task i => exact start_safe (F.command i) ⟨⟨rfl, rfl, rfl⟩, rfl, rfl⟩
  | caller i k => exact caller_safe (perform_calls_text (calls i k))

/-- At every moment of every run, what a task has returned is what is due. -/
theorem told (calls : ι → ℕ → List CommandCall) {T : Machine ι τ}
    (hrun : Tasks.Run (Performs F) elapses InvokeBlock.body (Machine.start F calls) T) (i : ι) :
    (T.state.view F i).Told := by
  induction hrun with
  | refl => exact Local.told_of_none rfl
  | tail hprev hstep ih =>
    cases hstep with
    | thread who op k r s hi hs =>
      have hguar := Tasks.about_to (fits F) (start_all_safe F calls) hprev hi hs
      by_cases hwho : who = .task i
      · exact hguar.2 i hwho
      · exact ih.stable (hguar.1 i hwho)
    | again who block hi => exact ih
    | env s hs =>
      exact ih.stable (elapses_untouched F hs i)

/-- An execution error is not the reason for an interruption. -/
theorem Local.interruption_ne_execution {κ : Type} {l : Local κ} (message : String) :
    l.interruption ≠ some (.Execution message) := by
  unfold interruption
  split
  · simp
  split
  · simp
  split
  · simp
  · simp

/-- The reason is returned unless the guest was interrupted while it was being instantiated, and an
eviction unless the guest failed there or got to its end all the same. -/
theorem Local.Told.classified_iff {κ : Type} {l : Local κ} (h : l.Told)
    {result : Except Error CommandOutput} (houtput : l.record.output = some result) :
    l.Classified ↔
      (∀ a, l.record.ended = some (a, .interrupted) → a.instantiates = false) ∧
      (l.pause.evicted = true →
        ∃ a how, l.record.ended = some (a, how) ∧ a.instantiates = false ∧ how ≠ .returned) := by
  obtain ⟨hdue, hdemoted⟩ := h result houtput
  -- By where the invocation ended. What is asked fails in two of the cases only: a trap of the
  -- instantiation is told as such, whatever caused it, and an output is told as an output.
  cases hdue with
  | refused e hended hevicted =>
    constructor
    · intro _
      exact ⟨fun a ha => by simp [hended] at ha, fun he => by simp [hevicted] at he⟩
    · intro _
      exact ⟨fun a ha => by simp [hended] at ha, fun he => by simp [hevicted] at he⟩
  | instantiation message a how hended ha hstruck =>
    constructor
    · intro hclassified
      constructor
      · intro a' ha'
        obtain ⟨e, he, hout⟩ := hclassified.interrupted a' ha'
        rw [houtput] at hout
        cases hout
        exact absurd he (interruption_ne_execution message)
      · intro hevicted
        have hout := (hclassified.evicted hevicted).1
        rw [houtput] at hout
        cases hout
    · rintro ⟨hinterrupted, hevicted⟩
      constructor
      · intro a' ha'
        have hfalse := hinterrupted a' ha'
        rw [hended] at ha'
        cases ha'
        rw [ha] at hfalse
        cases hfalse
      · intro he
        obtain ⟨a', how', ha', hfalse, -⟩ := hevicted he
        rw [hended] at ha'
        cases ha'
        rw [ha] at hfalse
        cases hfalse
  | execution e a how hended ha hhow hevicted hinterrupted =>
    constructor
    · intro _
      constructor
      · intro a' ha'
        rw [hended] at ha'
        cases ha'
        exact ha
      · intro _
        exact ⟨a, how, hended, ha, hhow⟩
    · intro _
      constructor
      · intro a' ha'
        rw [hended] at ha'
        cases ha'
        exact ⟨e, hinterrupted rfl, houtput⟩
      · intro he
        cases hevicted he
        exact ⟨houtput, hdemoted⟩
  | returned output a hended =>
    constructor
    · intro hclassified
      constructor
      · intro a' ha'
        rw [hended] at ha'
        cases ha'
      · intro hevicted
        have hout := (hclassified.evicted hevicted).1
        rw [houtput] at hout
        cases hout
    · rintro ⟨-, hevicted⟩
      constructor
      · intro a' ha'
        rw [hended] at ha'
        cases ha'
      · intro he
        obtain ⟨a', how', ha', -, hhow⟩ := hevicted he
        rw [hended] at ha'
        cases ha'
        exact absurd rfl hhow

omit [DecidableEq ι] [DecidableEq τ] in
/-- What is asked of an eviction, in terms of the state. -/
theorem classified_evicted {s : System ι τ} {i : ι} (h : (s.view F i).Classified)
    (hevicted : (s.pause i).evicted = true) : (s.record i).output = some (.error .IdleEvicted) :=
  (h.evicted hevicted).1

/-- In every run, for every command whose task has returned: the error is the one for the reason
of the interruption, with an eviction demoting the package, if and only if the interruption, if
there was one, struck the call of `run`, and the guest, if its token was evicted, failed in that
call. -/
theorem interruptions_classified_iff (calls : ι → ℕ → List CommandCall)
    (schedule : List (Event ι)) (i : ι) (result : Except Error CommandOutput)
    (houtput : ((Machine.run F none calls schedule).state.record i).output = some result) :
    ((Machine.run F none calls schedule).state.view F i).Classified ↔
      (∀ a, ((Machine.run F none calls schedule).state.record i).ended = some (a, .interrupted) →
        a.instantiates = false) ∧
      (((Machine.run F none calls schedule).state.pause i).evicted = true →
        ∃ a how, ((Machine.run F none calls schedule).state.record i).ended = some (a, how) ∧
          a.instantiates = false ∧ how ≠ .returned) :=
  (told F calls (run_run F none calls schedule) i).classified_iff houtput

end Runs

/-! ## A command that is interrupted

During its instantiation, and during its `run`. -/

/-- What Wasmtime answers for a guest that was unwound. -/
def sampleUnwound : (a : Await) → a.Outcome
  | .instantiate_p3 | .run_p3 | .instantiate_p2 | .run_p2 => .error "wasm trap: interrupt"

theorem sampleUnwound_failed (a : Await) : a.failed (sampleUnwound a) = true := by
  cases a <;> rfl

/-- A component of the 0.3 profile whose start function does not end. -/
def sampleSpinning : Outside where
  tier := .Cold
  prepare := .ok .Cli0_3
  set_fuel := .ok ()
  linker _ := .ok ()
  guest _ := .epoch
  interrupt := sampleUnwound
  interrupt_failed := sampleUnwound_failed
  stdout := []
  stderr := []

/-- How far a guest gets whose `run` does not end. -/
def sampleProgress : (a : Await) → Progress a.Outcome
  | .instantiate_p3 | .instantiate_p2 => .ended (.ok ())
  | .run_p3 | .run_p2 => .epoch

/-- A component whose `run` does not end. -/
def sampleLooping : Outside := { sampleSpinning with guest := sampleProgress }

theorem sample_ttl_le : 1 ≤ DURATION_MAX := by decide

/-- One command, with a timeout of ten nanoseconds and a residency limit of one. -/
def sampleCommands : Commands Unit Unit where
  command _ := ⟨⟨[], [], [], 10⟩, 0, 10, 1, sample_ttl_le⟩
  token := id

/-- A thread makes a number of moves. -/
def sampleMoves (n : ℕ) (who : Thread Unit) (w : Outside) : List (Event Unit) :=
  List.replicate n (.thread who w)

/-- The command is paused while it is instantiated, and stays so for longer than the limit. -/
def sampleEvicted : Machine Unit Unit :=
  .run sampleCommands none (fun _ _ => [.pause])
    (sampleMoves 20 (.caller () 0) sampleSpinning ++ sampleMoves 60 (.task ()) sampleSpinning ++
      [.clock 1 firstBranch] ++ sampleMoves 60 (.task ()) sampleSpinning)

/-- The eviction during the instantiation is returned as an execution error, and the package is
not demoted. -/
theorem instantiation_eviction_unclassified :
    (sampleEvicted.state.pause ()).evicted = true ∧
      (sampleEvicted.state.record ()).ended = some (.instantiate_p3, .interrupted) ∧
      (sampleEvicted.state.record ()).output
        = some (.error (.Execution "wasm trap: interrupt")) ∧
      (sampleEvicted.state.record ()).demoted = false ∧
      ¬ (sampleEvicted.state.view sampleCommands ()).Classified := by
  have hevicted : (sampleEvicted.state.pause ()).evicted = true := by decide +kernel
  have houtput : (sampleEvicted.state.record ()).output
      = some (.error (.Execution "wasm trap: interrupt")) := by decide +kernel
  refine ⟨hevicted, by decide +kernel, houtput, by decide +kernel, ?_⟩
  intro hclassified
  have hout := classified_evicted sampleCommands hclassified hevicted
  rw [houtput] at hout
  cases hout

/-- The moves of a command that is cancelled while its `run` loops. -/
def sampleCancelling : List (Event Unit) :=
  sampleMoves 60 (.task ()) sampleLooping ++ sampleMoves 4 (.caller () 0) sampleLooping ++
    sampleMoves 60 (.task ()) sampleLooping

/-- The command after them. -/
def sampleCancelled : Machine Unit Unit :=
  .run sampleCommands none (fun _ _ => [.cancel]) sampleCancelling

theorem interruptions_classified_cancelled :
    (sampleCancelled.state.record ()).output = some (.error .Cancelled) ∧
      (sampleCancelled.state.view sampleCommands ()).Classified := by
  have houtput : (sampleCancelled.state.record ()).output = some (.error .Cancelled) := by
    decide +kernel
  have hended : (sampleCancelled.state.record ()).ended = some (.run_p3, .interrupted) := by
    decide +kernel
  have hevicted : (sampleCancelled.state.pause ()).evicted = false := by decide +kernel
  unfold sampleCancelled at houtput hended hevicted ⊢
  refine ⟨houtput, (interruptions_classified_iff sampleCommands (fun _ _ => [.cancel])
    sampleCancelling () _ houtput).mpr ⟨?_, ?_⟩⟩
  · intro a ha
    rw [hended] at ha
    cases ha
    rfl
  · intro h
    rw [hevicted] at h
    cases h

end WasmRuntime.Invoke
