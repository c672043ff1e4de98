/-
The life of an invocation: `RunningCommand`, and the task that it controls.

The controller calls `pause`, `resume`, `cancel` and `state` on the handle, and drops it. The task
executes the guest; at an epoch it runs the callback, which may put it into `PauseToken::wait`, and
it comes to its end at some time.
-/
import Mathlib.Logic.Relation
import WasmRuntime.Crate
import WasmRuntime.PauseTime

set_option autoImplicit false

namespace WasmRuntime.Token

open Prog

/-! ## The handle

`RunningCommand`: its methods call those of the tokens and ask for the task. -/

inductive InvocationState where
  | Running | PauseRequested | PausedResident | Evicted | Finished
  deriving DecidableEq, Repr

/-- Where the task is: it executes the guest, it is in `wait`, or it is done. -/
inductive Task where
  | executing
  | waiting (block : Block)
  | finished
  deriving DecidableEq, Repr

/-- The tokens of an invocation, and its task. -/
structure Invocation where
  tokens : Tokens Unit
  task : Task
  deriving DecidableEq, Repr

/-- What the handle asks for: an operation on the tokens, the resident flag, and whether the
task is there and not finished. -/
inductive CommandOp where
  | token (op : TokenOp)
  | load_resident
  | is_finished

/-- The answers. -/
@[reducible]
def CommandOp.Answer : CommandOp → Type
  | .token op => op.Answer
  | .load_resident | .is_finished => Bool

/-- What an operation answers and leaves behind. -/
def CommandOp.run (s : Invocation) : (op : CommandOp) → op.Answer × Invocation
  | .token op => ((op.run () s.tokens).1, { s with tokens := (op.run () s.tokens).2 })
  | .load_resident => (s.tokens.resident, s)
  | .is_finished => (decide (s.task = .finished), s)

/-- A method of the handle. -/
abbrev CommandM (α : Type) : Type := Prog CommandOp CommandOp.Answer α

/-- A method of one of the tokens. -/
def on_token {α : Type} (p : TokenM α) : CommandM α := p.lift .token fun _ r => r

/-- `PauseToken::is_resident`. -/
def is_resident : CommandM Bool := perform CommandOp.load_resident

/-- `task.as_ref().is_none_or(JoinHandle::is_finished)`. -/
def is_finished : CommandM Bool := perform CommandOp.is_finished

namespace RunningCommand

/-- `RunningCommand::state`. -/
def state : CommandM InvocationState := do
  if ← on_token PauseToken.is_evicted then pure .Evicted
  else if ← is_finished then pure .Finished
  else if ← is_resident then pure .PausedResident
  else if ← on_token PauseToken.is_paused then pure .PauseRequested
  else pure .Running

/-- `RunningCommand::pause`. -/
def pause : CommandM (Except Error Unit) := do
  match ← state with
  | .Running | .PauseRequested | .PausedResident =>
    on_token PauseToken.pause
    pure (.ok ())
  | .Evicted => pure (.error .IdleEvicted)
  | .Finished => pure (.error (.InvalidState "invocation already finished"))

/-- `RunningCommand::resume`. -/
def resume : CommandM (Except Error Unit) := do
  match ← state with
  | .Running => pure (.ok ())
  | .PauseRequested | .PausedResident =>
    if ← on_token PauseToken.resume then pure (.ok ()) else pure (.error .IdleEvicted)
  | .Evicted => pure (.error .IdleEvicted)
  | .Finished => pure (.error (.InvalidState "invocation already finished"))

/-- `RunningCommand::cancel`. -/
def cancel : CommandM Unit := on_token CancellationToken.cancel

/-- `Drop for RunningCommand`, of a handle that still has its task. -/
def drop : CommandM Unit := do
  on_token CancellationToken.cancel
  let _ ← on_token PauseToken.resume
  pure ()

end RunningCommand

/-! ## The moves

Each call, each callback and each stretch of `wait` between two of its suspension points is one move
here, and the moves come in every order. What one of them does in between is the subject of
`TokenThreads`; here a method is done before the next begins. -/

/-- What the clock and the random number read during a move. -/
structure Reading where
  now : ℕ
  random : Fin 3

/-- The invocation when they read so. -/
def Invocation.at_ (s : Invocation) (reading : Reading) : Invocation :=
  { s with tokens := { s.tokens with now := reading.now, random := reading.random } }

/-- A method of the handle, from its beginning to its end. -/
def Invocation.call {α : Type} (s : Invocation) (p : CommandM α) (reading : Reading) :
    α × Invocation := interp CommandOp.run p (s.at_ reading)

/-- What `state` reports. -/
def Invocation.state (s : Invocation) : InvocationState :=
  (interp CommandOp.run RunningCommand.state s).1

/-- A call of the controller. -/
inductive CommandCall where
  | pause | resume | cancel | state | drop
  deriving DecidableEq, Repr

/-- Its text, without what it returns. -/
def CommandCall.program : CommandCall → CommandM Unit
  | .pause => do
      let _ ← RunningCommand.pause
      pure ()
  | .resume => do
      let _ ← RunningCommand.resume
      pure ()
  | .cancel => RunningCommand.cancel
  | .state => do
      let _ ← RunningCommand.state
      pure ()
  | .drop => RunningCommand.drop

/-- Where the task is after the callback: it waits if the callback says so. -/
def Task.after_epoch : Bool × UpdateDeadline → Task
  | (_, .YieldCustom) => .waiting .wait
  | _ => .executing

/-- Where the task is after a stretch of `wait`: at the next one, or with the guest again. -/
def Task.after_wait : Option Block → Task
  | some block => .waiting block
  | none => .executing

/-- One move, with a limit on the time a paused invocation stays. -/
inductive Invocation.Step (resident_ttl : ℕ) (s : Invocation) : Invocation → Prop where
  | call (c : CommandCall) (reading : Reading) : Step resident_ttl s (s.call c.program reading).2
  | epoch (start : ℕ × ℕ) (timeout : ℕ) (reading : Reading) (htask : s.task = .executing) :
      Step resident_ttl s ⟨(interp (TokenOp.run ()) (epoch_callback start timeout)
          (s.at_ reading).tokens).2,
        .after_epoch (interp (TokenOp.run ()) (epoch_callback start timeout)
          (s.at_ reading).tokens).1⟩
  | wait (block : Block) (reading : Reading) (htask : s.task = .waiting block) :
      Step resident_ttl s ⟨(interp (TokenOp.run ()) (block.body resident_ttl)
          (s.at_ reading).tokens).2,
        .after_wait (interp (TokenOp.run ()) (block.body resident_ttl)
          (s.at_ reading).tokens).1⟩
  | finish (htask : s.task ≠ .finished) : Step resident_ttl s { s with task := .finished }

/-- Any number of moves. -/
def Invocation.Run (resident_ttl : ℕ) : Invocation → Invocation → Prop :=
  Relation.ReflTransGen (Invocation.Step resident_ttl)

/-- `Program::start`: the pause token is a new one, the cancellation token is the caller's and
may have been cancelled. -/
def Invocation.start (cancelled : Bool) : Invocation where
  tokens := { (Tokens.new 0 firstBranch : Tokens Unit) with cancelled := cancelled }
  task := .executing

/-! ## How the flags are related

The flags are independent of each other as far as their types go. `Tokens.Sound` says how they are
related, and `Keeps` that a method maintains it. -/

/-- What holds of the flags between two methods. -/
structure Tokens.Sound (s : Tokens Unit) : Prop where
  resident : s.resident = true → s.paused = true ∧ s.evicted = false
  stamped : s.timing.paused_at.isSome = s.paused
  evicted : s.evicted = true → s.cancelled = true

/-- A method that keeps the flags related and an evicted token evicted. -/
def Keeps {α : Type} (p : TokenM α) : Prop :=
  ∀ s : Tokens Unit, s.Sound → (interp (TokenOp.run ()) p s).2.Sound ∧
    (s.evicted = true → (interp (TokenOp.run ()) p s).2.evicted = true)

variable {α : Type} {p : TokenM α} {s s' : Invocation}

theorem Keeps.ret (a : α) : Keeps (.ret a) := fun _ hs => ⟨hs, id⟩

theorem Keeps.bind {β : Type} {f : α → TokenM β} (hp : Keeps p) (hf : ∀ a, Keeps (f a)) :
    Keeps (p >>= f) := by
  intro s hs
  rw [interp_bind]
  obtain ⟨hmid, hstay⟩ := hp s hs
  obtain ⟨hend, hstay'⟩ := hf (interp (TokenOp.run ()) p s).1 _ hmid
  exact ⟨hend, fun h => hstay' (hstay h)⟩

/-- The operations that touch none of the flags in question. -/
def TokenOp.Harmless : TokenOp → Bool
  | .swap_paused _ | .store_resident true | .store_evicted | .take_paused_at
  | .write_paused_at _ => false
  | _ => true

theorem Keeps.ask {op : TokenOp} (hop : op.Harmless = true) : Keeps (ask op) := by
  rintro s ⟨hresident, hstamped, hevicted⟩
  cases op with
  | store_resident value =>
    cases value with
    | true => cases hop
    | false => exact ⟨⟨nofun, hstamped, hevicted⟩, id⟩
  | store_cancelled => exact ⟨⟨hresident, hstamped, fun _ => rfl⟩, id⟩
  | swap_paused _ | store_evicted | take_paused_at | write_paused_at _ => cases hop
  | _ => exact ⟨⟨hresident, hstamped, hevicted⟩, id⟩

theorem Keeps.ite {c : Prop} [Decidable c] {q : TokenM α} (hp : Keeps p) (hq : Keeps q) :
    Keeps (if c then p else q) := by
  split
  · exact hp
  · exact hq

/-! The four methods that set the flags, each as a whole. -/

/-- `pause`. -/
theorem pause_keeps : Keeps PauseToken.pause := by
  rintro ⟨paused, resident, evicted, cancelled, ⟨completed, paused_at⟩, _⟩
    ⟨hresident, hstamped, hevicted⟩
  cases paused with
  | true => exact ⟨⟨hresident, hstamped, hevicted⟩, id⟩
  | false => exact ⟨⟨nofun, rfl, hevicted⟩, id⟩

theorem resume_keeps : Keeps PauseToken.resume := by
  rintro ⟨paused, resident, evicted, cancelled, ⟨completed, paused_at⟩, _⟩
    ⟨hresident, hstamped, hevicted⟩
  cases evicted with
  | true => exact ⟨⟨hresident, hstamped, hevicted⟩, id⟩
  | false =>
    cases paused with
    | false => exact ⟨⟨hresident, hstamped, nofun⟩, nofun⟩
    | true =>
      cases paused_at with
      | none => cases hstamped
      | some started => exact ⟨⟨nofun, rfl, nofun⟩, nofun⟩

theorem mark_resident_keeps : Keeps PauseToken.mark_resident := by
  rintro ⟨paused, resident, evicted, cancelled, ⟨completed, paused_at⟩, _⟩
    ⟨hresident, hstamped, hevicted⟩
  cases paused with
  | false => exact ⟨⟨hresident, hstamped, hevicted⟩, id⟩
  | true =>
    cases evicted with
    | true => exact ⟨⟨hresident, hstamped, hevicted⟩, id⟩
    | false => exact ⟨⟨fun _ => ⟨rfl, rfl⟩, hstamped, nofun⟩, nofun⟩

theorem evict_keeps : Keeps PauseToken.evict := by
  rintro s ⟨-, hstamped, -⟩
  exact ⟨⟨nofun, hstamped, fun _ => rfl⟩, fun _ => rfl⟩

theorem cancel_keeps : Keeps CancellationToken.cancel :=
  .bind (.ask rfl) fun _ => .ask rfl

theorem elapsed_keeps (started : ℕ) : Keeps (PauseToken.elapsed started) :=
  .bind (.ask rfl) fun _ => .ret _

/-! What the task does is made of these and of operations that are harmless. -/

theorem total_paused_keeps : Keeps PauseToken.total_paused := by
  refine .bind (.ask rfl) fun _ => .bind (.ask rfl) fun timing => ?_
  cases timing.paused_at with
  | none => exact .bind (.ret _) fun _ => .bind (.ask rfl) fun _ => .ret _
  | some started => exact .bind (elapsed_keeps started) fun _ => .bind (.ask rfl) fun _ => .ret _

/-- The callback marks as resident only what is paused. -/
theorem epoch_callback_keeps (start : ℕ × ℕ) (timeout : ℕ) :
    Keeps (epoch_callback start timeout) := by
  refine .bind total_paused_keeps fun total => .bind (elapsed_keeps _) fun elapsed => ?_
  refine .bind (.ask rfl) fun evicted => .ite (.ret _) ?_
  refine .bind (.ask rfl) fun cancelled => .ite (.ret _) (.ite (.ret _) ?_)
  refine .bind (.ask rfl) fun paused => .ite ?_ (.ret _)
  exact .bind mark_resident_keeps fun _ => .ret _

theorem remaining_keeps (resident_ttl : ℕ) : Keeps (PauseToken.remaining resident_ttl) := by
  refine .bind (.ask rfl) fun _ => .bind (.ask rfl) fun timing => ?_
  cases timing.paused_at with
  | none => exact .bind (.ret _) fun _ => .bind (.ask rfl) fun _ => .ret _
  | some started =>
    refine .bind (elapsed_keeps started) fun _ => .bind (.ret _) fun _ => ?_
    exact .bind (.ask rfl) fun _ => .ret _

/-- `wait`, up to its first suspension. -/
theorem wait_keeps (resident_ttl : ℕ) : Keeps (PauseToken.wait resident_ttl) := by
  refine .bind (.ask rfl) fun notified => .bind (.ask rfl) fun paused => .ite (.ret _) ?_
  refine .bind (.ask rfl) fun cancelled => .ite (.ret _) ?_
  refine .bind (remaining_keeps resident_ttl) fun remaining => .ite ?_ ?_
  · exact .bind evict_keeps fun _ => .ret _
  · exact .bind (.ask rfl) fun _ => .ret _

/-- The polls of `select!`, of which one evicts. -/
theorem poll_keeps (s : Select) (todo : List Branch) : Keeps (PauseToken.poll s todo) := by
  match todo with
  | [] => exact .bind (.ask rfl) fun _ => .ret _
  | .notified :: rest => exact .bind (.ask rfl) fun _ => .ite (.ret _) (.ret _)
  | .cancelled :: rest =>
    show Keeps (PauseToken.poll_cancelled s rest)
    unfold PauseToken.poll_cancelled
    cases s.cancelled with
    | none => exact .bind (.ask rfl) fun _ => .bind (.ask rfl) fun _ => .ite (.ret _) (.ret _)
    | some since => exact .bind (.ask rfl) fun _ => .ite (.ret _) (.ret _)
  | .sleep :: rest =>
    refine .bind (.ask rfl) fun now => .ite (.ret _) ?_
    refine .bind (.ask rfl) fun paused => .ite ?_ (.ret _)
    exact .bind evict_keeps fun _ => .ret _

/-- Every block of `wait`. -/
theorem block_keeps (resident_ttl : ℕ) (block : Block) : Keeps (block.body resident_ttl) := by
  cases block with
  | cancelled => exact .bind (.ask rfl) fun _ => .bind (.ask rfl) fun _ => .ite (.ret _) (.ret _)
  | cancelled_await since =>
    refine .bind (.ask rfl) fun _ => .ite (.ret _) ?_
    exact .bind (.ask rfl) fun _ => .ret _
  | wait => exact wait_keeps resident_ttl
  | select s => exact .bind (.ask rfl) fun _ => .ret _
  | poll s todo => exact poll_keeps s todo

/-! ## What the handle's methods do

Each is computed once; the runs below use nothing else of them. -/

/-- A method of a token acts on the tokens alone. -/
theorem interp_on_token (p : TokenM α) (s : Invocation) :
    interp CommandOp.run (on_token p) s
      = ((interp (TokenOp.run ()) p s.tokens).1,
          { s with tokens := (interp (TokenOp.run ()) p s.tokens).2 }) := by
  unfold on_token
  induction p generalizing s with
  | ret a => rfl
  | vis op k ih => exact ih _ _

/-- `state` looks at the flags, in this order, and changes nothing. -/
theorem interp_state (s : Invocation) :
    interp CommandOp.run RunningCommand.state s =
      (if s.tokens.evicted then .Evicted
        else if s.task = .finished then .Finished
        else if s.tokens.resident then .PausedResident
        else if s.tokens.paused then .PauseRequested
        else .Running, s) := by
  obtain ⟨⟨paused, resident, evicted, _⟩, task⟩ := s
  cases task <;> cases evicted <;> cases resident <;> cases paused <;> rfl

theorem Invocation.state_eq (s : Invocation) :
    s.state = if s.tokens.evicted then .Evicted
      else if s.task = .finished then .Finished
      else if s.tokens.resident then .PausedResident
      else if s.tokens.paused then .PauseRequested
      else .Running := congrArg Prod.fst (interp_state s)

theorem Invocation.interp_state_self (s : Invocation) :
    interp CommandOp.run RunningCommand.state s = (s.state, s) := by
  rw [interp_state, s.state_eq]

/-- An eviction is never hidden. -/
theorem Invocation.state_evicted : s.state = .Evicted ↔ s.tokens.evicted = true := by
  rw [s.state_eq]
  cases s.tokens.evicted <;> simp only [Bool.false_eq_true, ↓reduceIte, iff_false]
  split
  · nofun
  · split
    · nofun
    · split <;> nofun

theorem Invocation.state_finished :
    s.state = .Finished ↔ s.tokens.evicted = false ∧ s.task = .finished := by
  rw [s.state_eq]
  cases s.tokens.evicted with
  | true => simp
  | false =>
    by_cases hfinished : s.task = .finished
    · simp [hfinished]
    · simp only [Bool.false_eq_true, hfinished, ↓reduceIte, and_false, iff_false]
      split
      · nofun
      · split <;> nofun

theorem Invocation.resident_of_state (h : s.state = .PausedResident) :
    s.tokens.resident = true := by
  rw [s.state_eq] at h
  split at h
  · cases h
  · split at h
    · cases h
    · split at h
      · assumption
      · split at h <;> cases h

/-- A method of the handle keeps the flags related, evicts nothing and leaves the task where
it is. -/
def Handles {α : Type} (p : CommandM α) : Prop :=
  ∀ s : Invocation, s.tokens.Sound → (interp CommandOp.run p s).2.tokens.Sound ∧
    (interp CommandOp.run p s).2.tokens.evicted = s.tokens.evicted ∧
    (interp CommandOp.run p s).2.task = s.task

theorem Handles.ret (a : α) : Handles (.ret a) := fun _ hs => ⟨hs, rfl, rfl⟩

theorem Handles.bind {β : Type} {p : CommandM α} {f : α → CommandM β} (hp : Handles p)
    (hf : ∀ a, Handles (f a)) : Handles (p >>= f) := by
  intro s hs
  rw [interp_bind]
  obtain ⟨hmid, hevicted, htask⟩ := hp s hs
  obtain ⟨hend, hevicted', htask'⟩ := hf (interp CommandOp.run p s).1 _ hmid
  exact ⟨hend, hevicted'.trans hevicted, htask'.trans htask⟩

/-- A method that does not evict. -/
theorem Handles.on_token (hp : Keeps p)
    (hspares : ∀ t, (interp (TokenOp.run ()) p t).2.evicted = t.evicted) :
    Handles (on_token p) := by
  intro s hs
  rw [interp_on_token]
  exact ⟨(hp s.tokens hs).1, hspares s.tokens, rfl⟩

theorem Handles.state : Handles RunningCommand.state := by
  intro s hs
  rw [s.interp_state_self]
  exact ⟨hs, rfl, rfl⟩

theorem pause_handles : Handles (on_token PauseToken.pause) := by
  refine .on_token pause_keeps fun t => ?_
  obtain ⟨paused, _⟩ := t
  cases paused <;> rfl

theorem resume_handles : Handles (on_token PauseToken.resume) := by
  refine .on_token resume_keeps fun t => ?_
  obtain ⟨paused, _, evicted, _, ⟨_, paused_at⟩, _⟩ := t
  cases evicted with
  | true => rfl
  | false =>
    cases paused with
    | false => rfl
    | true => cases paused_at <;> rfl

theorem cancel_handles : Handles (on_token CancellationToken.cancel) :=
  .on_token cancel_keeps fun _ => rfl

/-- Every call of the controller is such a method. -/
theorem CommandCall.handles (c : CommandCall) : Handles c.program := by
  cases c with
  | pause =>
    refine .bind (.bind .state fun state => ?_) fun _ => .ret _
    cases state with
    | Running | PauseRequested | PausedResident => exact .bind pause_handles fun _ => .ret _
    | Evicted | Finished => exact .ret _
  | resume =>
    refine .bind (.bind .state fun state => ?_) fun _ => .ret _
    cases state with
    | PauseRequested | PausedResident =>
      refine .bind resume_handles fun resumed => ?_
      cases resumed <;> exact .ret _
    | Running | Evicted | Finished => exact .ret _
  | cancel => exact cancel_handles
  | state => exact .bind .state fun _ => .ret _
  | drop => exact .bind cancel_handles fun _ => .bind resume_handles fun _ => .ret _

/-! ## Runs

By induction on the moves: only the task evicts, and what has ended stays so. -/

/-- What a move keeps, and any number of them. Only the task evicts, so that nothing is
evicted once it is done. -/
structure Invocation.Leads (s s' : Invocation) : Prop where
  sound : s'.tokens.Sound
  evicted : s.tokens.evicted = true → s'.tokens.evicted = true
  finished : s.task = .finished → s'.task = .finished ∧ s'.tokens.evicted = s.tokens.evicted

/-- One move. -/
theorem Invocation.Step.leads {resident_ttl : ℕ} (hs : s.tokens.Sound)
    (h : s.Step resident_ttl s') : s.Leads s' := by
  -- The clock and the random number are none of the flags.
  have hat : ∀ reading, (s.at_ reading).tokens.Sound := fun _ => ⟨hs.1, hs.2, hs.3⟩
  cases h with
  | call c reading =>
    obtain ⟨hsound, hevicted, htask⟩ := c.handles _ (hat reading)
    exact ⟨hsound, fun h => hevicted.trans h, fun h => ⟨htask.trans h, hevicted⟩⟩
  | epoch start timeout reading htask =>
    obtain ⟨hsound, hevicted⟩ := epoch_callback_keeps start timeout _ (hat reading)
    refine ⟨hsound, hevicted, fun h => ?_⟩
    rw [htask] at h
    cases h
  | wait block reading htask =>
    obtain ⟨hsound, hevicted⟩ := block_keeps resident_ttl block _ (hat reading)
    refine ⟨hsound, hevicted, fun h => ?_⟩
    rw [htask] at h
    cases h
  | finish htask => exact ⟨hs, id, fun h => absurd h htask⟩

/-- Any number of them. -/
theorem Invocation.Run.leads {resident_ttl : ℕ} (hs : s.tokens.Sound) (h : s.Run resident_ttl s') :
    s.Leads s' := by
  induction h with
  | refl => exact ⟨hs, id, fun h => ⟨h, rfl⟩⟩
  | tail _ hstep ih =>
    have hlast := hstep.leads ih.sound
    refine ⟨hlast.sound, fun h => hlast.evicted (ih.evicted h), fun h => ?_⟩
    obtain ⟨htask, hevicted⟩ := ih.finished h
    obtain ⟨htask', hevicted'⟩ := hlast.finished htask
    exact ⟨htask', hevicted'.trans hevicted⟩

theorem Invocation.start_sound (cancelled : Bool) : (start cancelled).tokens.Sound :=
  ⟨nofun, rfl, nofun⟩

/-! ## What the controller is told

`state` reads nothing but the flags, so what it may report follows. -/

/-- `pause` of an evicted invocation. -/
theorem Invocation.pause_evicted (h : s.tokens.evicted = true) :
    interp CommandOp.run RunningCommand.pause s = (.error .IdleEvicted, s) := by
  unfold RunningCommand.pause
  rw [interp_bind, s.interp_state_self, Invocation.state_evicted.2 h]
  rfl

/-- `resume` of an evicted invocation. -/
theorem Invocation.resume_evicted (h : s.tokens.evicted = true) :
    interp CommandOp.run RunningCommand.resume s = (.error .IdleEvicted, s) := by
  unfold RunningCommand.resume
  rw [interp_bind, s.interp_state_self, Invocation.state_evicted.2 h]
  rfl

/-- After a successful `resume` the invocation runs: it was running, or the pause is over and
with it the residence. -/
theorem Invocation.running_of_resume (hs : s.tokens.Sound)
    (h : interp CommandOp.run RunningCommand.resume s = (.ok (), s')) : s'.state = .Running := by
  obtain ⟨hresident, hstamped, _⟩ := hs
  obtain ⟨⟨paused, resident, evicted, cancelled, ⟨completed, paused_at⟩, _⟩, task⟩ := s
  have hs' : s' = _ := (congrArg Prod.snd h).symm
  subst hs'
  cases evicted with
  | true =>
    rw [Invocation.resume_evicted rfl] at h
    cases h
  | false =>
    cases paused with
    | false =>
      -- Nothing is resident that is not paused.
      cases resident with
      | true => cases (hresident rfl).1
      | false =>
        cases task with
        | finished => cases h
        | executing | waiting _ => rfl
    | true =>
      cases paused_at with
      | none => cases hstamped
      | some started =>
        cases task with
        | finished => cases h
        | executing | waiting _ => cases resident <;> rfl

/-- The life of an invocation, from `start` through any calls of the controller, callbacks,
stretches of `wait` and the end of the task, in any order. -/
theorem invocation_lifecycle (resident_ttl : ℕ) (cancelled : Bool) {s s' : Invocation}
    (hreach : (Invocation.start cancelled).Run resident_ttl s) (hlater : s.Run resident_ttl s')
    (reading : Reading) :
    (s.tokens.resident = true → s.tokens.paused = true ∧ s.tokens.evicted = false) ∧
    (s.tokens.paused = true ↔ s.tokens.timing.paused_at.isSome = true) ∧
    (s.tokens.evicted = true → s.tokens.cancelled = true) ∧
    (s.tokens.evicted = true → s'.tokens.evicted = true) ∧
    (s.state = .Evicted → s'.state = .Evicted) ∧
    (s.state = .Finished → s'.state = .Finished) ∧
    (s.state = .PausedResident →
      s.tokens.paused = true ∧ s.tokens.timing.paused_at.isSome = true) ∧
    (s.tokens.evicted = true →
      s.call RunningCommand.pause reading = (.error .IdleEvicted, s.at_ reading) ∧
      s.call RunningCommand.resume reading = (.error .IdleEvicted, s.at_ reading)) ∧
    (∀ after, s.call RunningCommand.resume reading = (.ok (), after) →
      after.state = .Running) := by
  have hs : s.tokens.Sound := (hreach.leads (Invocation.start_sound cancelled)).sound
  have hleads : s.Leads s' := hlater.leads hs
  refine ⟨hs.resident, by rw [hs.stamped], hs.evicted, hleads.evicted, ?_, ?_, ?_, ?_, ?_⟩
  · rw [Invocation.state_evicted, Invocation.state_evicted]
    exact hleads.evicted
  · rw [Invocation.state_finished, Invocation.state_finished]
    rintro ⟨hevicted, hfinished⟩
    obtain ⟨hfinished', hsame⟩ := hleads.finished hfinished
    exact ⟨hsame.trans hevicted, hfinished'⟩
  · intro hstate
    have hpaused := (hs.resident (Invocation.resident_of_state hstate)).1
    exact ⟨hpaused, hs.stamped.trans hpaused⟩
  · intro hevicted
    exact ⟨Invocation.pause_evicted hevicted, Invocation.resume_evicted hevicted⟩
  · intro after hcall
    exact Invocation.running_of_resume (s := s.at_ reading) ⟨hs.1, hs.2, hs.3⟩ hcall

/-- Paused, put into `wait` by the callback, and evicted when its time is over; the task then
ends. -/
theorem invocation_lifecycle_evicted :
    ∃ s s' : Invocation, (Invocation.start false).Run 10 s ∧ s.Run 10 s' ∧
      s.state = .Evicted ∧ s'.task = .finished ∧ s'.state = .Evicted := by
  have hpause : (Invocation.start false).Run 10 _ := .single (.call .pause ⟨5, 0⟩)
  have hepoch := hpause.tail (.epoch (0, 0) 100 ⟨6, 0⟩ rfl)
  have hwait := hepoch.tail (.wait .wait ⟨20, 0⟩ rfl)
  refine ⟨_, _, hwait, .single (.finish (by decide)), by decide, rfl, ?_⟩
  exact (invocation_lifecycle 10 false hwait (.single (.finish (by decide))) ⟨21, 0⟩).2.2.2.2.1
    (by decide)

end WasmRuntime.Token
