/-
A task in `wait` or in `cancelled` among any number of callers.

`TokenThreads` proves the methods safe one by one; here they run together.
-/
import WasmRuntime.PauseTime
import WasmRuntime.TokenThreads

set_option autoImplicit false

namespace WasmRuntime.Token

open Prog Function

/-! ## The machine

From fresh tokens one thread waits and every other makes a list of calls, in any interleaving of the
single operations, and the clock moves on in between. -/

section Runs

variable {ι : Type} [DecidableEq ι]

/-- The calls of one thread, one after the other. -/
def perform_calls : List TokenCall → BlockM
  | [] => done
  | c :: rest => do
      c.program
      perform_calls rest

/-- One operation of a thread. -/
def Performs (i : ι) (s : Traced ι) (op : TokenOp) (r : op.Answer) (s' : Traced ι) : Prop :=
  op.Enabled s.toTokens ∧ r = (op.run i s.toTokens).1 ∧ s' = op.trace i s

/-- The threads over the tokens. -/
abbrev TokenTasks (ι : Type) : Type := Tasks ι (Traced ι) TokenOp TokenOp.Answer Block

/-- Thread `w` waits, the others call. -/
def TokenTasks.start (w : ι) (first : Block) (calls : ι → List TokenCall) (now : ℕ)
    (random : Fin 3) : TokenTasks ι where
  state := .new now random
  threads i := if i = w then goto first else perform_calls (calls i)

/-- Any interleaving. -/
def TokenTasks.Run (resident_ttl : ℕ) : TokenTasks ι → TokenTasks ι → Prop :=
  Tasks.Run Performs elapse (Block.body resident_ttl)

/-- Thread `w` is parked, and no notification that it waits for has come. -/
def TokenTasks.Blocked (w : ι) (T : TokenTasks ι) : Prop :=
  ∃ woken stopped k, T.threads w = .vis (.park woken stopped) k ∧
    (∀ since ∈ woken, ¬ since < T.state.notify) ∧
    ∀ since ∈ stopped, ¬ since < T.state.cancel_notify

/-- Every call has returned. -/
def TokenTasks.Returned (w : ι) (T : TokenTasks ι) : Prop :=
  ∀ i, i ≠ w → T.threads i = done

/-- Thread `w` evicts with its next operation. -/
def TokenTasks.Evicts (w : ι) (T : TokenTasks ι) : Prop :=
  ∃ k, T.threads w = .vis .store_evicted k

/-- The token is paused, and has been for `resident_ttl` without interruption. -/
def TokenTasks.Lasted (resident_ttl : ℕ) (T : TokenTasks ι) : Prop :=
  T.state.paused = true ∧
    ∃ started, T.state.timing.paused_at = some started ∧ started + resident_ttl ≤ T.state.now

end Runs

/-! ## Every thread is safe

Each call and each block from what it is entered with, so `Tasks.safe` applies. -/

section Safe

variable {ι : Type} [DecidableEq ι] {resident_ttl : ℕ} {w i : ι} {s : Traced ι}

/-- Every call. -/
theorem call_safe (c : TokenCall) (hi : i ≠ w) (hs : s.Outside i .none) :
    (tokenLogic resident_ttl w i).Safe (fun _ s => s.Outside i .none) c.program s := by
  cases c with
  | pause => exact pause_safe hs
  | resume => exact .bind (resume_safe hs) fun _ s hs s' hrely => hs.stable hrely
  | mark_resident => exact mark_resident_safe hs
  | evict => exact evict_safe hs fun h => absurd h hi
  | cancel => exact cancel_safe hs

theorem perform_calls_safe {J : Block → Traced ι → Prop} (calls : List TokenCall) (hi : i ≠ w)
    (hs : s.Outside i .none) :
    (tokenLogic resident_ttl w i).Safe (Tasks.Post (Traced.Outside i .none) J)
      (perform_calls calls) s := by
  induction calls generalizing s with
  | nil => exact fun s' hrely => hs.stable hrely
  | cons c rest ih => exact .bind (call_safe c hi hs) fun _ s hs => ih hs

/-- Every block, from its invariant. -/
theorem block_safe {b : Block} (hs : b.Invariant resident_ttl i s) :
    (tokenLogic resident_ttl i i).Safe (Ends resident_ttl i) (b.body resident_ttl) s := by
  cases b with
  | cancelled => exact cancelled_safe hs
  | cancelled_await since => exact cancelled_await_safe hs.1 hs.2
  | wait => exact wait_safe hs
  | select futures => exact select_safe hs
  | poll futures todo =>
    match todo, hs with
    | [], hs => exact park_safe hs
    | .notified :: _, hs => exact poll_notified_safe hs
    | .cancelled :: _, hs => exact poll_cancelled_safe hs
    | .sleep :: _, hs => exact poll_sleep_safe hs

/-- What holds at the head of a block of any thread; only the waiting one has blocks. -/
def Heads (resident_ttl : ℕ) (w i : ι) (b : Block) (s : Traced ι) : Prop :=
  i = w ∧ b.Invariant resident_ttl w s

/-- What a thread guarantees, the others rely on. -/
theorem tokens_fit (resident_ttl : ℕ) (w : ι) :
    Tasks.Fits (tokenLogic resident_ttl w) elapse (Block.body resident_ttl)
      (fun i => Traced.Outside i .none) (Heads resident_ttl w) where
  guar _ j hj _ _ _ _ hguar := hguar.1 j hj
  env _ _ _ h := Rely.elapse h
  body := by
    rintro i b s ⟨rfl, hs⟩
    refine (block_safe hs).mono ?_
    rintro (_ | b) s h
    · exact h
    · exact ⟨rfl, h⟩

omit [DecidableEq ι] in
theorem Traced.new_outside (i : ι) (now : ℕ) (random : Fin 3) :
    (Traced.new now random : Traced ι).Outside i .none where
  sound := ⟨nofun, fun _ => rfl, nofun, nofun⟩
  unheld := nofun
  owes := rfl
  owes_cancel := rfl
  evicting := rfl

theorem start_safe (resident_ttl : ℕ) (w : ι) {first : Block}
    (hfirst : first = .wait ∨ first = .cancelled) (calls : ι → List TokenCall) (now : ℕ)
    (random : Fin 3) (i : ι) :
    (tokenLogic resident_ttl w i).Safe
      (Tasks.Post (Traced.Outside i .none) (Heads resident_ttl w i))
      ((TokenTasks.start w first calls now random).threads i)
      (TokenTasks.start w first calls now random).state := by
  have hnew := Traced.new_outside i now random
  show (tokenLogic resident_ttl w i).Safe _
    (if i = w then goto first else perform_calls (calls i)) (.new now random)
  by_cases hi : i = w
  · subst hi
    rw [if_pos rfl]
    intro s' hrely
    refine ⟨rfl, ?_⟩
    rcases hfirst with rfl | rfl <;> exact hnew.stable hrely
  · rw [if_neg hi]
    exact perform_calls_safe (calls i) hi hnew

end Safe

/-! ## Which block a task parks in

A task in `wait` waits for the pause and the cancellation, one in `cancelled` for the latter
alone. -/

/-- The blocks of `wait`; the others are those of `cancelled`. -/
def Block.in_wait : Block → Bool
  | .cancelled | .cancelled_await _ => false
  | .wait | .select _ | .poll _ _ => true

/-- A task that is in `wait` parks with a `Notified` of the pause token, one in `cancelled`
without. -/
def TokenOp.ParksIn (waiting : Bool) : TokenOp → Prop
  | .park woken _ => woken.isSome = waiting
  | _ => True

theorem remaining_only (waiting : Bool) (resident_ttl : ℕ) :
    (PauseToken.remaining resident_ttl).Only (TokenOp.ParksIn waiting) := by
  refine ⟨trivial, fun _ => ⟨trivial, fun timing => ?_⟩⟩
  obtain ⟨completed, _ | started⟩ := timing
  · exact ⟨trivial, fun _ => trivial⟩
  · exact ⟨trivial, fun _ => ⟨trivial, fun _ => trivial⟩⟩

/-- The text of a block of `wait`, once it evicts. -/
theorem evict_text (waiting : Bool) (K : Block → Prop) :
    Tasks.Text (TokenOp.ParksIn waiting) K (PauseToken.evict >>= fun _ => done) :=
  ⟨trivial, fun _ => ⟨trivial, fun _ => ⟨trivial, fun _ => ⟨trivial, fun _ =>
    ⟨trivial, fun _ => trivial⟩⟩⟩⟩⟩

theorem poll_text (resident_ttl : ℕ) (futures : Select) (todo : List Branch) :
    Tasks.Text (TokenOp.ParksIn true) (fun b => b.in_wait = true)
      ((Block.poll futures todo).body resident_ttl) := by
  match todo with
  | [] => exact ⟨rfl, fun _ => rfl⟩
  | .notified :: rest =>
    refine ⟨trivial, fun ready => ?_⟩
    cases ready <;> rfl
  | .cancelled :: rest =>
    obtain ⟨notified, _ | since, deadline⟩ := futures
    · refine ⟨trivial, fun _ => ⟨trivial, fun cancelled => ?_⟩⟩
      cases cancelled
      · rfl
      · trivial
    · refine ⟨trivial, fun ready => ?_⟩
      cases ready <;> rfl
  | .sleep :: rest =>
    refine ⟨trivial, fun now => ?_⟩
    show Tasks.Text _ _ (if now < futures.deadline then _ else _)
    split
    · rfl
    · refine ⟨trivial, fun paused => ?_⟩
      cases paused with
      | false => trivial
      | true => exact evict_text _ _

theorem wait_text (resident_ttl : ℕ) :
    Tasks.Text (TokenOp.ParksIn true) (fun b => b.in_wait = true)
      (Block.wait.body resident_ttl) := by
  refine ⟨trivial, fun since => ⟨trivial, fun paused => ?_⟩⟩
  cases paused with
  | false => trivial
  | true =>
    refine ⟨trivial, fun cancelled => ?_⟩
    cases cancelled with
    | true => trivial
    | false =>
      show Tasks.Text _ _ (PauseToken.remaining resident_ttl >>= fun _ => _)
      refine Tasks.Text.bind (remaining_only true resident_ttl) ?_
      intro remaining
      show Tasks.Text _ _ (if remaining == 0 then _ else _)
      split
      · exact evict_text _ _
      · exact ⟨trivial, fun _ => rfl⟩

/-- A task stays in the method that it is in. -/
theorem block_text (resident_ttl : ℕ) {waiting : Bool} (b : Block) (hb : b.in_wait = waiting) :
    Tasks.Text (TokenOp.ParksIn waiting) (fun b => b.in_wait = waiting)
      (b.body resident_ttl) := by
  subst hb
  cases b with
  | cancelled =>
    refine ⟨trivial, fun _ => ⟨trivial, fun cancelled => ?_⟩⟩
    cases cancelled
    · rfl
    · trivial
  | cancelled_await since =>
    refine ⟨trivial, fun ready => ?_⟩
    cases ready
    · exact ⟨rfl, fun _ => rfl⟩
    · rfl
  | wait => exact wait_text resident_ttl
  | select futures => exact ⟨trivial, fun _ => rfl⟩
  | poll futures todo => exact poll_text resident_ttl futures todo

/-! ## Schedules

Runs that are computed, for the examples. -/

section Schedules

variable {ι : Type} [DecidableEq ι]

instance (s : Tokens ι) (op : TokenOp) : Decidable (op.Enabled s) := by
  cases op <;> unfold TokenOp.Enabled <;> infer_instance

/-- Whose turn it is. -/
inductive Turn (ι : Type) where
  | thread (i : ι)
  | elapse (now : ℕ) (random : Fin 3)

/-- One move of the threads, or none if it is not possible. -/
def TokenTasks.turn (resident_ttl : ℕ) (T : TokenTasks ι) : Turn ι → TokenTasks ι
  | .thread i =>
    match T.threads i with
    | .vis op k =>
      if op.Enabled T.state.toTokens then
        ⟨op.trace i T.state, update T.threads i (k (op.run i T.state.toTokens).1)⟩
      else T
    | .ret (some b) => ⟨T.state, update T.threads i (b.body resident_ttl)⟩
    | .ret none => T
  | .elapse now random =>
    if T.state.now ≤ now then ⟨{ T.state with now, random }, T.threads⟩ else T

/-- A schedule. -/
def TokenTasks.play (resident_ttl : ℕ) (T : TokenTasks ι) (turns : List (Turn ι)) :
    TokenTasks ι :=
  turns.foldl (TokenTasks.turn resident_ttl) T

theorem TokenTasks.turn_run (resident_ttl : ℕ) (T : TokenTasks ι) (turn : Turn ι) :
    TokenTasks.Run resident_ttl T (T.turn resident_ttl turn) := by
  cases turn with
  | thread i =>
    rw [TokenTasks.turn]
    split
    · rename_i op k hi
      split
      · rename_i henabled
        exact .single (.thread T i op k _ _ hi ⟨henabled, rfl, rfl⟩)
      · exact .refl
    · rename_i b hi
      exact .single (.again T i b hi)
    · exact .refl
  | elapse now random =>
    rw [TokenTasks.turn]
    split
    · rename_i hle
      exact .single (.env T _ ⟨now, random, hle, rfl⟩)
    · exact .refl

/-- A schedule is one of the interleavings. -/
theorem TokenTasks.play_run (resident_ttl : ℕ) (T : TokenTasks ι) (turns : List (Turn ι)) :
    TokenTasks.Run resident_ttl T (T.play resident_ttl turns) := by
  induction turns generalizing T with
  | nil => exact .refl
  | cons turn rest ih => exact (T.turn_run resident_ttl turn).trans (ih _)

end Schedules

/-- A pause at 0 and a waiter that has parked with its sleep until 10. -/
def asleep (calls : List TokenCall) : TokenTasks Bool :=
  (TokenTasks.start true .wait (fun _ => .pause :: calls) 0 firstBranch).play 10
    (List.replicate 6 (.thread false) ++ List.replicate 21 (.thread true))

theorem asleep_run (calls : List TokenCall) (turns : List (Turn Bool)) :
    TokenTasks.Run 10 (.start true .wait (fun _ => .pause :: calls) 0 0)
      ((asleep calls).play 10 turns) :=
  (TokenTasks.play_run 10 _ _).trans (TokenTasks.play_run 10 _ turns)

/-! ## No lost wake-up

A waiter that is blocked when all calls have returned is blocked rightly: nothing that should have
released it has been lost. -/

section WakeUp

variable {ι : Type} {s : Traced ι}

/-- When nobody owes anything, what is awaited and has not come has not happened. -/
theorem Traced.Awaits.paused {since : ℕ} (h : s.Awaits since) (hnone : ¬ since < s.notify)
    (hout : ∀ i, s.Outside i .none) : s.paused = true := by
  by_contra hpaused
  rcases h.released (Bool.eq_false_of_not_eq_true hpaused) with hcame | ⟨i, howes⟩
  · exact hnone hcame
  · exact absurd ((hout i).owes.symm.trans howes) nofun

theorem Traced.AwaitsCancel.not_cancelled {since : ℕ} (h : s.AwaitsCancel since)
    (hnone : ¬ since < s.cancel_notify) (hout : ∀ i, s.Outside i .none) :
    s.cancelled = false := by
  by_contra hcancelled
  rcases h.released (Bool.eq_true_of_not_eq_false hcancelled) with hcame | ⟨i, howes⟩
  · exact hnone hcame
  · exact absurd ((hout i).owes_cancel.symm.trans howes) nofun

theorem Traced.Sound.not_evicted (h : s.Sound) (hcancelled : s.cancelled = false)
    (hout : ∀ i, s.Outside i .none) : s.evicted = false := by
  by_contra hevicted
  rcases h.evicted (Bool.eq_true_of_not_eq_false hevicted) with hset | ⟨i, hevicting⟩
  · exact absurd (hcancelled.symm.trans hset) nofun
  · exact absurd ((hout i).evicting.symm.trans hevicting) nofun

/-- In no interleaving of one task in `wait` or in `cancelled` with any calls is there a state
in which every call has returned and the task is blocked, no notification having come, although
the token is cancelled or evicted, or, for a task in `wait`, not paused. -/
theorem no_lost_wake_up [DecidableEq ι] (resident_ttl : ℕ) (w : ι) (first : Block)
    (hfirst : first = .wait ∨ first = .cancelled) (calls : ι → List TokenCall) (now : ℕ)
    (random : Fin 3) (T : TokenTasks ι)
    (hrun : TokenTasks.Run resident_ttl (.start w first calls now random) T)
    (hreturned : T.Returned w) (hblocked : T.Blocked w) :
    T.state.cancelled = false ∧ T.state.evicted = false ∧
      (first = .wait → T.state.paused = true) := by
  obtain ⟨woken, stopped, k, hparked, hwoken, hstopped⟩ := hblocked
  have hfits := tokens_fit resident_ttl w
  have hsafe := start_safe resident_ttl w hfirst calls now random
  -- What the task promises of its parking.
  obtain ⟨hout_w, hawaits, since, hsince, hawaits_cancel⟩ :=
    (Tasks.about_to hfits hsafe hrun hparked ⟨trivial, rfl, rfl⟩).2 rfl
  have hout : ∀ i, T.state.Outside i .none := by
    intro i
    by_cases hi : i = w
    · exact hi ▸ hout_w
    · exact Tasks.returned hfits hsafe hrun (hreturned i hi)
  have hcancelled := hawaits_cancel.not_cancelled (hstopped since hsince) hout
  refine ⟨hcancelled, hout_w.sound.not_evicted hcancelled hout, ?_⟩
  rintro rfl
  -- A task in `wait` has a `Notified` of the pause token.
  have htext : Tasks.Text (TokenOp.ParksIn true) (fun b => b.in_wait = true) (T.threads w) := by
    refine Tasks.text (block_text resident_ttl) hrun ?_
    show Tasks.Text _ _ (if w = w then goto .wait else _)
    rw [if_pos rfl]
    rfl
  rw [hparked] at htext
  obtain ⟨notified, hnotified⟩ := Option.isSome_iff_exists.mp htext.1
  exact (hawaits notified hnotified).paused (hwoken notified hnotified) hout

end WakeUp

/-- A waiter that is blocked while the token is paused. -/
theorem no_lost_wake_up_asleep :
    (asleep []).state.cancelled = false ∧ (asleep []).state.evicted = false ∧
      (Block.wait = .wait → (asleep []).state.paused = true) := by
  have hrun : TokenTasks.Run 10 (.start true .wait (fun _ => [.pause]) 0 0) (asleep []) :=
    TokenTasks.play_run 10 _ _
  refine no_lost_wake_up 10 true .wait (.inl rfl) _ 0 0 _ hrun ?_ ?_
  · intro i hi
    obtain rfl : i = false := Bool.eq_false_of_not_eq_true hi
    rfl
  · refine ⟨some 0, some 0, _, rfl, ?_, ?_⟩
    · rintro since ⟨⟩
      decide
    · rintro since ⟨⟩
      decide

/-! ## Eviction

When a waiter evicts, the pause that it measured has lasted `resident_ttl`, if that pause still goes
on. The condition is needed. The sleep is over, but before the task is polled the pause is ended and
another begins: `select!` may take the branch of the sleep, which asks only whether the token is
paused, and so evicts a pause that has just begun (`fresh_pause_evicted`). -/

/-- Whenever the waiter evicts, and the pause that it measured still goes on, the token is
paused and has been for `resident_ttl`. -/
theorem evicts_when_due {ι : Type} [DecidableEq ι] (resident_ttl : ℕ) (w : ι)
    (calls : ι → List TokenCall) (now : ℕ) (random : Fin 3) (T : TokenTasks ι)
    (hrun : TokenTasks.Run resident_ttl (.start w .wait calls now random) T)
    (hevicts : T.Evicts w) (hcurrent : T.state.current w = true) : T.Lasted resident_ttl := by
  obtain ⟨k, hk⟩ := hevicts
  have hsafe := start_safe resident_ttl w (.inl rfl) calls now random
  obtain ⟨hsound, started, hmeasured, hdue⟩ :=
    (Tasks.about_to (tokens_fit resident_ttl w) hsafe hrun hk ⟨trivial, rfl, rfl⟩).2 rfl
  exact ⟨hsound.current w hcurrent, started, hmeasured hcurrent, hdue⟩

/-- The waiter is polled at 10 and evicts. -/
theorem evicts_when_due_asleep :
    ((asleep []).play 10 (.elapse 10 2 :: List.replicate 6 (.thread true))).Lasted 10 := by
  have hrun := asleep_run [] (.elapse 10 2 :: List.replicate 6 (.thread true))
  refine evicts_when_due 10 true _ 0 0 _ hrun ?_ ?_
  · exact ⟨_, rfl⟩
  · rfl

/-- At 10 the sleep is over, and the controller resumes and pauses again. The waiter is polled
at 11, and `select!` happens to start at the branch of the sleep: a pause of one nanosecond is
evicted. -/
theorem fresh_pause_evicted : ∃ T : TokenTasks Bool,
    TokenTasks.Run 10 (.start true .wait (fun _ => [.pause, .resume, .pause]) 0 0) T ∧
      T.Evicts true ∧ T.state.timing.paused_at = some 10 ∧ T.state.now = 11 ∧ ¬ T.Lasted 10 := by
  refine ⟨(asleep [.resume, .pause]).play 10 (.elapse 10 0 :: List.replicate 15 (.thread false) ++
    .elapse 11 2 :: List.replicate 6 (.thread true)), asleep_run _ _, ⟨_, rfl⟩, rfl, rfl, ?_⟩
  rintro ⟨-, started, hstarted, hlasted⟩
  obtain rfl : 10 = started := Option.some.inj hstarted
  exact absurd hlasted (by decide)

end WasmRuntime.Token
