/-
The workers of an `HttpService`, and what its counters say of them.

The proxy handler makes workers with `HttpHandlerState::instantiate`, polls the expiration of each
of them, asks it whether it takes a request, and in the end drops it, in whatever order it likes; of
the handler nothing is assumed but that it deals with one worker as with a value it owns. Many
workers live at once. They share the counters, and each has an `idle_expired` flag of its own, which
its expiration sets and its `drop` reads.
-/
import WasmRuntime.Admission

set_option autoImplicit false

namespace WasmRuntime.Http.Workers

open Prog Function Cache

/-! ## The effects

Every access to what the workers share, and every question to the world outside. -/

inductive WorkerStatus where
  | Idle | Requests | PostReturn
  deriving DecidableEq, Repr

inductive ShouldAccept where
  | Yes | No | Never
  deriving DecidableEq, Repr

/-- What the proxy handler does with a worker that it has. -/
inductive HandlerEvent where
  | poll (status : WorkerStatus) (start : ℕ)
  | should_accept_request (concurrent_count total_count : ℕ)
  | drop
  deriving DecidableEq, Repr

/-- The single operations of a worker. -/
inductive WorkerOp where
  | lock_pre
  | prepare
  | make_proxy_pre
  | get_or_insert_pre
  | set_fuel
  | instantiate_async
  | store_package_tier (tier : PackageTier)
  | fetch_add_workers_created
  | fetch_add_live_workers
  | next_event
  | answer (accept : ShouldAccept)
  | reset_sleep (deadline : ℕ)
  | poll_sleep
  | store_idle_expired
  | drop_store
  | fetch_sub_live_workers
  | load_idle_expired
  | fetch_add_idle_evictions
  | clear_pre
  | demote
  deriving DecidableEq, Repr

/-- Their answers. -/
@[reducible]
def WorkerOp.Answer : WorkerOp → Type
  | .lock_pre | .poll_sleep | .load_idle_expired => Bool
  | .prepare | .instantiate_async => Awaited (Except String Unit)
  | .make_proxy_pre | .set_fuel => Except String Unit
  | .next_event => HandlerEvent
  | .fetch_sub_live_workers => ℕ
  | .get_or_insert_pre | .store_package_tier _ | .fetch_add_workers_created
  | .fetch_add_live_workers | .answer _ | .reset_sleep _ | .store_idle_expired | .drop_store
  | .fetch_add_idle_evictions | .clear_pre | .demote => Unit

/-- A piece of a worker. -/
abbrev WorkerM (α : Type) : Type := Prog WorkerOp WorkerOp.Answer α

/-- One operation. -/
def act (op : WorkerOp) : WorkerM op.Answer := perform op

/-! ## The functions

`idle_evictions` is incremented only by the worker that finds itself the last one, since the
condition for clearing the instance and demoting the package is also the condition for counting: of
several idle workers that expire together all but one are dropped without being counted. -/

/-- What the workers read of `HttpHandlerState`. Instants and durations are in nanoseconds; an
instant is at most `instant_max`, and `far_future` is the deadline of `sleep(Duration::MAX)`. -/
structure HttpHandlerState where
  profile : WasiProfile
  idle_worker_ttl : ℕ
  request_timeout : ℕ
  max_instance_reuse_count : ℕ
  max_instance_concurrent_reuse_count : ℕ
  instant_max : ℕ
  far_future : ℕ

/-- `HttpWorkerExpiration`; its flag is the worker's. -/
structure HttpWorkerExpiration where
  idle_timeout : ℕ
  request_timeout : ℕ
  /-- The deadline of `sleep`. -/
  sleep : ℕ
  deriving DecidableEq, Repr

/-- `HttpWorkerState`; its flag is the worker's, and what it shares is shared. -/
structure HttpWorkerState where
  max_reuse : ℕ
  max_concurrent : ℕ
  deriving DecidableEq, Repr

/-- `Instance`, as far as it is the crate's. -/
structure Instance where
  expiration : HttpWorkerExpiration
  state : HttpWorkerState
  deriving DecidableEq, Repr

namespace HttpHandlerState

variable (self : HttpHandlerState)

/-- The part of `instantiate` that finds the instance to start from. -/
def find_pre : WorkerM (Awaited (Except String Unit)) := do
  if ← act .lock_pre then pure (.ready (.ok ()))
  else
    match ← act .prepare with
    | .dropped => pure .dropped
    | .ready (.error error) => pure (.ready (.error error))
    | .ready (.ok ()) =>
      match ← act .make_proxy_pre with
      | .error error => pure (.ready (.error error))
      | .ok () =>
        act .get_or_insert_pre
        pure (.ready (.ok ()))

/-- The `Instance` that `instantiate` returns. -/
def instance_ : Instance where
  expiration := ⟨self.idle_worker_ttl, self.request_timeout, self.far_future⟩
  state :=
    { max_reuse := self.max_instance_reuse_count
      max_concurrent := if self.profile = .Http0_3 then self.max_instance_concurrent_reuse_count
        else 1 }

/-- `HandlerState::instantiate`. -/
def instantiate : WorkerM (Awaited (Except String Instance)) := do
  match ← find_pre with
  | .dropped => pure .dropped
  | .ready (.error error) => pure (.ready (.error error))
  | .ready (.ok ()) =>
    match ← act .set_fuel with
    | .error error => pure (.ready (.error error))
    | .ok () =>
      match ← act .instantiate_async with
      | .dropped => pure .dropped
      | .ready (.error error) => pure (.ready (.error error))
      | .ready (.ok ()) =>
        act (.store_package_tier .Warm)
        act .fetch_add_workers_created
        act .fetch_add_live_workers
        pure (.ready (.ok self.instance_))

end HttpHandlerState

/-- `WorkerExpiration::poll`: whether it is ready, and the expiration afterwards. -/
def HttpWorkerExpiration.poll (self : HttpWorkerExpiration) (instant_max : ℕ)
    (status : WorkerStatus) (start : ℕ) : WorkerM (Bool × HttpWorkerExpiration) := do
  let timeout := match status with
    | .Idle => self.idle_timeout
    | .Requests | .PostReturn => self.request_timeout
  match Exec.checkedAdd instant_max start timeout with
  | none => pure (false, self)
  | some deadline =>
    if deadline ≠ self.sleep then act (.reset_sleep deadline)
    let me := { self with sleep := deadline }
    if ← act .poll_sleep then
      if status = .Idle then act .store_idle_expired
      pure (true, me)
    else pure (false, me)

/-- `WorkerState::should_accept_request`. -/
def HttpWorkerState.should_accept_request (self : HttpWorkerState)
    (concurrent_count total_count : ℕ) : ShouldAccept :=
  if total_count ≥ self.max_reuse then .Never
  else if concurrent_count ≥ self.max_concurrent then .No
  else .Yes

/-- `WorkerState::drop`. -/
def HttpWorkerState.drop (_self : HttpWorkerState) : WorkerM Unit := do
  act .drop_store
  let previous_live ← act .fetch_sub_live_workers
  if previous_live = 1 then
    if ← act .load_idle_expired then
      act .fetch_add_idle_evictions
      act .clear_pre
      act .demote
      act (.store_package_tier .Warmish)

/-! ## A worker's life

Made, handled any number of times, dropped. -/

/-- Where a worker goes on: in the hands of the handler. -/
inductive WorkerBlock where
  | serve (worker : Instance)
  deriving DecidableEq, Repr

/-- One event of the handler. What a poll answers is for the handler to act on, or not. -/
def WorkerBlock.program (self : HttpHandlerState) : WorkerBlock → WorkerM (Option WorkerBlock)
  | .serve worker => do
      match ← act .next_event with
      | .poll status start =>
        let (_, expiration) ← worker.expiration.poll self.instant_max status start
        pure (some (.serve { worker with expiration := expiration }))
      | .should_accept_request concurrent_count total_count =>
        act (.answer (worker.state.should_accept_request concurrent_count total_count))
        pure (some (.serve worker))
      | .drop =>
        worker.state.drop
        pure none

/-- A worker from its making on; one that could not be made is none. -/
def HttpHandlerState.worker (self : HttpHandlerState) : WorkerM (Option WorkerBlock) := do
  match ← self.instantiate with
  | .ready (.ok worker) => pure (some (.serve worker))
  | .ready (.error _) => pure none
  | .dropped => pure none

/-! ## The state

Counters wrap as atomics do. A worker takes up memory from before it is counted until its `drop` has
run, so there are never more than `usize::MAX` at once; how many there are over a whole run is not
bounded by that. -/

/-- How far a worker is, by the counters it has changed. -/
inductive Phase where
  | absent | counted | live | dropped
  deriving DecidableEq, Repr

/-- What one worker did. -/
structure WorkerAccount where
  phase : Phase := .absent
  /-- Its `idle_expired` flag. -/
  expired : Bool := false
  /-- Its `drop` found one live worker. -/
  last : Bool := false
  /-- It has been counted in `idle_evictions`. -/
  evicted : Bool := false
  deriving DecidableEq, Repr

namespace WorkerAccount

/-- The worker is counted by `live_workers`. -/
def isLive (a : WorkerAccount) : Bool := a.phase == .live

/-- The worker is counted by `workers_created`. -/
def isCreated (a : WorkerAccount) : Bool := a.phase != .absent

/-- The worker is in memory. -/
def isPresent (a : WorkerAccount) : Bool := a.phase == .counted || a.phase == .live

/-- The account after an operation. -/
def next (a : WorkerAccount) : (op : WorkerOp) → op.Answer → WorkerAccount
  | .fetch_add_workers_created, _ => { a with phase := .counted }
  | .fetch_add_live_workers, _ => { a with phase := .live }
  | .store_idle_expired, _ => { a with expired := true }
  | .fetch_sub_live_workers, previous =>
    { a with phase := .dropped, last := decide (previous = 1) }
  | .fetch_add_idle_evictions, _ => { a with evicted := true }
  | _, _ => a

/-- The flag is the worker's own. -/
def Told (a : WorkerAccount) : (op : WorkerOp) → op.Answer → Prop
  | .load_idle_expired, expired => expired = a.expired
  | _, _ => True

/-- The worker is to be counted as evicted. -/
structure Owes (a : WorkerAccount) : Prop where
  dropped : a.phase = .dropped
  expired : a.expired = true
  last : a.last = true
  evicted : a.evicted = false

/-- What a worker may do next. Who owes a count does nothing but look at its flag and count. -/
def Allowed (a : WorkerAccount) : WorkerOp → Prop
  | .fetch_add_workers_created => a.phase = .absent
  | .fetch_add_live_workers => a.phase = .counted
  | .fetch_sub_live_workers => a.phase = .live ∧ a.evicted = false
  | .load_idle_expired => a.phase = .dropped ∧ a.evicted = false
  | .fetch_add_idle_evictions => a.Owes
  | _ => ¬ a.Owes

theorem not_owes_of_phase {a : WorkerAccount} {phase : Phase} (h : a.phase = phase)
    (hphase : phase ≠ .dropped) : ¬ a.Owes := fun howes => hphase (h.symm.trans howes.dropped)

/-- An eviction that was counted is of a worker that was dropped, expired and was the last. -/
def Lawful (a : WorkerAccount) : Prop :=
  a.evicted = true → a.phase = .dropped ∧ a.expired = true ∧ a.last = true

end WorkerAccount

/-- What the workers share. -/
structure WorkerCounters where
  workers_created : ℕ
  live_workers : ℕ
  idle_evictions : ℕ
  package_tier : PackageTier
  /-- `pre` holds an instance to start from. -/
  pre : Bool
  deriving DecidableEq, Repr

/-- The counters after an operation. -/
def WorkerCounters.next (T : Target) (s : WorkerCounters) :
    (op : WorkerOp) → op.Answer → WorkerCounters
  | .fetch_add_workers_created, _ =>
    { s with workers_created := (s.workers_created + 1) % (u64_max + 1) }
  | .fetch_add_live_workers, _ =>
    { s with live_workers := (s.live_workers + 1) % (T.usize_max + 1) }
  | .fetch_sub_live_workers, _ =>
    { s with live_workers := (s.live_workers + T.usize_max) % (T.usize_max + 1) }
  | .fetch_add_idle_evictions, _ =>
    { s with idle_evictions := (s.idle_evictions + 1) % (u64_max + 1) }
  | .store_package_tier tier, _ => { s with package_tier := tier }
  | .get_or_insert_pre, _ => { s with pre := true }
  | .clear_pre, _ => { s with pre := false }
  | _, _ => s

/-- The counters, and the account of each worker. -/
structure WorkersState (ι : Type) extends WorkerCounters where
  accounts : ι → WorkerAccount
  /-- The worker was the only live one when it was dropped. -/
  alone : ι → Prop

/-- A new service, with a package in some tier and an instance to start from or not. -/
def WorkersState.new {ι : Type} (package_tier : PackageTier) (pre : Bool) : WorkersState ι where
  workers_created := 0
  live_workers := 0
  idle_evictions := 0
  package_tier := package_tier
  pre := pre
  accounts _ := {}
  alone _ := False

/-- What the shared state answers. A worker is counted while there is memory for it. -/
def WorkersState.Gives {ι : Type} (T : Target) (s : WorkersState ι) :
    (op : WorkerOp) → op.Answer → Prop
  | .lock_pre, found => found = s.pre
  | .fetch_add_workers_created, _ =>
    Accounts.tally WorkerAccount.isPresent s.accounts < T.usize_max
  | .fetch_sub_live_workers, previous => previous = s.live_workers
  | _, _ => True

section Runs

variable {ι : Type} [DecidableEq ι]

/-- Who was alone, after an operation of worker `i`: that is decided by its decrement, before
which the worker itself is live. -/
def WorkersState.alone_next (s : WorkersState ι) (i : ι) : WorkerOp → ι → Prop
  | .fetch_sub_live_workers =>
    update s.alone i (∀ j, (s.accounts j).phase = .live → j = i)
  | _ => s.alone

/-- The state after an operation of worker `i`. -/
def WorkersState.next (T : Target) (i : ι) (s : WorkersState ι) (op : WorkerOp) (r : op.Answer) :
    WorkersState ι where
  toWorkerCounters := s.toWorkerCounters.next T op r
  accounts := update s.accounts i ((s.accounts i).next op r)
  alone := s.alone_next i op

/-- One operation of worker `i`. -/
def Performs (T : Target) (i : ι) (s : WorkersState ι) (op : WorkerOp) (r : op.Answer)
    (s' : WorkersState ι) : Prop :=
  (s.accounts i).Told op r ∧ s.Gives T op r ∧ s' = s.next T i op r

/-- The workers. -/
abbrev HttpWorkers (ι : Type) : Type :=
  Tasks ι (WorkersState ι) WorkerOp WorkerOp.Answer WorkerBlock

/-- A new service that makes workers, as many as it likes. -/
def HttpWorkers.start (self : HttpHandlerState) (package_tier : PackageTier) (pre : Bool) :
    HttpWorkers ι where
  state := .new package_tier pre
  threads _ := self.worker

/-- Any interleaving; nothing else touches the counters. -/
def HttpWorkers.Run (T : Target) (self : HttpHandlerState) : HttpWorkers ι → HttpWorkers ι → Prop :=
  Tasks.Run (Performs T) (fun _ _ => False) (WorkerBlock.program self)

end Runs

/-! ## The counters and the accounts

A worker is counted by two increments, and another thread may look between them. `live_workers` is
decremented once by every worker that was counted, so the decrement never finds it at zero. Which
worker was the last one is said of the workers themselves (`alone`); that the value which
`fetch_sub` returns tells it is proved. -/

section Sound

variable {ι : Type}

/-- A counter of 64 bits has counted the workers with a property. -/
def Counts (p : WorkerAccount → Bool) (counter : ℕ) (accounts : ι → WorkerAccount) : Prop :=
  ∃ total : ℕ, (total : ℕ∞) = Accounts.tally p accounts ∧ counter = total % (u64_max + 1)

/-- The counters agree with the accounts. -/
structure WorkersState.Sound (T : Target) (s : WorkersState ι) : Prop where
  created : Counts WorkerAccount.isCreated s.workers_created s.accounts
  live : (s.live_workers : ℕ∞) = Accounts.tally WorkerAccount.isLive s.accounts
  evicted : Counts WorkerAccount.evicted s.idle_evictions s.accounts
  memory : Accounts.tally WorkerAccount.isPresent s.accounts ≤ T.usize_max
  lawful : ∀ i, (s.accounts i).Lawful

/-- A worker that is counted as live is counted. -/
theorem WorkersState.Sound.live_pos {T : Target} {s : WorkersState ι} (h : s.Sound T) {i : ι}
    (hi : (s.accounts i).phase = .live) : 0 < s.live_workers := by
  have hmem : i ∈ {j | (s.accounts j).isLive = true} := by
    unfold WorkerAccount.isLive
    simp [hi]
  have hne := Set.encard_ne_zero_of_mem hmem
  have hlive := h.live
  unfold Accounts.tally at hlive
  rw [← hlive] at hne
  have hne' : s.live_workers ≠ 0 := by exact_mod_cast hne
  omega

variable [DecidableEq ι] {T : Target} {s : WorkersState ι} {i : ι}

theorem Counts.same {p : WorkerAccount → Bool} {counter : ℕ} {accounts : ι → WorkerAccount}
    (h : Counts p counter accounts) {a : WorkerAccount} (ha : p a = p (accounts i)) :
    Counts p counter (update accounts i a) := by
  unfold Counts
  rw [Accounts.tally_same p accounts i ha]
  exact h

/-- One worker more. -/
theorem Counts.gain {p : WorkerAccount → Bool} {counter : ℕ} {accounts : ι → WorkerAccount}
    (h : Counts p counter accounts) {a : WorkerAccount} (hold : p (accounts i) = false)
    (hnew : p a = true) :
    Counts p ((counter + 1) % (u64_max + 1)) (update accounts i a) := by
  obtain ⟨total, htotal, hcounter⟩ := h
  refine ⟨total + 1, ?_, ?_⟩
  · rw [Accounts.tally_gain p accounts i hold hnew, ← htotal]
    push_cast
    rfl
  · rw [hcounter, Nat.mod_add_mod]

theorem update_lawful {a : WorkerAccount} (h : ∀ j, (s.accounts j).Lawful) (ha : a.Lawful) (j : ι) :
    (update s.accounts i a j).Lawful := by
  by_cases hj : j = i
  · subst hj
    rw [update_self]
    exact ha
  · rw [update_of_ne hj]
    exact h j

/-- An operation on none of the three counters and on none of the accounts' phases. -/
theorem sound_same (h : s.Sound T) {a : WorkerAccount} {counters : WorkerCounters}
    {alone : ι → Prop}
    (hlawful : a.Lawful) (hphase : a.phase = (s.accounts i).phase)
    (hevicted : a.evicted = (s.accounts i).evicted)
    (hcounters : counters.workers_created = s.workers_created ∧
      counters.live_workers = s.live_workers ∧ counters.idle_evictions = s.idle_evictions) :
    WorkersState.Sound T ⟨counters, update s.accounts i a, alone⟩ := by
  obtain ⟨hcreated, hlive, hevictions⟩ := hcounters
  refine ⟨?_, ?_, ?_, ?_, update_lawful h.lawful hlawful⟩
  · rw [hcreated]
    apply h.created.same
    rw [WorkerAccount.isCreated, WorkerAccount.isCreated, hphase]
  · rw [hlive, Accounts.tally_same, h.live]
    rw [WorkerAccount.isLive, WorkerAccount.isLive, hphase]
  · rw [hevictions]
    exact h.evicted.same hevicted
  · rw [Accounts.tally_same]
    · exact h.memory
    · rw [WorkerAccount.isPresent, WorkerAccount.isPresent, hphase]

/-- The first increment: there is memory for one worker more. -/
theorem sound_created (h : s.Sound T) (hphase : (s.accounts i).phase = .absent)
    (hroom : Accounts.tally WorkerAccount.isPresent s.accounts < T.usize_max) :
    (s.next T i .fetch_add_workers_created ()).Sound T := by
  have hcreated : (s.accounts i).isCreated = false := by
    rw [WorkerAccount.isCreated, hphase]
    rfl
  have hpresent : (s.accounts i).isPresent = false := by
    rw [WorkerAccount.isPresent, hphase]
    rfl
  have hlive : (s.accounts i).isLive = false := by
    rw [WorkerAccount.isLive, hphase]
    rfl
  unfold WorkersState.next
  refine ⟨h.created.gain hcreated rfl, ?_, h.evicted.same rfl, ?_, update_lawful h.lawful ?_⟩
  · rw [Accounts.tally_same]
    · exact h.live
    · exact hlive.symm
  · rw [Accounts.tally_gain WorkerAccount.isPresent s.accounts i hpresent rfl]
    exact Order.add_one_le_of_lt hroom
  · intro hevicted
    have hdropped := (h.lawful i hevicted).1
    rw [hphase] at hdropped
    cases hdropped

/-- The second increment: a worker that is in memory and not yet live leaves room for itself. -/
theorem sound_live (h : s.Sound T) (hphase : (s.accounts i).phase = .counted) :
    (s.next T i .fetch_add_live_workers ()).Sound T := by
  have hcreated : (s.accounts i).isCreated = true := by
    rw [WorkerAccount.isCreated, hphase]
    rfl
  have hpresent : (s.accounts i).isPresent = true := by
    rw [WorkerAccount.isPresent, hphase]
    rfl
  have hlive : (s.accounts i).isLive = false := by
    rw [WorkerAccount.isLive, hphase]
    rfl
  have hgain : Accounts.tally WorkerAccount.isLive
      (update s.accounts i ((s.accounts i).next .fetch_add_live_workers ()))
      = ((s.live_workers + 1 : ℕ) : ℕ∞) := by
    rw [Accounts.tally_gain WorkerAccount.isLive s.accounts i hlive rfl, ← h.live]
    push_cast
    rfl
  have hmemory : Accounts.tally WorkerAccount.isPresent
      (update s.accounts i ((s.accounts i).next .fetch_add_live_workers ())) ≤ T.usize_max := by
    rw [Accounts.tally_same]
    · exact h.memory
    · exact hpresent.symm
  -- Each live worker is in memory, which bounds their number: the counter does not wrap.
  have hle : s.live_workers + 1 ≤ T.usize_max := by
    have hsub : Accounts.tally WorkerAccount.isLive
        (update s.accounts i ((s.accounts i).next .fetch_add_live_workers ()))
        ≤ Accounts.tally WorkerAccount.isPresent
          (update s.accounts i ((s.accounts i).next .fetch_add_live_workers ())) := by
      apply Set.encard_le_encard
      intro j hj
      exact Bool.or_eq_true_iff.mpr (Or.inr hj)
    rw [hgain] at hsub
    exact_mod_cast hsub.trans hmemory
  unfold WorkersState.next
  refine ⟨h.created.same hcreated.symm, ?_, h.evicted.same rfl, hmemory,
    update_lawful h.lawful ?_⟩
  · rw [hgain]
    simp only [WorkerCounters.next]
    rw [Nat.mod_eq_of_lt (by omega)]
  · intro hevicted
    have hdropped := (h.lawful i hevicted).1
    rw [hphase] at hdropped
    cases hdropped

/-- The decrement: the worker itself is among those counted. -/
theorem sound_dropped (h : s.Sound T) (hphase : (s.accounts i).phase = .live)
    (hevicted : (s.accounts i).evicted = false) (previous : ℕ) :
    (s.next T i .fetch_sub_live_workers previous).Sound T := by
  have hcreated : (s.accounts i).isCreated = true := by
    rw [WorkerAccount.isCreated, hphase]
    rfl
  have hpresent : (s.accounts i).isPresent = true := by
    rw [WorkerAccount.isPresent, hphase]
    rfl
  have hlive : (s.accounts i).isLive = true := by
    rw [WorkerAccount.isLive, hphase]
    rfl
  have hpos := h.live_pos hphase
  have hlose := Accounts.tally_lose WorkerAccount.isLive s.accounts i
    (a := (s.accounts i).next .fetch_sub_live_workers previous) hlive rfl
  have hmemory := Accounts.tally_lose WorkerAccount.isPresent s.accounts i
    (a := (s.accounts i).next .fetch_sub_live_workers previous) hpresent rfl
  have hsub : Accounts.tally WorkerAccount.isLive s.accounts
      ≤ Accounts.tally WorkerAccount.isPresent s.accounts := by
    apply Set.encard_le_encard
    intro j hj
    exact Bool.or_eq_true_iff.mpr (Or.inr hj)
  have hle : s.live_workers ≤ T.usize_max := by
    rw [← h.live] at hsub
    exact_mod_cast hsub.trans h.memory
  unfold WorkersState.next
  refine ⟨h.created.same hcreated.symm, ?_, h.evicted.same rfl, ?_, update_lawful h.lawful ?_⟩
  · rw [← h.live] at hlose
    simp only [WorkerCounters.next]
    have hsum : s.live_workers + T.usize_max = s.live_workers - 1 + (T.usize_max + 1) := by omega
    rw [hsum, Nat.add_mod_right, Nat.mod_eq_of_lt (by omega)]
    -- One less than the counter is one less than the tally.
    have hsucc : ((s.live_workers - 1 : ℕ) : ℕ∞) + 1 = (s.live_workers : ℕ∞) := by
      exact_mod_cast Nat.sub_add_cancel hpos
    exact WithTop.add_right_cancel ENat.one_ne_top (hsucc.trans hlose.symm)
  · exact (le_self_add.trans_eq hmemory).trans h.memory
  · intro htrue
    rw [WorkerAccount.next, hevicted] at htrue
    cases htrue

/-- The count of an eviction. -/
theorem sound_evicted (h : s.Sound T) (howes : (s.accounts i).Owes) :
    (s.next T i .fetch_add_idle_evictions ()).Sound T := by
  unfold WorkersState.next
  refine ⟨h.created.same rfl, ?_, h.evicted.gain howes.evicted rfl, ?_,
    update_lawful h.lawful fun _ => ⟨howes.dropped, howes.expired, howes.last⟩⟩
  · rw [Accounts.tally_same]
    · exact h.live
    · rfl
  · rw [Accounts.tally_same]
    · exact h.memory
    · rfl

/-- Every operation that a worker may do keeps the counters and the accounts together. -/
theorem sound_next {op : WorkerOp} {r : op.Answer} (h : s.Sound T)
    (hallowed : (s.accounts i).Allowed op) (hgives : s.Gives T op r) :
    (s.next T i op r).Sound T := by
  have hlawful := h.lawful i
  cases op with
  | fetch_add_workers_created => exact sound_created h hallowed hgives
  | fetch_add_live_workers => exact sound_live h hallowed
  | fetch_sub_live_workers => exact sound_dropped h hallowed.1 hallowed.2 r
  | fetch_add_idle_evictions => exact sound_evicted h hallowed
  | store_idle_expired =>
    refine sound_same h ?_ rfl rfl ⟨rfl, rfl, rfl⟩
    intro hevicted
    exact ⟨(hlawful hevicted).1, rfl, (hlawful hevicted).2.2⟩
  | _ => exact sound_same h hlawful rfl rfl ⟨rfl, rfl, rfl⟩

omit [DecidableEq ι] in
/-- The value that the decrement returns says whether the worker is the only live one. -/
theorem WorkersState.Sound.live_eq_one (h : s.Sound T) (hi : (s.accounts i).phase = .live) :
    s.live_workers = 1 ↔ ∀ j, (s.accounts j).phase = .live → j = i := by
  have hlive := h.live
  unfold Accounts.tally WorkerAccount.isLive at hlive
  simp only [beq_iff_eq] at hlive
  have hone : s.live_workers = 1 ↔ {j | (s.accounts j).phase = .live}.encard = 1 := by
    rw [← hlive]
    exact_mod_cast Iff.rfl
  rw [hone, Set.encard_eq_one]
  constructor
  · rintro ⟨only, hset⟩ j hj
    have hmem : ∀ k, (s.accounts k).phase = .live → k = only := fun k hk => by
      have hk : k ∈ {j | (s.accounts j).phase = .live} := hk
      rwa [hset] at hk
    rw [hmem j hj, hmem i hi]
  · intro hall
    exact ⟨i, Set.eq_singleton_iff_unique_mem.mpr ⟨hi, hall⟩⟩

/-- Those who found one live worker were alone. -/
def WorkersState.Informed (s : WorkersState ι) : Prop :=
  ∀ i, s.alone i ↔ (s.accounts i).last = true

/-- Every operation keeps them informed. -/
theorem informed_next {op : WorkerOp} {r : op.Answer} (h : s.Sound T) (hinformed : s.Informed)
    (hallowed : (s.accounts i).Allowed op) (hgives : s.Gives T op r) :
    (s.next T i op r).Informed := by
  intro j
  by_cases hj : j = i
  · subst hj
    unfold WorkersState.next
    dsimp only
    rw [update_self]
    cases op with
    | fetch_sub_live_workers =>
      have hprevious : r = s.live_workers := hgives
      rw [WorkersState.alone_next, update_self, ← h.live_eq_one hallowed.1, WorkerAccount.next,
        hprevious, decide_eq_true_iff]
    | _ => exact hinformed j
  · unfold WorkersState.next
    dsimp only
    rw [update_of_ne hj]
    cases op with
    | fetch_sub_live_workers =>
      rw [WorkersState.alone_next, update_of_ne hj]
      exact hinformed j
    | _ => exact hinformed j

end Sound

/-! ## The programs keep to it

From the account of a worker alone, with no word about the others. -/

/-- The workers of a service. -/
def workerAccounts (ι : Type) [DecidableEq ι] (T : Target) :
    Accounts ι (WorkersState ι) WorkerOp WorkerOp.Answer WorkerAccount where
  account := WorkersState.accounts
  sound s := s.Sound T ∧ s.Informed
  step := Performs T
  allowed a op := a.Allowed op
  next a op r a' := a.Told op r ∧ a' = a.next op r
  law := by
    rintro i s op r s' ⟨hsound, hinformed⟩ hallowed ⟨htold, hgives, rfl⟩
    refine ⟨⟨sound_next hsound hallowed hgives, informed_next hsound hinformed hallowed hgives⟩,
      ⟨htold, ?_⟩, ?_⟩
    · exact update_self ..
    · exact fun j hj => update_of_ne hj ..

section Checks

variable {ι : Type} [DecidableEq ι] {T : Target} {a : WorkerAccount} {α : Type}
  {Q : α → WorkerAccount → Prop}

/-- One operation. -/
theorem check_act {op : WorkerOp} {k : op.Answer → WorkerM α} (hallowed : a.Allowed op)
    (hk : ∀ r, a.Told op r → (workerAccounts ι T).Check Q (k r) (a.next op r)) :
    (workerAccounts ι T).Check Q (act op >>= k) a := by
  refine ⟨hallowed, ?_⟩
  rintro r a' ⟨htold, rfl⟩
  exact hk r htold

theorem check_pure {x : α} (h : Q x a) : (workerAccounts ι T).Check Q (pure x) a := h

/-- Looking for an instance changes no counter. -/
theorem find_pre_check (h : ¬ a.Owes) : (workerAccounts ι T).Check (fun _ a' => a' = a)
    HttpHandlerState.find_pre a := by
  unfold HttpHandlerState.find_pre
  refine check_act h fun found _ => ?_
  cases found with
  | true => exact check_pure rfl
  | false =>
    refine check_act h fun prepared _ => ?_
    cases prepared with
    | dropped => exact check_pure rfl
    | ready result =>
      cases result with
      | error error => exact check_pure rfl
      | ok done =>
        refine check_act h fun made _ => ?_
        cases made with
        | error error => exact check_pure rfl
        | ok done => exact check_act h fun _ _ => check_pure rfl

/-- A worker that was made is live, and one that was not is not there. -/
def Made (self : HttpHandlerState) (result : Awaited (Except String Instance))
    (a : WorkerAccount) : Prop :=
  match result with
  | .ready (.ok worker) => worker = self.instance_ ∧ a = { phase := .live }
  | .ready (.error _) => a = {}
  | .dropped => a = {}

/-- `instantiate`, up to a live worker or none. -/
theorem instantiate_check (self : HttpHandlerState) :
    (workerAccounts ι T).Check (Made self) self.instantiate {} := by
  unfold HttpHandlerState.instantiate
  have hnew : ¬ WorkerAccount.Owes {} := WorkerAccount.not_owes_of_phase rfl nofun
  refine (find_pre_check hnew).bind fun found a' ha => ?_
  subst ha
  cases found with
  | dropped => exact check_pure rfl
  | ready result =>
    cases result with
    | error error => exact check_pure rfl
    | ok done =>
      refine check_act hnew fun fuel _ => ?_
      cases fuel with
      | error error => exact check_pure rfl
      | ok done =>
        refine check_act hnew fun instantiated _ => ?_
        cases instantiated with
        | dropped => exact check_pure rfl
        | ready result =>
          cases result with
          | error error => exact check_pure rfl
          | ok done =>
            exact check_act hnew fun _ _ => check_act rfl fun _ _ =>
              check_act rfl fun _ _ => check_pure ⟨rfl, rfl⟩

/-- A worker in the hands of the handler. -/
structure Serving (a : WorkerAccount) : Prop where
  phase : a.phase = .live
  evicted : a.evicted = false

theorem Serving.not_owes (h : Serving a) : ¬ a.Owes :=
  WorkerAccount.not_owes_of_phase h.phase nofun

/-- A poll sets the flag or leaves the account as it is. -/
theorem poll_check (expiration : HttpWorkerExpiration) (instant_max : ℕ) (status : WorkerStatus)
    (start : ℕ) (h : Serving a) :
    (workerAccounts ι T).Check (fun _ a' => Serving a')
      (expiration.poll instant_max status start) a := by
  unfold HttpWorkerExpiration.poll
  dsimp only
  cases Exec.checkedAdd instant_max start _ with
  | none => exact check_pure h
  | some deadline =>
    -- What follows the reset of the sleep, if there is one.
    have hpoll : (workerAccounts ι T).Check (fun _ a' => Serving a') (do
        if ← act .poll_sleep then
          if status = .Idle then act .store_idle_expired
          pure (true, { expiration with sleep := deadline })
        else pure (false, { expiration with sleep := deadline }) :
        WorkerM (Bool × HttpWorkerExpiration)) a := by
      refine check_act h.not_owes fun ready _ => ?_
      cases ready with
      | false => exact check_pure h
      | true =>
        by_cases hidle : status = .Idle
        · simp only [if_true, hidle]
          exact check_act h.not_owes fun _ _ => check_pure ⟨h.phase, h.evicted⟩
        · simp only [if_true, if_neg hidle]
          exact check_pure h
    by_cases hsame : deadline ≠ expiration.sleep
    · simp only [if_pos hsame]
      exact check_act h.not_owes fun _ _ => hpoll
    · simp only [if_neg hsame]
      exact hpoll

/-- A worker that is over: it was never made, or it was dropped, and counted if it had expired and
was the last. -/
def Over (a : WorkerAccount) : Prop :=
  a.phase = .absent ∨ a.phase = .dropped ∧
    (a.expired = true → a.last = true → a.evicted = true)

/-- A worker that is over owes no count. -/
theorem Over.not_owes (h : Over a) : ¬ a.Owes := by
  intro howes
  rcases h with habsent | ⟨-, hpaid⟩
  · exact WorkerAccount.not_owes_of_phase habsent nofun howes
  · exact Bool.false_ne_true (howes.evicted.symm.trans (hpaid howes.expired howes.last))

/-- `drop`, which counts an eviction that is owed. -/
theorem drop_check (state : HttpWorkerState) (h : Serving a) :
    (workerAccounts ι T).Check (fun _ a' => Over a') state.drop a := by
  unfold HttpWorkerState.drop
  refine check_act h.not_owes fun _ _ => check_act ⟨h.phase, h.evicted⟩ fun previous _ => ?_
  by_cases hlast : previous = 1
  · rw [if_pos hlast]
    refine check_act ⟨rfl, h.evicted⟩ fun expired htold => ?_
    have hexpired : expired = a.expired := htold
    cases expired with
    | false =>
      refine check_pure (Or.inr ⟨rfl, fun htrue => ?_⟩)
      exact absurd (hexpired.trans htrue) (by decide)
    | true =>
      refine check_act ⟨rfl, hexpired.symm, decide_eq_true hlast, h.evicted⟩ fun _ _ => ?_
      -- It has been counted, so nothing is owed any more.
      have hpaid : ∀ {a : WorkerAccount}, a.evicted = true → ¬ a.Owes :=
        fun hevicted howes => absurd (hevicted.symm.trans howes.evicted) (by decide)
      exact check_act (hpaid rfl) fun _ _ => check_act (hpaid rfl) fun _ _ =>
        ⟨hpaid rfl, fun _ a' ha' => by
          obtain ⟨-, rfl⟩ := ha'
          exact Or.inr ⟨rfl, fun _ _ => rfl⟩⟩
  · rw [if_neg hlast]
    refine check_pure (Or.inr ⟨rfl, fun _ htrue => ?_⟩)
    exact absurd (of_decide_eq_true htrue) hlast

/-- Where a thread ends or goes on. -/
abbrev Rests : Option WorkerBlock → WorkerAccount → Prop :=
  Tasks.Post Over fun _ a => Serving a

theorem worker_check (self : HttpHandlerState) :
    (workerAccounts ι T).Check Rests self.worker {} := by
  unfold HttpHandlerState.worker
  refine (instantiate_check self).bind fun result a' hmade => ?_
  cases result with
  | dropped => exact check_pure (Or.inl (by rw [show a' = {} from hmade]))
  | ready result =>
    cases result with
    | error error => exact check_pure (Or.inl (by rw [show a' = {} from hmade]))
    | ok worker =>
      obtain ⟨-, rfl⟩ := hmade
      exact check_pure ⟨rfl, rfl⟩

theorem block_check (self : HttpHandlerState) (b : WorkerBlock) (h : Serving a) :
    (workerAccounts ι T).Check Rests (b.program self) a := by
  obtain ⟨worker⟩ := b
  unfold WorkerBlock.program
  refine check_act h.not_owes fun event _ => ?_
  cases event with
  | poll status start =>
    refine (poll_check worker.expiration self.instant_max status start h).bind ?_
    intro answer a' ha'
    exact check_pure ha'
  | should_accept_request concurrent_count total_count =>
    exact check_act h.not_owes fun _ _ => check_pure h
  | drop =>
    refine (drop_check worker.state h).bind fun _ a' ha' => ?_
    exact check_pure ha'

end Checks

/-! ## What the counters say

`counters_exact_iff` puts the three together: the two increments, the wrapping, and the evictions
that are not counted. -/

section Exact

variable {ι : Type}

/-- The workers that are or were counted as created are those between the two increments, those
that are live and those that were dropped. -/
theorem created_eq (accounts : ι → WorkerAccount) :
    {i | (accounts i).isCreated = true}.encard
      = {i | (accounts i).phase = .counted}.encard + {i | (accounts i).isLive = true}.encard
        + {i | (accounts i).phase = .dropped}.encard := by
  have hlive : ∀ i, (accounts i).isLive = true ↔ (accounts i).phase = .live := by
    intro i
    rw [WorkerAccount.isLive, beq_iff_eq]
  have hcreated : ∀ i, (accounts i).isCreated = true ↔ (accounts i).phase ≠ .absent := by
    intro i
    rw [WorkerAccount.isCreated, bne_iff_ne]
  rw [← Set.encard_union_eq, ← Set.encard_union_eq]
  · congr 1
    ext i
    simp only [Set.mem_union, Set.mem_ofPred_eq, hlive, hcreated]
    cases (accounts i).phase <;> simp
  · rw [Set.disjoint_left]
    rintro i (hi | hi) hdropped
    · rw [Set.mem_ofPred_eq] at hi hdropped
      rw [hi] at hdropped
      cases hdropped
    · rw [Set.mem_ofPred_eq, hlive] at hi
      rw [Set.mem_ofPred_eq, hi] at hdropped
      cases hdropped
  · rw [Set.disjoint_left]
    intro i hi hdropped
    rw [Set.mem_ofPred_eq] at hi
    rw [Set.mem_ofPred_eq, hlive, hi] at hdropped
    cases hdropped

/-- The counters are as documented: the live workers are those created and not dropped, and the
evictions are the dropped workers whose idle time had expired. -/
structure WorkersState.Exact (s : WorkersState ι) : Prop where
  live : (s.workers_created : ℕ∞)
    = s.live_workers + {i | (s.accounts i).phase = .dropped}.encard
  evictions : (s.idle_evictions : ℕ∞)
    = {i | (s.accounts i).phase = .dropped ∧ (s.accounts i).expired = true}.encard

/-- No worker is between its two increments, no more were created than the counter can say, and
each that was dropped after its idle time had expired has added to the evictions. -/
structure WorkersState.Counted (s : WorkersState ι) : Prop where
  settled : ∀ i, (s.accounts i).phase ≠ .counted
  few : {i | (s.accounts i).isCreated = true}.encard ≤ u64_max
  evicted : ∀ i, (s.accounts i).phase = .dropped → (s.accounts i).expired = true →
    (s.accounts i).evicted = true

variable {T : Target} {s : WorkersState ι}

theorem WorkersState.Sound.exact_of_counted (h : s.Sound T) (hcounted : s.Counted) : s.Exact := by
  obtain ⟨total, htotal, hcreated⟩ := h.created
  obtain ⟨evictions, hevictions, hcount⟩ := h.evicted
  have hnone : {i | (s.accounts i).phase = .counted} = ∅ := by
    ext i
    simp [hcounted.settled i]
  have hset : {i | (s.accounts i).evicted = true}
      = {i | (s.accounts i).phase = .dropped ∧ (s.accounts i).expired = true} := by
    ext i
    constructor
    · intro hi
      exact ⟨(h.lawful i hi).1, (h.lawful i hi).2.1⟩
    · rintro ⟨hdropped, hexpired⟩
      exact hcounted.evicted i hdropped hexpired
  have hfew : total ≤ u64_max := by
    have := hcounted.few
    unfold Accounts.tally at htotal
    rw [← htotal] at this
    exact_mod_cast this
  -- Only workers that were created are evicted, so this counter has not wrapped either.
  have hle : evictions ≤ total := by
    have hsub : {i | (s.accounts i).evicted = true} ⊆ {i | (s.accounts i).isCreated = true} := by
      intro i hi
      have hdropped := (h.lawful i hi).1
      rw [Set.mem_ofPred_eq, WorkerAccount.isCreated, hdropped]
      rfl
    have := Set.encard_le_encard hsub
    unfold Accounts.tally at htotal hevictions
    rw [← htotal, ← hevictions] at this
    exact_mod_cast this
  constructor
  · have hlive := h.live
    unfold Accounts.tally at hlive htotal
    rw [hcreated, Nat.mod_eq_of_lt (by omega), htotal, created_eq, hnone, Set.encard_empty,
      zero_add, ← hlive]
  · unfold Accounts.tally at hevictions
    rw [hcount, Nat.mod_eq_of_lt (by omega), hevictions, hset]

/-- A counter that is short by less than a whole turn, by the number of workers between the
increments, is not short. -/
theorem eq_zero_of_mod {turn total counted rest : ℕ} (hsum : total = counted + rest)
    (hmod : total % turn = rest) (hlt : counted < turn) : counted = 0 ∧ total < turn := by
  have hdiv := Nat.div_add_mod total turn
  have hturns : turn * (total / turn) = counted := by omega
  have hzero : total / turn = 0 := by
    by_contra hne
    have hle := Nat.le_mul_of_pos_right turn (Nat.pos_of_ne_zero hne)
    omega
  rw [hzero, Nat.mul_zero] at hturns
  have hmodlt := Nat.mod_lt total (Nat.zero_lt_of_lt hlt)
  exact ⟨hturns.symm, by omega⟩

theorem WorkersState.Sound.counted_of_exact (h : s.Sound T) (hexact : s.Exact) : s.Counted := by
  obtain ⟨total, htotal, hcreated⟩ := h.created
  obtain ⟨evictions, hevictions, hcount⟩ := h.evicted
  unfold Accounts.tally at htotal hevictions
  -- All the sets are finite: they are parts of those created.
  have hcounted : {i | (s.accounts i).phase = .counted}.encard ≤ T.usize_max := by
    refine (Set.encard_le_encard fun i hi => ?_).trans h.memory
    have hphase : (s.accounts i).phase = .counted := hi
    rw [Set.mem_ofPred_eq, WorkerAccount.isPresent, hphase]
    rfl
  have hdropped : {i | (s.accounts i).phase = .dropped}.encard ≤ total := by
    rw [htotal, created_eq]
    exact le_add_self
  obtain ⟨counted, hc⟩ := ENat.ne_top_iff_exists.mp
    (ne_top_of_le_ne_top (ENat.natCast_ne_top _) hcounted)
  obtain ⟨dropped, hd⟩ := ENat.ne_top_iff_exists.mp
    (ne_top_of_le_ne_top (ENat.natCast_ne_top _) hdropped)
  have hlive := h.live
  unfold Accounts.tally at hlive
  have hsum : total = counted + (s.live_workers + dropped) := by
    have hall := htotal
    rw [created_eq, ← hc, ← hlive, ← hd] at hall
    have hnat : total = counted + s.live_workers + dropped := by exact_mod_cast hall
    omega
  have hmod : total % (u64_max + 1) = s.live_workers + dropped := by
    have hsays := hexact.live
    rw [hcreated, ← hd] at hsays
    exact_mod_cast hsays
  have hfew : counted < u64_max + 1 := by
    rw [← hc] at hcounted
    have hle : counted ≤ T.usize_max := by exact_mod_cast hcounted
    exact Nat.lt_succ_of_le (hle.trans T.usize_max_le_u64_max)
  obtain ⟨hzero, hlt⟩ := eq_zero_of_mod hsum hmod hfew
  refine ⟨?_, ?_, ?_⟩
  · intro i hi
    have hempty : {j | (s.accounts j).phase = .counted} = ∅ := by
      rw [← Set.encard_eq_zero, ← hc, hzero]
      rfl
    exact absurd (show i ∈ {j | (s.accounts j).phase = .counted} from hi) (by rw [hempty]; simp)
  · rw [← htotal]
    exact_mod_cast Nat.le_of_lt_succ hlt
  · intro i hphase hexpired
    -- The evicted are among the dropped and expired, and the counter says that they are as many.
    have hsub : {j | (s.accounts j).evicted = true}
        ⊆ {j | (s.accounts j).phase = .dropped ∧ (s.accounts j).expired = true} :=
      fun j hj => ⟨(h.lawful j hj).1, (h.lawful j hj).2.1⟩
    have hfinite :
        {j | (s.accounts j).phase = .dropped ∧ (s.accounts j).expired = true}.Finite := by
      apply Set.Finite.subset (s := {j | (s.accounts j).phase = .dropped})
      · rw [← Set.encard_ne_top_iff, ← hd]
        exact ENat.natCast_ne_top dropped
      · exact fun j hj => hj.1
    have hmany : {j | (s.accounts j).phase = .dropped ∧ (s.accounts j).expired = true}.encard
        ≤ {j | (s.accounts j).evicted = true}.encard := by
      rw [← hexact.evictions, ← hevictions, hcount]
      exact_mod_cast Nat.mod_le _ _
    have hall := (hfinite.subset hsub).eq_of_subset_of_encard_le hsub hmany
    have hmem : i ∈ {j | (s.accounts j).phase = .dropped ∧ (s.accounts j).expired = true} :=
      ⟨hphase, hexpired⟩
    rw [← hall] at hmem
    exact hmem

end Exact

/-- The `drop` of the worker is at the count: it is about to look at the flag or to add. -/
def Counting {ι : Type} (S : HttpWorkers ι) (i : ι) : Prop :=
  (∃ k, S.threads i = .vis .load_idle_expired k) ∨
    ∃ k, S.threads i = .vis .fetch_add_idle_evictions k

section Owing

variable {ι : Type} [DecidableEq ι] {T : Target} {S : HttpWorkers ι} {i : ι}

/-- Who owes the count is at it: nothing else is allowed, and a `drop` that is over has paid. -/
theorem counting_of_owes
    (hcheck : (workerAccounts ι T).Check Rests (S.threads i) (S.state.accounts i))
    (howes : (S.state.accounts i).Owes) : Counting S i := by
  by_contra hpast
  cases hi : S.threads i with
  | ret next =>
    rw [hi] at hcheck
    cases next with
    | none =>
      have hover : Over (S.state.accounts i) := hcheck
      exact hover.not_owes howes
    | some b =>
      have hserving : Serving (S.state.accounts i) := hcheck
      exact hserving.not_owes howes
  | vis op k =>
    rw [hi] at hcheck
    have hallowed := hcheck.1
    cases op with
    | load_idle_expired => exact hpast (.inl ⟨k, hi⟩)
    | fetch_add_idle_evictions => exact hpast (.inr ⟨k, hi⟩)
    | fetch_add_workers_created | fetch_add_live_workers =>
      exact WorkerAccount.not_owes_of_phase hallowed nofun howes
    | fetch_sub_live_workers => exact WorkerAccount.not_owes_of_phase hallowed.1 nofun howes
    | _ => exact hallowed howes

/-- What a thread has still to do says whether its worker is still to be counted. -/
theorem evicted_iff (hlawful : (S.state.accounts i).Lawful)
    (hcheck : (workerAccounts ι T).Check Rests (S.threads i) (S.state.accounts i))
    (hdropped : (S.state.accounts i).phase = .dropped)
    (hexpired : (S.state.accounts i).expired = true) :
    (S.state.accounts i).evicted = true ↔ (S.state.accounts i).last = true ∧ ¬ Counting S i := by
  constructor
  · intro hevicted
    refine ⟨(hlawful hevicted).2.2, ?_⟩
    rintro (⟨k, hi⟩ | ⟨k, hi⟩)
    · rw [hi] at hcheck
      exact absurd (hevicted.symm.trans hcheck.1.2) (by decide)
    · rw [hi] at hcheck
      exact absurd (hevicted.symm.trans hcheck.1.evicted) (by decide)
  · rintro ⟨hlast, hpast⟩
    by_contra hevicted
    exact hpast (counting_of_owes hcheck
      ⟨hdropped, hexpired, hlast, Bool.eq_false_iff.mpr hevicted⟩)

omit [DecidableEq ι] in
/-- At the start nothing has been counted. -/
theorem sound_new (package_tier : PackageTier) (pre : Bool) :
    (WorkersState.new package_tier pre : WorkersState ι).Sound T := by
  have hnone : ∀ p : WorkerAccount → Bool, p {} = false →
      Accounts.tally p (WorkersState.new package_tier pre : WorkersState ι).accounts = 0 := by
    intro p hp
    simp [Accounts.tally, WorkersState.new, hp]
  refine ⟨⟨0, (hnone _ rfl).symm, rfl⟩, (hnone _ rfl).symm, ⟨0, (hnone _ rfl).symm, rfl⟩, ?_, ?_⟩
  · rw [hnone _ rfl]
    exact zero_le
  · intro i hevicted
    cases hevicted

end Owing

/-- In every state of every run, whatever the handler does with how many workers: `live_workers` is
the number of live workers, and a decrement finds it positive. A worker that was dropped after its
idle time had expired has been counted exactly when it was the only live one before its decrement
and its `drop` is past the count. So the counters are as documented exactly when no worker is
between its two increments, no more than `u64::MAX` were created, and all such workers were the
only live ones, with their `drop`s past the count. -/
theorem counters_exact_iff {ι : Type} [DecidableEq ι] {T : Target} (self : HttpHandlerState)
    (package_tier : PackageTier) (pre : Bool) (S : HttpWorkers ι)
    (hrun : HttpWorkers.Run T self (.start self package_tier pre) S) :
    ((S.state.live_workers : ℕ∞) = {i | (S.state.accounts i).phase = .live}.encard ∧
      ∀ i k, S.threads i = .vis .fetch_sub_live_workers k → 0 < S.state.live_workers) ∧
    (∀ i, (S.state.accounts i).phase = .dropped → (S.state.accounts i).expired = true →
      ((S.state.accounts i).evicted = true ↔ S.state.alone i ∧ ¬ Counting S i)) ∧
    (S.state.Exact ↔
      (∀ i, (S.state.accounts i).phase ≠ .counted) ∧
      {i | (S.state.accounts i).isCreated = true}.encard ≤ u64_max ∧
      ∀ i, (S.state.accounts i).phase = .dropped → (S.state.accounts i).expired = true →
        S.state.alone i ∧ ¬ Counting S i) := by
  have hinformed : (WorkersState.new package_tier pre : WorkersState ι).Informed :=
    fun _ => ⟨False.elim, Bool.false_ne_true⟩
  -- The invariant of a run, and for each thread what the rest of its program may still do.
  obtain ⟨⟨hsound, hinformed⟩, hcheck⟩ := Accounts.run (L := workerAccounts ι T)
    (T := HttpWorkers.start self package_tier pre) (fun _ _ _ => False.elim)
    (fun b a => block_check self b) ⟨sound_new _ _, hinformed⟩ (fun i => worker_check self) hrun
  have hevicted : ∀ i, (S.state.accounts i).phase = .dropped →
      (S.state.accounts i).expired = true →
      ((S.state.accounts i).evicted = true ↔ S.state.alone i ∧ ¬ Counting S i) := by
    intro i hdropped hexpired
    rw [hinformed i]
    exact evicted_iff (hsound.lawful i) (hcheck i) hdropped hexpired
  refine ⟨⟨?_, ?_⟩, hevicted, ?_, ?_⟩
  · have hlive := hsound.live
    unfold Accounts.tally WorkerAccount.isLive at hlive
    simpa only [beq_iff_eq] using hlive
  · intro i k hi
    have hthis := hcheck i
    rw [hi] at hthis
    exact hsound.live_pos hthis.1.1
  · intro hexact
    obtain ⟨hsettled, hfew, hcounted⟩ := hsound.counted_of_exact hexact
    exact ⟨hsettled, hfew, fun i hd he => (hevicted i hd he).mp (hcounted i hd he)⟩
  · rintro ⟨hsettled, hfew, halone⟩
    exact hsound.exact_of_counted ⟨hsettled, hfew, fun i hd he =>
      (hevicted i hd he).mpr (halone i hd he)⟩

/-! ## Two workers

They expire together, or one after the other. -/

/-- A world that makes every worker it is asked for, whose clock has run out, and whose handler
drops a worker once its idle time has expired. -/
def obliging (T : Target) (i : Bool) (s : WorkersState Bool) (op : WorkerOp) :
    Option (op.Answer × WorkersState Bool) :=
  let r : op.Answer := match op with
    | .lock_pre => s.pre
    | .poll_sleep => true
    | .load_idle_expired => (s.accounts i).expired
    | .prepare | .instantiate_async => .ready (.ok ())
    | .make_proxy_pre | .set_fuel => .ok ()
    | .next_event => if (s.accounts i).expired then .drop else .poll .Idle 0
    | .fetch_sub_live_workers => s.live_workers
    | .get_or_insert_pre | .store_package_tier _ | .fetch_add_workers_created
    | .fetch_add_live_workers | .answer _ | .reset_sleep _ | .store_idle_expired | .drop_store
    | .fetch_add_idle_evictions | .clear_pre | .demote => ()
  some (r, s.next T i op r)

theorem obliging_performs {T : Target} (i : Bool) (s : WorkersState Bool) (op : WorkerOp)
    (r : op.Answer) (s' : WorkersState Bool) (h : obliging T i s op = some (r, s')) :
    Performs T i s op r s' := by
  obtain ⟨rfl, rfl⟩ := Prod.mk.inj (Option.some.inj h)
  refine ⟨?_, ?_, rfl⟩
  · cases op with
    | load_idle_expired => exact rfl
    | _ => exact trivial
  · cases op with
    | fetch_add_workers_created =>
      have hle : Accounts.tally WorkerAccount.isPresent s.accounts ≤ (2 : ℕ) := by
        refine (Set.encard_le_encard (Set.subset_univ _)).trans ?_
        rw [Set.encard_univ, ENat.card_eq_coe_fintype_card, Fintype.card_bool]
      refine lt_of_le_of_lt hle ?_
      have hwide := T.u16_max_le_usize_max
      exact_mod_cast Nat.lt_of_lt_of_le (by decide : 2 < 65535) hwide
    | lock_pre => exact rfl
    | fetch_sub_live_workers => exact rfl
    | _ => exact trivial

/-- A service of one-shot handlers that keeps its workers for a second. -/
def sampleHandler : HttpHandlerState where
  profile := .Http0_2
  idle_worker_ttl := 10 ^ 9
  request_timeout := 10 ^ 10
  max_instance_reuse_count := 8
  max_instance_concurrent_reuse_count := 1
  instant_max := 10 ^ 18
  far_future := 10 ^ 18

/-- The workers take turns as the schedule says. -/
def sampleWorkers (schedule : List Bool) : Option (HttpWorkers Bool) :=
  Tasks.follow (obliging target64) (WorkerBlock.program sampleHandler)
    (HttpWorkers.start sampleHandler .Warm true) schedule

/-- What is computed is a run. -/
theorem sampleWorkers_run {schedule : List Bool} {S : HttpWorkers Bool}
    (h : sampleWorkers schedule = some S) :
    HttpWorkers.Run target64 sampleHandler (.start sampleHandler .Warm true) S :=
  Tasks.follow_run obliging_performs h

/-- Two workers expire and are dropped, one after the other, and one eviction is counted: the
first that was dropped was not the last. -/
theorem two_idle_workers_one_eviction : ∃ S : HttpWorkers Bool,
    HttpWorkers.Run target64 sampleHandler (.start sampleHandler .Warm true) S ∧
      (∀ i, (S.state.accounts i).phase = .dropped ∧ (S.state.accounts i).expired = true) ∧
      S.state.live_workers = 0 ∧ S.state.workers_created = 2 ∧ S.state.idle_evictions = 1 ∧
      ¬ S.state.Exact := by
  have hcomputed : (sampleWorkers (List.replicate 11 false ++ List.replicate 11 true ++
      List.replicate 9 false ++ List.replicate 9 true)).map (fun S =>
        (decide (∀ i, (S.state.accounts i).phase = .dropped ∧ (S.state.accounts i).expired = true),
          S.state.live_workers, S.state.workers_created, S.state.idle_evictions))
      = some (true, 0, 2, 1) := by decide +kernel
  obtain ⟨S, hS, hcomputed⟩ := Option.map_eq_some_iff.mp hcomputed
  obtain ⟨hall, hcomputed⟩ := Prod.mk.inj hcomputed
  obtain ⟨hlive, hcomputed⟩ := Prod.mk.inj hcomputed
  obtain ⟨hcreated, hone⟩ := Prod.mk.inj hcomputed
  have hall := of_decide_eq_true hall
  refine ⟨S, sampleWorkers_run hS, hall, hlive, hcreated, hone, ?_⟩
  intro hexact
  have hevictions := hexact.evictions
  have hset : {i | (S.state.accounts i).phase = .dropped ∧ (S.state.accounts i).expired = true}
      = Set.univ := Set.eq_univ_of_forall hall
  rw [hset, hone, Set.encard_univ, ENat.card_eq_coe_fintype_card, Fintype.card_bool] at hevictions
  exact absurd hevictions (by decide)

/-- If the first is dropped before the second is made, it is counted and the counters are exact. -/
theorem counters_exact_in_turn : ∃ S : HttpWorkers Bool,
    HttpWorkers.Run target64 sampleHandler (.start sampleHandler .Warm true) S ∧
      (S.state.accounts false).evicted = true ∧ S.state.live_workers = 1 ∧
      S.state.idle_evictions = 1 ∧ S.state.Exact := by
  have hcomputed : (sampleWorkers (List.replicate 20 false ++ List.replicate 9 true)).map (fun S =>
      (S.state.live_workers, S.state.idle_evictions, fun i => S.state.accounts i))
      = some (1, 1, fun i => if i then ⟨.live, false, false, false⟩
          else ⟨.dropped, true, true, true⟩) := by decide +kernel
  obtain ⟨S, hS, hcomputed⟩ := Option.map_eq_some_iff.mp hcomputed
  obtain ⟨hlive, hcomputed⟩ := Prod.mk.inj hcomputed
  obtain ⟨hone, haccounts⟩ := Prod.mk.inj hcomputed
  have hfirst : S.state.accounts false = ⟨.dropped, true, true, true⟩ := congrFun haccounts false
  have hsecond : S.state.accounts true = ⟨.live, false, false, false⟩ := congrFun haccounts true
  have hrun := sampleWorkers_run hS
  obtain ⟨-, hevicted, hexact⟩ := counters_exact_iff sampleHandler .Warm true S hrun
  refine ⟨S, hrun, by rw [hfirst], hlive, hone, hexact.mpr ⟨?_, ?_, ?_⟩⟩
  · intro i
    cases i with
    | false => rw [hfirst]; exact nofun
    | true => rw [hsecond]; exact nofun
  · refine (Set.encard_le_encard (Set.subset_univ _)).trans ?_
    rw [Set.encard_univ, ENat.card_eq_coe_fintype_card, Fintype.card_bool]
    exact_mod_cast (by decide : 2 ≤ u64_max)
  · intro i hdropped hexpired
    refine (hevicted i hdropped hexpired).mp ?_
    cases i with
    | false => rw [hfirst]
    | true =>
      rw [hsecond] at hdropped
      cases hdropped

end WasmRuntime.Http.Workers
