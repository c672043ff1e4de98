/-
`CancellationToken` and `PauseToken`: the two signals of a running invocation.
-/
import Mathlib.Tactic.Ring
import WasmRuntime.Prog

set_option autoImplicit false

namespace WasmRuntime.Token

open Prog

/-! ## What the clones share

A notifier is the number of times `notify_waiters` was called on it. A `Notified` future holds the
number it was created at and is ready once the notifier has moved on: that it wakes every future
created before the call is what its documentation promises. -/

/-- `PauseTiming`. Durations and instants are counted in nanoseconds. -/
@[ext]
structure PauseTiming where
  completed : ℕ
  paused_at : Option ℕ
  deriving DecidableEq, Repr

/-- `Duration::MAX`. -/
def DURATION_MAX : ℕ := (2 ^ 64 - 1) * 1000000000 + 999999999

/-- `Duration::saturating_add`. -/
def saturating_add (a b : ℕ) : ℕ := min (a + b) DURATION_MAX

/-- The first of the branches of a `select!`. -/
def firstBranch : Fin 3 := (Fin.last 2).rev

/-- `PauseState` and `CancellationState`, with the clock and the source of randomness that
`select!` reads. The threads are known by `ι`, which says who holds the mutex. -/
structure Tokens (ι : Type) where
  paused : Bool
  resident : Bool
  evicted : Bool
  cancelled : Bool
  timing : PauseTiming
  timing_lock : Option ι
  notify : ℕ
  cancel_notify : ℕ
  now : ℕ
  random : Fin 3
  deriving DecidableEq, Repr

/-- `PauseToken::new` and `CancellationToken::new`. -/
def Tokens.new {ι : Type} (now : ℕ) (random : Fin 3) : Tokens ι where
  paused := false
  resident := false
  evicted := false
  cancelled := false
  timing := ⟨0, none⟩
  timing_lock := none
  notify := 0
  cancel_notify := 0
  now := now
  random := random

/-- The single operations. -/
inductive TokenOp where
  | load_paused
  | swap_paused (value : Bool)
  | store_resident (value : Bool)
  | load_evicted
  | store_evicted
  | load_cancelled
  | store_cancelled
  | lock_timing
  | unlock_timing
  | read_timing
  | take_paused_at
  | write_paused_at (at_ : ℕ)
  | add_completed (duration : ℕ)
  | now
  | notified
  | notify_waiters
  | poll_notified (since : ℕ)
  | cancel_notified
  | cancel_notify_waiters
  | poll_cancel_notified (since : ℕ)
  | random
  | park (notified cancelled : Option ℕ)

/-- The answers. -/
@[reducible]
def TokenOp.Answer : TokenOp → Type
  | .load_paused | .swap_paused _ | .load_evicted | .load_cancelled => Bool
  | .poll_notified _ | .poll_cancel_notified _ => Bool
  | .read_timing => PauseTiming
  | .take_paused_at => Option ℕ
  | .now | .notified | .cancel_notified => ℕ
  | .random => Fin 3
  | .store_resident _ | .store_evicted | .store_cancelled | .lock_timing | .unlock_timing
  | .write_paused_at _ | .add_completed _ | .notify_waiters | .cancel_notify_waiters
  | .park _ _ => Unit

/-- What an operation of thread `me` answers and leaves behind. -/
def TokenOp.run {ι : Type} (me : ι) (s : Tokens ι) : (op : TokenOp) → op.Answer × Tokens ι
  | .load_paused => (s.paused, s)
  | .swap_paused value => (s.paused, { s with paused := value })
  | .store_resident value => ((), { s with resident := value })
  | .load_evicted => (s.evicted, s)
  | .store_evicted => ((), { s with evicted := true })
  | .load_cancelled => (s.cancelled, s)
  | .store_cancelled => ((), { s with cancelled := true })
  | .lock_timing => ((), { s with timing_lock := some me })
  | .unlock_timing => ((), { s with timing_lock := none })
  | .read_timing => (s.timing, s)
  | .take_paused_at => (s.timing.paused_at, { s with timing.paused_at := none })
  | .write_paused_at at_ => ((), { s with timing.paused_at := some at_ })
  | .add_completed duration =>
    ((), { s with timing.completed := saturating_add s.timing.completed duration })
  | .now => (s.now, s)
  | .notified => (s.notify, s)
  | .notify_waiters => ((), { s with notify := s.notify + 1 })
  | .poll_notified since => (decide (since < s.notify), s)
  | .cancel_notified => (s.cancel_notify, s)
  | .cancel_notify_waiters => ((), { s with cancel_notify := s.cancel_notify + 1 })
  | .poll_cancel_notified since => (decide (since < s.cancel_notify), s)
  | .random => (s.random, s)
  -- A task that is parked may be polled at any time, also when nothing has woken it.
  | .park _ _ => ((), s)

/-- The mutex is taken when nobody holds it; nothing else waits. -/
def TokenOp.Enabled {ι : Type} (s : Tokens ι) : TokenOp → Prop
  | .lock_timing => s.timing_lock = none
  | _ => True

/-! ## The methods

Each method is a program whose effects are the single operations it performs on what the token's
clones share: a load, a store or a swap of one flag, taking and giving back the mutex around the
timing record, a reading of the clock, a call of the notifier. Nothing is said here of what happens
between two of them, so that one text serves for calls that are made one after the other
(`PauseTime`) and for calls that interleave (`TokenThreads`). -/

/-- A method of a token. -/
abbrev TokenM (α : Type) : Type := Prog TokenOp TokenOp.Answer α

/-- One operation. -/
def ask (op : TokenOp) : TokenM op.Answer := perform op

namespace CancellationToken

/-- `CancellationToken::cancel`. -/
def cancel : TokenM Unit := do
  ask .store_cancelled
  ask .cancel_notify_waiters

/-- `CancellationToken::is_cancelled`. -/
def is_cancelled : TokenM Bool := ask .load_cancelled

end CancellationToken

namespace PauseToken

/-- `PauseToken::is_paused`. -/
def is_paused : TokenM Bool := ask .load_paused

/-- `PauseToken::is_evicted`. -/
def is_evicted : TokenM Bool := ask .load_evicted

/-- `started.elapsed()`. -/
def elapsed (started : ℕ) : TokenM ℕ := do
  let now ← ask .now
  pure (now - started)

/-- `PauseToken::pause`. -/
def pause : TokenM Unit := do
  ask .lock_timing
  let was ← ask (.swap_paused true)
  if !was then
    ask (.store_resident false)
    let now ← ask .now
    ask (.write_paused_at now)
  ask .unlock_timing

/-- What `PauseToken::resume` does when it ends a pause. -/
def end_pause : TokenM Unit := do
  ask (.store_resident false)
  let paused_at ← ask .take_paused_at
  match paused_at with
  | some started => do
      let duration ← elapsed started
      ask (.add_completed duration)
  | none => pure ()
  ask .notify_waiters

/-- `PauseToken::resume`. -/
def resume : TokenM Bool := do
  if ← is_evicted then
    pure false
  else
    ask .lock_timing
    let was ← ask (.swap_paused false)
    if was then end_pause
    ask .unlock_timing
    pure true

/-- `PauseToken::mark_resident`. -/
def mark_resident : TokenM Unit := do
  if ← is_paused then
    if !(← is_evicted) then
      ask (.store_resident true)
      ask .notify_waiters

/-- `PauseToken::total_paused`. -/
def total_paused : TokenM ℕ := do
  ask .lock_timing
  let timing ← ask .read_timing
  let open_ ← match timing.paused_at with
    | some started => elapsed started
    | none => pure 0
  ask .unlock_timing
  pure (saturating_add timing.completed open_)

/-- `PauseToken::evict`, for the cancellation token of the same invocation. -/
def evict : TokenM Unit := do
  ask .store_evicted
  ask (.store_resident false)
  CancellationToken.cancel
  ask .notify_waiters

end PauseToken

/-! ## The methods that wait

`cancelled` and `wait` loop. A loop is cut at its back edges: each block ends with the block that
comes next, or with none when the method returns. In `wait` the back edges are the head of the loop,
each entry of `select!`, and each poll of one of its branches. -/

/-- The three futures of `select!` in `wait`: the notification it waits for, the one that the
nested `cancelled` waits for once it has been polled, and the end of the sleep. -/
structure Select where
  notified : ℕ
  cancelled : Option ℕ
  deadline : ℕ
  deriving DecidableEq, Repr

/-- The branches of `select!`. -/
inductive Branch where
  | notified | cancelled | sleep
  deriving DecidableEq, Repr

/-- The order in which `select!` polls, from the branch it starts at. -/
def Branch.order : Fin 3 → List Branch
  | 0 => [.notified, .cancelled, .sleep]
  | 1 => [.cancelled, .sleep, .notified]
  | 2 => [.sleep, .notified, .cancelled]

/-- The heads of the blocks. -/
inductive Block where
  /-- The loop of `cancelled`. -/
  | cancelled
  /-- `notified.await` in `cancelled`. -/
  | cancelled_await (since : ℕ)
  /-- The loop of `wait`. -/
  | wait
  /-- `select!`, with the futures in the state that the last polls left them in. -/
  | select (s : Select)
  /-- The branches that are still to be polled in this round. -/
  | poll (s : Select) (todo : List Branch)
  deriving DecidableEq, Repr

/-- A block, which ends with the next one. -/
abbrev BlockM : Type := TokenM (Option Block)

/-- The method returns. -/
def done : BlockM := pure none

/-- The method goes on with a block. -/
def goto (b : Block) : BlockM := pure (some b)

/-- The loop of `CancellationToken::cancelled`. -/
def CancellationToken.cancelled : BlockM := do
  let notified ← ask .cancel_notified
  if ← CancellationToken.is_cancelled then done
  else goto (.cancelled_await notified)

/-- `notified.await`, when `cancelled` is a task of its own. -/
def CancellationToken.cancelled_await (since : ℕ) : BlockM := do
  let ready ← ask (.poll_cancel_notified since)
  if ready then goto .cancelled
  else
    ask (.park none (some since))
    goto (.cancelled_await since)

namespace PauseToken

/-- What `wait` reads under the mutex. -/
def remaining (resident_ttl : ℕ) : TokenM ℕ := do
  ask .lock_timing
  let timing ← ask .read_timing
  let remaining ← match timing.paused_at with
    | some started => do
        let duration ← elapsed started
        pure (resident_ttl - duration)
    | none => pure resident_ttl
  ask .unlock_timing
  pure remaining

/-- The loop of `PauseToken::wait`, up to `select!`. -/
def wait (resident_ttl : ℕ) : BlockM := do
  let notified ← ask .notified
  if !(← is_paused) then done
  else if ← CancellationToken.is_cancelled then done
  else
    let remaining ← remaining resident_ttl
    if remaining == 0 then
      evict
      done
    else
      let now ← ask .now
      goto (.select ⟨notified, none, now + remaining⟩)

/-- `select!` starts at a random branch. -/
def select (s : Select) : BlockM := do
  let first ← ask .random
  goto (.poll s (Branch.order first))

/-- The poll of the nested `cancelled`: once its notification has come, it starts its loop
anew, and a loop that has just started creates a notification and looks at the flag. -/
def poll_cancelled (s : Select) (rest : List Branch) : BlockM :=
  match s.cancelled with
  | none => do
      let notified ← ask .cancel_notified
      if ← CancellationToken.is_cancelled then done
      else goto (.poll { s with cancelled := some notified } (.cancelled :: rest))
  | some since => do
      let ready ← ask (.poll_cancel_notified since)
      if ready then goto (.poll { s with cancelled := none } (.cancelled :: rest))
      else goto (.poll s rest)

/-- The poll of the sleep, and what `wait` does when it is over. -/
def poll_sleep (s : Select) (rest : List Branch) : BlockM := do
  let now ← ask .now
  if now < s.deadline then goto (.poll s rest)
  else
    if ← is_paused then
      evict
    done

/-- The branches in turn; a task that has polled all of them is parked. -/
def poll (s : Select) : List Branch → BlockM
  | [] => do
      ask (.park (some s.notified) s.cancelled)
      goto (.select s)
  | .notified :: rest => do
      let ready ← ask (.poll_notified s.notified)
      if ready then goto .wait else goto (.poll s rest)
  | .cancelled :: rest => poll_cancelled s rest
  | .sleep :: rest => poll_sleep s rest

end PauseToken

/-- The text of a block. -/
def Block.body (resident_ttl : ℕ) : Block → BlockM
  | .cancelled => CancellationToken.cancelled
  | .cancelled_await since => CancellationToken.cancelled_await since
  | .wait => PauseToken.wait resident_ttl
  | .select s => PauseToken.select s
  | .poll s todo => PauseToken.poll s todo

end WasmRuntime.Token
