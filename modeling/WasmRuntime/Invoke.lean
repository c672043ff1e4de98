/-
`Program::start` and `RuntimeInner::invoke`: a command from the checks on its input to the value
that its task returns, and any number of such commands at once.
-/
import WasmRuntime.Lifecycle
import WasmRuntime.MemoryCache
import WasmRuntime.Tasks
import WasmRuntime.WorkerProtocol

set_option autoImplicit false

namespace WasmRuntime

/-! ## Profiles

Each version has awaits of its own, and the HTTP profiles are no commands. -/

inductive WasiVersion where
  | V0_3 | V0_2
  deriving DecidableEq, Repr

/-- `WasiProfile::version`. -/
def Cache.WasiProfile.version : Cache.WasiProfile → WasiVersion
  | .Cli0_3 | .Http0_3 => .V0_3
  | .Cli0_2 | .Http0_2 => .V0_2

/-- `WasiProfile::is_command`. -/
def Cache.WasiProfile.is_command : Cache.WasiProfile → Bool
  | .Cli0_3 | .Cli0_2 => true
  | .Http0_3 | .Http0_2 => false

namespace Invoke

open ByteCodec Cache Prog Token Worker Function

/-! ## The values

What the task reads of its input and configuration, and what it returns. -/

/-- `PhaseTimings`, in nanoseconds. -/
structure PhaseTimings where
  prepare : ℕ
  instantiate : ℕ
  execute : ℕ
  suspended : ℕ
  active_execute : ℕ
  total : ℕ
  deriving DecidableEq, Repr

structure RunMeasurement where
  prepared_from : PackageTier
  retained_as : PackageTier
  wasi_version : WasiVersion
  phases : PhaseTimings
  deriving DecidableEq, Repr

structure CommandOutput where
  stdout : Bytes
  stderr : Bytes
  exit_code : ℕ
  wasi_version : WasiVersion
  measurement : RunMeasurement
  deriving DecidableEq, Repr

/-- A command to be started: its input, and what the configuration of its runtime says of it. The
residency limit is a `Duration`. -/
structure Command where
  input : CommandInput
  max_input_bytes : ℕ
  max_timeout : ℕ
  paused_resident_ttl : ℕ
  paused_resident_ttl_le : paused_resident_ttl ≤ DURATION_MAX

/-! ## Where the guest is awaited

A command is executed at four points of `invoke`, where it awaits Wasmtime: two profiles, each with
an instantiation and a call of `run`. At each of them the guest comes to an epoch any number of
times, and the callback decides whether it goes on, is suspended in `PauseToken::wait`, or is
unwound. -/

/-- The points of `invoke` at which it awaits the guest. -/
inductive Await where
  | instantiate_p3 | run_p3 | instantiate_p2 | run_p2
  deriving DecidableEq, Repr

namespace Await

/-- What is awaited there. The guest's own result is `Result<(), ()>`; a call under
`run_concurrent` has two places for an error of Wasmtime. An error is its text. -/
@[reducible]
def Outcome : Await → Type
  | .instantiate_p3 | .instantiate_p2 => Except String Unit
  | .run_p3 => Except String (Except String (Except Unit Unit))
  | .run_p2 => Except String (Except Unit Unit)

/-- The guest did not get to its end. -/
def failed : (a : Await) → a.Outcome → Bool
  | .instantiate_p3, .ok () => false
  | .instantiate_p2, .ok () => false
  | .run_p3, .ok (.ok _) => false
  | .run_p2, .ok _ => false
  | _, _ => true

/-- The await is that of an instantiation. -/
def instantiates : Await → Bool
  | .instantiate_p3 | .instantiate_p2 => true
  | .run_p3 | .run_p2 => false

end Await

/-- How far the guest gets: to the next epoch, or to the end of what is awaited. -/
inductive Progress (α : Type) where
  | epoch
  | ended (outcome : α)

/-- How the guest ended what was awaited: the callback interrupted it, it failed otherwise, or it
got to its end. -/
inductive Ending where
  | interrupted | failed | returned
  deriving DecidableEq, Repr

/-- What the outside answers at some moment. -/
structure Outside where
  tier : PackageTier
  prepare : Except Error WasiProfile
  set_fuel : Except String Unit
  linker : WasiProfile → Except Error Unit
  guest : (a : Await) → Progress a.Outcome
  interrupt : (a : Await) → a.Outcome
  interrupt_failed : ∀ a : Await, a.failed (interrupt a) = true
  stdout : Bytes
  stderr : Bytes

/-! ## The effects

Everything outside the crate is an `Outside`: what the memory cache and the compiler answer, how far
the guest gets, what it has printed. Nothing is assumed of it but that a guest which the callback
interrupts does not return (`interrupt_failed`). The store, the WASI context and the limits are
handed to the guest and not read again, and are left out. -/

/-- What a task, or a thread that calls a method of its handle, asks for. -/
inductive InvokeOp where
  | command (op : CommandOp)
  | load_timed_out
  | store_timed_out
  | tier
  | prepare
  | set_fuel
  | linker (profile : WasiProfile)
  /-- The guest is executed to its next epoch. -/
  | guest (a : Await)
  /-- The callback gives its decision to the store. -/
  | update_deadline (decision : Bool × UpdateDeadline)
  /-- The store unwinds the guest. -/
  | interrupt (a : Await)
  | stdout
  | stderr
  | demote
  /-- The task returns. -/
  | complete (output : Except Error CommandOutput)

/-- The answers. -/
@[reducible]
def InvokeOp.Answer : InvokeOp → Type
  | .command op => op.Answer
  | .load_timed_out => Bool
  | .tier => PackageTier
  | .prepare => Except Error WasiProfile
  | .set_fuel => Except String Unit
  | .linker _ => Except Error Unit
  | .guest a => Progress a.Outcome
  | .interrupt a => a.Outcome
  | .stdout | .stderr => Bytes
  | .store_timed_out | .update_deadline _ | .demote | .complete _ => Unit

/-- A program of a task or of a caller. -/
abbrev InvokeM (α : Type) : Type := Prog InvokeOp InvokeOp.Answer α

/-- One that returns a `Result`. -/
abbrev InvokeF (α : Type) : Type := Fallible InvokeOp InvokeOp.Answer Error α

/-- One effect. -/
def act (op : InvokeOp) : InvokeM op.Answer := perform op

/-- A method of the tokens. -/
def on_tokens {α : Type} (p : TokenM α) : InvokeM α :=
  p.lift (fun op => .command (.token op)) fun _ r => r

/-- `Instant::now()`. -/
def now : InvokeM ℕ := on_tokens (ask .now)

/-- `started.elapsed()`. -/
def elapsed (started : ℕ) : InvokeM ℕ := on_tokens (PauseToken.elapsed started)

/-! ## The task

What comes after an await differs from point to point, above all in what becomes of an error. The
four are `Guest`, and `Guest.ended` is the text between an await and the next. -/

/-- The locals of `run_controlled` and `invoke` while the guest is executed. -/
structure Running where
  profile : WasiProfile
  total_started : ℕ
  prepared_from : PackageTier
  prepare : ℕ
  /-- `invocation_started` and `pause_baseline`. -/
  start : ℕ × ℕ
  timeout : ℕ
  resident_ttl : ℕ
  instantiate_started : ℕ
  deriving DecidableEq, Repr

/-- Those that are there once it has been instantiated. -/
structure Executing where
  instantiate : ℕ
  execute_started : ℕ
  execute_pause_baseline : ℕ
  deriving DecidableEq, Repr

/-- The guest at one of the awaits. -/
inductive Guest where
  | instantiate_p3 (c : Running)
  | run_p3 (c : Running) (x : Executing)
  | instantiate_p2 (c : Running)
  | run_p2 (c : Running) (x : Executing)
  deriving DecidableEq, Repr

/-- The await. -/
@[reducible]
def Guest.await : Guest → Await
  | .instantiate_p3 _ => .instantiate_p3
  | .run_p3 _ _ => .run_p3
  | .instantiate_p2 _ => .instantiate_p2
  | .run_p2 _ _ => .run_p2

/-- What the callback has captured. -/
def Guest.running : Guest → Running
  | .instantiate_p3 c | .run_p3 c _ | .instantiate_p2 c | .run_p2 c _ => c

/-- The heads of the blocks: the guest is executed, or it is suspended in `wait`. -/
inductive InvokeBlock where
  | guest (g : Guest)
  | wait (g : Guest) (block : Block)
  deriving DecidableEq, Repr

/-- A block, which ends with the next one. -/
abbrev InvokeBlockM : Type := InvokeM (Option InvokeBlock)

def map_execution_error (message : String) : InvokeM Error := do
  if ← on_tokens PauseToken.is_evicted then pure .IdleEvicted
  else if ← act .load_timed_out then pure .Timeout
  else if ← on_tokens CancellationToken.is_cancelled then pure .Cancelled
  else pure (.Execution message)

/-- `matches!(output, Err(Error::IdleEvicted))`. -/
def idle_evicted : Except Error CommandOutput → Bool
  | .error .IdleEvicted => true
  | _ => false

/-- The end of the task that `Program::start` spawns. -/
def finish (output : Except Error CommandOutput) : InvokeBlockM := do
  if idle_evicted output then act .demote
  act (.complete output)
  pure none

namespace Guest

/-- `invoke` after the instantiation. -/
def instantiated (c : Running) : InvokeM Executing := do
  let instantiate ← elapsed c.instantiate_started
  let execute_started ← now
  let execute_pause_baseline ← on_tokens PauseToken.total_paused
  pure ⟨instantiate, execute_started, execute_pause_baseline⟩

/-- `invoke` after the guest has returned, and `run_controlled` after that. -/
def returned (c : Running) (x : Executing) (result : Except Unit Unit) : InvokeBlockM := do
  let execute ← elapsed x.execute_started
  let total_paused ← on_tokens PauseToken.total_paused
  let suspended := total_paused - x.execute_pause_baseline
  let stdout ← act .stdout
  let stderr ← act .stderr
  let total ← elapsed c.total_started
  finish (.ok {
    stdout, stderr
    exit_code := if result.isOk then 0 else 1
    wasi_version := c.profile.version
    measurement := {
      prepared_from := c.prepared_from
      retained_as := .Warm
      wasi_version := c.profile.version
      phases := {
        prepare := c.prepare
        instantiate := x.instantiate
        execute, suspended
        active_execute := execute - suspended
        total } } })

/-- `map_err(|error| map_execution_error(..))?`. -/
def execution_failed (message : String) : InvokeBlockM := do
  let e ← map_execution_error message
  finish (.error e)

/-- What comes after an await. -/
def ended : (g : Guest) → g.await.Outcome → InvokeBlockM
  | .instantiate_p3 _, .error message => finish (.error (.Execution message))
  | .instantiate_p3 c, .ok () => do
      let x ← instantiated c
      pure (some (.guest (.run_p3 c x)))
  | .run_p3 _ _, .error message => execution_failed message
  | .run_p3 _ _, .ok (.error message) => execution_failed message
  | .run_p3 c x, .ok (.ok result) => returned c x result
  | .instantiate_p2 _, .error message => finish (.error (.Execution message))
  | .instantiate_p2 c, .ok () => do
      let x ← instantiated c
      pure (some (.guest (.run_p2 c x)))
  | .run_p2 _ _, .error message => execution_failed message
  | .run_p2 c x, .ok result => returned c x result

/-- `callback_timed_out.store(true, ..)`, where the callback finds that the time is over. -/
def record_timeout (decision : Bool × UpdateDeadline) : InvokeM (Bool × UpdateDeadline) := do
  if decision.1 then act .store_timed_out
  pure decision

/-- The callback of `epoch_deadline_callback`. -/
def callback (g : Guest) : InvokeM (Bool × UpdateDeadline) := do
  let decision ← on_tokens (epoch_callback g.running.start g.running.timeout)
  record_timeout decision

/-- The store does what the callback says. -/
def obey (g : Guest) (decision : Bool × UpdateDeadline) : InvokeBlockM := do
  act (.update_deadline decision)
  match decision.2 with
  | .Interrupt => do
      let outcome ← act (.interrupt g.await)
      g.ended outcome
  | .YieldCustom => pure (some (.wait g .wait))
  | .Yield => pure (some (.guest g))

/-- The store at an epoch. -/
def at_epoch (g : Guest) : InvokeBlockM := do
  let decision ← g.callback
  g.obey decision

/-- The guest is executed. -/
def execute (g : Guest) : InvokeBlockM := do
  match ← act (.guest g.await) with
  | .epoch => g.at_epoch
  | .ended outcome => g.ended outcome

/-- After a stretch of `wait`: the next one, or the guest again. -/
def waited (g : Guest) : Option Block → InvokeBlockM
  | some block => pure (some (.wait g block))
  | none => pure (some (.guest g))

/-- The guest is suspended. -/
def suspend (g : Guest) (block : Block) : InvokeBlockM := do
  let next ← on_tokens (block.body g.running.resident_ttl)
  g.waited next

end Guest

/-- The text of a block. -/
def InvokeBlock.body : InvokeBlock → InvokeBlockM
  | .guest g => g.execute
  | .wait g block => g.suspend block

namespace Command

variable (self : Command)

/-- `RuntimeInner::invoke` up to its first await; nothing is returned by the arm that is marked
as `unreachable!`. -/
def invoke (profile : WasiProfile) (total_started : ℕ) (prepared_from : PackageTier)
    (prepare : ℕ) : InvokeF (Option Guest) := do
  Fallible.orElse Error.Configuration (act .set_fuel)
  let start ← Fallible.run (on_tokens invocation_start)
  let instantiate_started ← Fallible.run now
  let running : Running := {
    profile, total_started, prepared_from, prepare, start
    timeout := self.input.timeout
    resident_ttl := self.paused_resident_ttl
    instantiate_started }
  match profile with
  | .Cli0_3 => do
      Fallible.orElse id (act (.linker .Cli0_3))
      pure (some (.instantiate_p3 running))
  | .Cli0_2 => do
      Fallible.orElse id (act (.linker .Cli0_2))
      pure (some (.instantiate_p2 running))
  | .Http0_3 | .Http0_2 => pure none

/-- `Program::run_controlled` up to the first await of `invoke`. -/
def run_controlled : InvokeF (Option Guest) := do
  Fallible.reject (decide (self.input.stdin.length > self.max_input_bytes)) (.Limit "input bytes")
  Fallible.reject
    (decide (self.input.timeout = 0) || decide (self.input.timeout > self.max_timeout))
    (.Limit "timeout")
  let cancelled ← Fallible.run (on_tokens CancellationToken.is_cancelled)
  Fallible.reject cancelled .Cancelled
  let total_started ← Fallible.run now
  let prepared_from ← Fallible.run (act .tier)
  let prepare_started ← Fallible.run now
  let profile ← Fallible.orElse id (act .prepare)
  let prepare ← Fallible.run (elapsed prepare_started)
  Fallible.reject (!profile.is_command)
    (.UnsupportedComponent "HTTP components must be invoked through Program::http_service")
  self.invoke profile total_started prepared_from prepare

/-- The task that `Program::start` spawns. -/
def start : InvokeBlockM := do
  match ← self.run_controlled with
  | .ok (some g) => pure (some (.guest g))
  | .ok none => pure none
  | .error e => finish (.error e)

end Command

/-- The calls that a thread makes on a handle, one after the other. -/
def perform_calls : List CommandCall → InvokeBlockM
  | [] => pure none
  | c :: rest => do
      c.program.lift InvokeOp.command fun _ r => r
      perform_calls rest

/-! ## What an operation does

A command sees its own pause token, the caller's cancellation token, the clock and its record. -/

/-- `PauseState`, with the thread that holds the mutex. -/
structure PauseState (κ : Type) where
  paused : Bool
  resident : Bool
  evicted : Bool
  timing : PauseTiming
  timing_lock : Option κ
  notify : ℕ
  deriving DecidableEq, Repr

structure CancellationState where
  cancelled : Bool
  notify : ℕ
  deriving DecidableEq, Repr

/-- The clock and the source of randomness. -/
structure Clock where
  now : ℕ
  random : Fin 3
  deriving DecidableEq, Repr

/-- What else there is of a command: `timed_out`, the package's entry in the memory cache, what
its task has returned, and a history, which no operation reads, of what the callback decided and
of how the guest ended what was awaited last. -/
structure Record where
  timed_out : Bool
  demoted : Bool
  output : Option (Except Error CommandOutput)
  decisions : List (Bool × UpdateDeadline)
  ended : Option (Await × Ending)
  deriving DecidableEq

/-- What the operations on one command read and write. -/
structure Local (κ : Type) where
  pause : PauseState κ
  cancellation : CancellationState
  clock : Clock
  record : Record

section Operations

variable {κ : Type}

/-- The two tokens. -/
def Local.tokens (l : Local κ) : Tokens κ where
  paused := l.pause.paused
  resident := l.pause.resident
  evicted := l.pause.evicted
  cancelled := l.cancellation.cancelled
  timing := l.pause.timing
  timing_lock := l.pause.timing_lock
  notify := l.pause.notify
  cancel_notify := l.cancellation.notify
  now := l.clock.now
  random := l.clock.random

/-- The command after an operation on the tokens. -/
def Local.with_tokens (l : Local κ) (t : Tokens κ) : Local κ where
  pause := ⟨t.paused, t.resident, t.evicted, t.timing, t.timing_lock, t.notify⟩
  cancellation := ⟨t.cancelled, t.cancel_notify⟩
  clock := l.clock
  record := l.record

/-- The history when the guest has been executed. -/
def Record.executed (record : Record) (a : Await) : Progress a.Outcome → Record
  | .epoch => record
  | .ended outcome =>
    { record with ended := some (a, if a.failed outcome then .failed else .returned) }

/-- What an operation of thread `me` answers and leaves behind. -/
def InvokeOp.run (w : Outside) (me : κ) (l : Local κ) : (op : InvokeOp) → op.Answer × Local κ
  | .command (.token op) => ((op.run me l.tokens).1, l.with_tokens (op.run me l.tokens).2)
  | .command .load_resident => (l.pause.resident, l)
  | .command .is_finished => (l.record.output.isSome, l)
  | .load_timed_out => (l.record.timed_out, l)
  | .store_timed_out => ((), { l with record.timed_out := true })
  | .tier => (w.tier, l)
  | .prepare => (w.prepare, l)
  | .set_fuel => (w.set_fuel, l)
  | .linker profile => (w.linker profile, l)
  | .guest a => (w.guest a, { l with record := l.record.executed a (w.guest a) })
  | .update_deadline decision =>
    ((), { l with record.decisions := l.record.decisions ++ [decision] })
  | .interrupt a => (w.interrupt a, { l with record.ended := some (a, .interrupted) })
  | .stdout => (w.stdout, l)
  | .stderr => (w.stderr, l)
  | .demote => ((), { l with record.demoted := true })
  | .complete output => ((), { l with record.output := some output })

/-- The mutex is taken when nobody holds it; nothing else waits. -/
def InvokeOp.enabled (l : Local κ) : InvokeOp → Bool
  | .command (.token .lock_timing) => l.pause.timing_lock.isNone
  | _ => true

/-- The operation with which `evict` begins. -/
def InvokeOp.evicts : InvokeOp → Bool
  | .command (.token .store_evicted) => true
  | _ => false

end Operations

/-! ## Commands that share tokens

Each command has a pause token of its own, but the cancellation token is the caller's, and clones of
one may be in the inputs of several commands. `Commands` says which. The tasks, and any number of
threads that call the methods of their handles, interleave at the granularity of single operations
as a schedule says, which also moves the clock on and chooses what the outside answers. A run is
thus a function of its schedule, so that two runs of one schedule can be compared: `spared` names
the command whose eviction does not take place in the second, which stays suspended instead. -/

/-- Commands, and the token in the input of each. -/
structure Commands (ι τ : Type) where
  command : ι → Command
  token : ι → τ

/-- The threads: the task of a command, and the callers of its handle. -/
inductive Thread (ι : Type) where
  | task (i : ι)
  | caller (i : ι) (k : ℕ)
  deriving DecidableEq, Repr

/-- The command that the thread is about. -/
def Thread.owner {ι : Type} : Thread ι → ι
  | .task i | .caller i _ => i

/-- The state of all commands. -/
structure System (ι τ : Type) where
  pause : ι → PauseState (Thread ι)
  record : ι → Record
  cancellation : τ → CancellationState
  clock : Clock

/-- The threads over it. -/
abbrev Machine (ι τ : Type) : Type :=
  Tasks (Thread ι) (System ι τ) InvokeOp InvokeOp.Answer InvokeBlock

/-- One event of a schedule: a thread makes its next move, or the clock moves on. -/
inductive Event (ι : Type) where
  | thread (who : Thread ι) (w : Outside)
  | clock (now : ℕ) (random : Fin 3)

section Commands

variable {ι τ : Type} [DecidableEq ι] [DecidableEq τ] (F : Commands ι τ)

namespace System

/-- What the operations on command `i` see of the state. -/
def view (s : System ι τ) (i : ι) : Local (Thread ι) where
  pause := s.pause i
  cancellation := s.cancellation (F.token i)
  clock := s.clock
  record := s.record i

/-- The state after an operation on command `i`. -/
def put (s : System ι τ) (i : ι) (l : Local (Thread ι)) : System ι τ where
  pause := update s.pause i l.pause
  record := update s.record i l.record
  cancellation := update s.cancellation (F.token i) l.cancellation
  clock := s.clock

/-- `PauseToken::new` for every command, and tokens that nobody has cancelled. -/
def new : System ι τ where
  pause _ := ⟨false, false, false, ⟨0, none⟩, none, 0⟩
  record _ := ⟨false, false, none, [], none⟩
  cancellation _ := ⟨false, 0⟩
  clock := ⟨0, firstBranch⟩

end System

namespace Machine

/-- All commands are started; thread `k` on handle `i` makes the calls `calls i k`. -/
def start (calls : ι → ℕ → List CommandCall) : Machine ι τ where
  state := .new
  threads
    | .task i => (F.command i).start
    | .caller i k => perform_calls (calls i k)

/-- A thread does not perform its next operation: the mutex is not free, or it is the spared
command that comes to its eviction. -/
def stays (spared : Option ι) (who : Thread ι) (s : System ι τ) (op : InvokeOp) : Bool :=
  !op.enabled (s.view F who.owner) || (decide (spared = some who.owner) && op.evicts)

/-- The next move of a thread. -/
def move (spared : Option ι) (who : Thread ι) (w : Outside) (T : Machine ι τ) : Machine ι τ :=
  match T.threads who with
  | .vis op k =>
    if stays F spared who T.state op then T
    else
      let after := op.run w who (T.state.view F who.owner)
      ⟨T.state.put F who.owner after.2, update T.threads who (k after.1)⟩
  | .ret (some block) => ⟨T.state, update T.threads who block.body⟩
  | .ret none => T

/-- One event. The clock is monotone. -/
def step (spared : Option ι) (T : Machine ι τ) : Event ι → Machine ι τ
  | .thread who w => move F spared who w T
  | .clock now random =>
    ⟨{ T.state with clock := ⟨max T.state.clock.now now, random⟩ }, T.threads⟩

/-- The run of a schedule. -/
def run (spared : Option ι) (calls : ι → ℕ → List CommandCall) (schedule : List (Event ι)) :
    Machine ι τ := schedule.foldl (step F spared) (start F calls)

theorem run_append (spared : Option ι) (calls : ι → ℕ → List CommandCall)
    (schedule later : List (Event ι)) :
    run F spared calls (schedule ++ later)
      = later.foldl (step F spared) (run F spared calls schedule) := by
  unfold run
  rw [List.foldl_append]

end Machine

end Commands

end Invoke

end WasmRuntime
