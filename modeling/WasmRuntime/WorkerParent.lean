/-
`wasix_worker.rs`, the parent: the four operations from the caller's arguments to the outcome the
caller gets.

Each operation pins the worker's executable, prepares its sealed inputs, spawns the worker, has it
placed, reads its Ready frame, hands over the inputs, reads the acknowledgement, authorizes the
execution, and reads the output.

A `WouldBlock` from the control socket is tried again for as long as it takes. A program here has no
infinite branch, so `patience` bounds the number of attempts, and a program out of patience asks for
an effect that is never answered: its run has not ended. Every result holds for every patience. A
panic is the same.
-/
import WasmRuntime.SealedInput
import WasmRuntime.WorkerTranscript

set_option autoImplicit false

namespace WasmRuntime.Worker

open ByteCodec Prog Checkpoint

/-! ## Effects

An operation is one program over one set of effects. Those of the sealed inputs and of the output
pipe come with their programs (`input`, `piped`); the others are the process, the placement policy,
the control socket and the clock.

A `tokio::time::timeout` and the branches of a `select!` drop the future they race, which can happen
wherever that future waits: `interruptedBy` asks before each effect whether it does. -/

inductive WasixWorkerOperation where
  | Probe
  | CheckpointTransport
  | CheckpointRestore
  | CheckpointCapture
  deriving DecidableEq, Repr

structure PinnedWorkerExecutable where
  descriptor : Fd
  path : String
  sha256 : String

/-- A `Command` of `PinnedWorkerExecutable::command`: what will be executed, and its one
argument. -/
structure Command where
  executable : PinnedWorkerExecutable
  argument : String

/-- What comes of calling the placement policy under `catch_unwind`. -/
inductive PlacementOutcome where
  | placed
  | rejected (error : Error)
  | panicked

/-- What comes of waiting for a preparation. -/
inductive Joined where
  | finished
  | failed (error : String)
  | elapsed

/-- What comes of one `sendmsg`. -/
inductive Sending where
  | sent (bytes : ℕ)
  | would_block
  | failed (error : String)

/-- Why a future is dropped: the caller dropped the operation, the caller's token was
cancelled, or so much time has passed. -/
inductive Cause where
  | dropped
  | cancelled
  | timeout (limit : ℕ)

/-- What the parent does. `pin` is `PinnedWorkerExecutable::open`, `join` the wait for a
preparation, `wait_briefly` a wait of 100 ms for the worker's exit, `spawn_reaper` the task that
waits for a worker and disarms its handle, `join_diagnostics` and `join_supervisor` the ends of
the two other tasks. `abort` is what a panic comes to. -/
inductive ParentOp where
  | input (op : InputOp)
  | output (op : OutputOp)
  | pin (path : String)
  | dup (descriptor : Fd)
  | now
  | join (timeout : ℕ)
  | socketpair
  | set_nonblocking
  | register
  | spawn (command : Command)
  | place (process_id : UInt32) (operation : WasixWorkerOperation)
  | take_stdout
  | take_stderr
  | writable
  | sendmsg (file : Fd) (marker : UInt8)
  | write_control (bytes : Bytes)
  | shutdown_control
  | drop_control
  | poll (cause : Cause)
  | active
  | start_kill
  | try_wait
  | wait_briefly
  | spawn_reaper
  | join_diagnostics
  | join_supervisor
  | abort

/-- What each effect is answered with. A spawned child has an identifier, or none if it has
been waited for. -/
@[reducible] def ParentAnswer : ParentOp → Type
  | .input op => InputAnswer op
  | .output op => OutputAnswer op
  | .pin _ => Except Error PinnedWorkerExecutable
  | .dup _ => Except String Unit
  | .now => ℕ
  | .join _ => Joined
  | .socketpair => Except String Unit
  | .set_nonblocking => Except String Unit
  | .register => Except String Unit
  | .spawn _ => Except String (Option UInt32)
  | .place _ _ => PlacementOutcome
  | .take_stdout => Bool
  | .take_stderr => Bool
  | .writable => Except String Unit
  | .sendmsg _ _ => Sending
  | .write_control _ => Except String Unit
  | .shutdown_control => Except String Unit
  | .drop_control => Unit
  | .poll _ => Bool
  | .active => Bool
  | .start_kill => Except String Unit
  | .try_wait => Except String (Option ExitStatus)
  | .wait_briefly => Option (Except String ExitStatus)
  | .spawn_reaper => Unit
  | .join_diagnostics => Option WasixWorkerDiagnostics
  | .join_supervisor => Except String Unit
  | .abort => Empty

/-- A program of the parent that cannot fail. -/
abbrev ParentProg := Prog ParentOp ParentAnswer

/-- A program of the parent that may fail with an `ε`. -/
abbrev ParentM (ε : Type) := Fallible ParentOp ParentAnswer ε

/-- One call, and its answer. -/
def act (op : ParentOp) : ParentProg (ParentAnswer op) := perform op

/-- `result.map_err(|error| Error::Execution(format!("{message}{error}")))?`. -/
def or_execution {α : Type} (message : String) (call : ParentProg (Except String α)) :
    ParentM Error α := Fallible.orElse (fun error => .Execution (message ++ error)) call

/-- A program of the sealed inputs, as a part of the parent's. -/
def input {α : Type} (p : Prog InputOp InputAnswer α) : ParentProg α :=
  p.lift .input fun _ answer => answer

/-- A program of the output pipe, as a part of the parent's. -/
def piped {α : Type} (p : Prog OutputOp OutputAnswer α) : ParentProg α :=
  p.lift .output fun _ answer => answer

/-- A computation without effects. A panic is not answered. -/
def compute {ε α : Type} : Exec ε α → ParentM ε α
  | .ok v => .ret (.ok v)
  | .err e => .ret (.error e)
  | .panic | .div => .vis .abort fun answer => answer.elim

/-- The future `p`, raced against `cause`. Irreducible, so that a goal about a long program is not
unfolded through it. -/
@[irreducible] def interruptedBy {ε α : Type} (cause : Cause) (error : ε) (p : ParentM ε α) :
    ParentM ε α :=
  Prog.bind (Prog.interruptible (.poll cause) (fun stop => stop) p) fun
    | some outcome => .ret outcome
    | none => .ret (.error error)

/-! ## The executable

It is opened and judged before anything is spawned. -/

/-- `WasixWorkerConfig::pin_executable`. -/
def WasixWorkerConfig.pin_executable (self : WasixWorkerConfig) :
    ParentM Error PinnedWorkerExecutable := do
  compute self.validate_common
  Fallible.orElse id (act (.pin self.executable))

/-- `PinnedWorkerExecutable::command`. -/
def PinnedWorkerExecutable.command (self : PinnedWorkerExecutable) (operation : String) :
    ParentM Error Command := do
  or_execution "cannot duplicate pinned WASIX worker: " (act (.dup self.descriptor))
  Fallible.reject ((utf8 self.path).contains 0)
    (.Configuration "WASIX worker path contains a NUL byte")
  Fallible.reject ((utf8 operation).contains 0)
    (.Configuration "WASIX worker operation contains a NUL byte")
  pure ⟨self, operation⟩

/-! ## The worker's process

The methods of the handle are effects, so that what a drop does is part of the program and comes
where the source drops it. -/

/-- `WorkerProcess`, without the child and the flag `active`: calls of the one and reads of the
other are effects. -/
structure WorkerProcess where
  process_id : UInt32
  worker_build_sha256 : String

/-- `impl Drop for WorkerProcess`. -/
def drop_worker : ParentProg Unit := do
  act (.output .kill_tree)
  let active ← act .active
  if active then
    let _ ← act .start_kill
    pure ()

/-- Why `spawn_wasix_worker` gives a worker up that was to be placed. -/
def PlacementOutcome.rejection (W : Env) : PlacementOutcome → Option String
  | .placed => none
  | .rejected error =>
    some ("WASIX worker placement rejected the process: " ++ W.display_error error)
  | .panicked => some "WASIX worker placement policy panicked"

/-- The part of `spawn_wasix_worker` that asks the placement policy. -/
def place_worker (W : Env) (config : WasixWorkerConfig) (operation : WasixWorkerOperation)
    (process_id : UInt32) : ParentM Error Unit :=
  if config.placement then do
    let outcome ← Fallible.run (act (.place process_id operation))
    match outcome.rejection W with
    | none => pure ()
    | some rejection => do
        Fallible.run (act (.output .kill_tree))
        let _ ← Fallible.run (act .start_kill)
        let _ ← Fallible.run (act (.output .wait))
        Fallible.run (act (.output .disarm))
        Fallible.throw (.Execution rejection)
  else pure ()

def spawn_wasix_worker (W : Env) (config : WasixWorkerConfig) (operation : WasixWorkerOperation)
    (command : Command) (worker_build_sha256 : String) : ParentM Error WorkerProcess := do
  let id ← or_execution ("failed to spawn WASIX worker " ++ config.executable ++ ": ")
    (act (.spawn command))
  let process_id ← Fallible.ok_or
    (.Execution "WASIX worker did not expose a process identifier") id
  place_worker W config operation process_id
  pure ⟨process_id, worker_build_sha256⟩

def spawn_worker_reaper : ParentProg Unit := do
  act (.output .kill_tree)
  let _ ← act .start_kill
  act .spawn_reaper

/-- `worker.child.stdout.take().ok_or_else(..)?`, and the same of stderr. An operation that
fails here drops its worker. -/
def take_pipe (pipe : ParentProg Bool) (message : String) : ParentM Error Unit := do
  let taken ← Fallible.run pipe
  if taken then pure ()
  else do
    Fallible.run drop_worker
    Fallible.throw (.Execution message)

/-! ## The control socket

A pair: one end is the worker's standard input. -/

def checkpoint_control_channel : ParentM Error Unit := do
  or_execution "failed to create checkpoint descriptor channel: " (act .socketpair)
  or_execution "failed to configure checkpoint descriptor channel: " (act .set_nonblocking)
  or_execution "failed to register checkpoint descriptor channel: " (act .register)

/-- `send_checkpoint_descriptor`, with `send_checkpoint_descriptor_once` in its loop. The
ancillary buffer has room for the one descriptor. -/
def send_checkpoint_descriptor : ℕ → Fd → UInt8 → ParentM Error Unit
  | 0, _, _ => .vis .abort fun answer => answer.elim
  | patience + 1, file, marker => do
      or_execution "checkpoint descriptor channel was not writable: " (act .writable)
      let sending ← Fallible.run (act (.sendmsg file marker))
      match sending with
      | .sent bytes =>
        Fallible.reject (bytes != 1) (.Execution
          "failed to send checkpoint descriptor: checkpoint descriptor marker was not sent")
      | .would_block => send_checkpoint_descriptor patience file marker
      | .failed error =>
        Fallible.throw (.Execution ("failed to send checkpoint descriptor: " ++ error))

def write_control_frame (frame : Bytes) : ParentM Error Unit := do
  let length ← Fallible.ok_or (.Configuration "capture request length overflows u32")
    (Exec.tryFrom u32_max frame.length)
  or_execution "failed to send capture request: " (act (.write_control (be 4 length)))
  or_execution "failed to send capture request: " (act (.write_control frame))

/-! ## Preparing an input

In a blocking task, for as long as the timeout allows. -/

/-- `ModulePreparation::wait` and `CheckpointPreparation::wait`, once the blocking task has come
to its result. The wait ends with the task in every case: one that took too long is told to stop
by its flag, and then awaited. -/
def wait_preparation {α : Type} (label : String) (timeout : ℕ) (result : Except Error α) :
    ParentM Error α := do
  let joined ← Fallible.run (act (.join timeout))
  match joined with
  | .finished => .ret result
  | .failed error =>
    Fallible.throw (.Execution (label ++ " memfd preparation failed to join: " ++ error))
  | .elapsed => Fallible.throw .Timeout

/-- `ModulePreparation::new(module).wait(timeout)`. -/
def prepare_module (W : Env) (module : Bytes) (timeout : ℕ) :
    ParentM Error PreparedModuleInput := do
  let result ← Fallible.run (input (sealed_module_input W module))
  wait_preparation "module" timeout result

/-- `CheckpointPreparation::new(journal).wait(timeout)`. -/
def prepare_checkpoint (W : Env) (journal : Bytes) (timeout : ℕ) :
    ParentM Error PreparedCheckpointInput := do
  let result ← Fallible.run (input (sealed_checkpoint_input W journal))
  wait_preparation "checkpoint" timeout result

/-- The `select!` of a capture between the caller's token and the preparation. -/
def prepare_module_unless_cancelled (W : Env) (module : Bytes) (timeout : ℕ) :
    ParentM Error PreparedModuleInput := do
  let result ← Fallible.run (input (sealed_module_input W module))
  let cancelled ← Fallible.run (act (.poll .cancelled))
  Fallible.reject cancelled .Cancelled
  wait_preparation "module" timeout result

/-- `deadline.saturating_duration_since(Instant::now())`, which must not be zero. -/
def remaining_until (deadline : ℕ) : ParentM Error ℕ := do
  let now ← Fallible.run (act .now)
  Fallible.reject (deadline - now == 0) .Timeout
  pure (deadline - now)

/-! ## The Ready frame

The first frame, in all four operations. -/

/-- How each operation begins: the worker's report of itself, decoded and validated. What an
error of each step becomes is the operation's. -/
def accept_ready {ε : Type} (W : Env) (wrap : Error → ε) (process_id : UInt32)
    (expected_worker_build_sha256 : String) (allowed_supplementary_groups : List UInt32) :
    ParentM ε WasixWorkerMetadata := do
  let ready ← Fallible.orElse wrap (piped (read_frame W))
  let metadata ← Fallible.orElse
    (fun error => wrap (.Execution ("invalid WASIX worker ready frame: " ++ error)))
    (.ret (W.metadata_from_slice ready))
  compute (Exec.mapErr wrap (metadata.validate W process_id expected_worker_build_sha256
    allowed_supplementary_groups))
  pure metadata

/-! ## Outcomes

How a supervisor ends once its operation has. -/

/-- The end of `supervise_probe` and of `supervise_checkpoint_transport`: a worker whose
operation failed goes to a reaper, any other is dropped. -/
def reap_failed {α : Type} : Except Error α → ParentM Error α
  | .ok a => do
      Fallible.run drop_worker
      pure a
  | .error error => do
      let active ← Fallible.run (act .active)
      Fallible.run (if active then spawn_worker_reaper else drop_worker)
      Fallible.throw error

/-- `observe_failed_restore_worker_exit` and `observe_failed_worker_exit`, which are the
same. -/
def observe_failed_worker_exit : ParentProg (Option ExitStatus) := do
  let tried ← act .try_wait
  match tried with
  | .ok (some status) => pure (some status)
  | _ =>
    let waited ← act .wait_briefly
    pure (waited.bind Except.toOption)

/-- What `supervise_checkpoint_restore` and `supervise_checkpoint_capture` do with the worker
of a failed operation while its handle is armed. -/
def kill_worker (observed : Option ExitStatus) : ParentProg Unit := do
  act (.output .kill_tree)
  if observed.isNone then
    let _ ← act .start_kill
    let _ ← act (.output .wait)
    act (.output .disarm)
  else act (.output .disarm)

/-- The same from the question whether it is armed; the exit status that was seen, if the
operation's error is one for which the source looks. -/
def contain_worker (observe : Bool) : ParentProg (Option ExitStatus) := do
  let active ← act .active
  if active then
    let observed ← (if observe then observe_failed_worker_exit else pure none)
    kill_worker observed
    pure observed
  else pure none

/-- The end of the task that reads the worker's diagnostics. -/
def diagnostics : ParentProg WasixWorkerDiagnostics := do
  let read ← act .join_diagnostics
  pure (read.getD ⟨[], true⟩)

/-- `wait` of the four supervisor handles: the outcome, unless the supervisor's task failed. -/
def supervised {α : Type} (label : String) (supervisor : ParentM Error α) : ParentM Error α := do
  let outcome ← Fallible.run supervisor
  or_execution (label ++ " supervisor failed: ") (act .join_supervisor)
  .ret outcome

/-! ## `probe_wasix_worker`

The Ready frame is all that is asked for. -/

def perform_handshake (W : Env) (worker : WorkerProcess)
    (allowed_supplementary_groups : List UInt32) : ParentM Error WasixWorkerMetadata := do
  let metadata ← accept_ready W id worker.process_id worker.worker_build_sha256
    allowed_supplementary_groups
  piped (finish_worker_output W "probe")
  pure metadata

def supervise_probe (W : Env) (worker : WorkerProcess) (handshake_timeout : ℕ)
    (allowed_supplementary_groups : List UInt32) : ParentM Error WasixWorkerMetadata :=
  Prog.bind (interruptedBy .dropped .Cancelled (interruptedBy (.timeout handshake_timeout) .Timeout
    (perform_handshake W worker allowed_supplementary_groups))) reap_failed

def probe_wasix_worker_linux (W : Env) (config : WasixWorkerConfig)
    (executable : PinnedWorkerExecutable) : ParentM Error WasixWorkerMetadata := do
  let command ← executable.command "--protocol-probe"
  let worker ← spawn_wasix_worker W config .Probe command executable.sha256
  take_pipe (act .take_stdout) "WASIX worker stdout was not piped"
  supervised "WASIX worker" (supervise_probe W worker config.handshake_timeout
    config.allowed_supplementary_groups)

def probe_wasix_worker (W : Env) (config : WasixWorkerConfig) :
    ParentM Error WasixWorkerMetadata := do
  compute config.validate_common
  let executable ← config.pin_executable
  probe_wasix_worker_linux W config executable

/-! ## `probe_wasix_checkpoint_transport`

The journal is handed over and acknowledged, and nothing is executed. -/

structure WasixCheckpointTransportMetadata where
  worker : WasixWorkerMetadata
  binding : WasixCheckpointBinding
  journal_bytes : ℕ
  journal_sha256 : String

structure ExpectedCheckpointTransport where
  binding : WasixCheckpointBinding
  journal_bytes : ℕ
  journal_sha256 : String

/-- `CheckpointTransportInput`. In this and in the other two inputs the socket and the files are
in `Option`s, to be dropped after their last use; until then they are there. -/
structure CheckpointTransportInput where
  file : Fd
  expected : ExpectedCheckpointTransport

def perform_checkpoint_transport (W : Env) (patience : ℕ) (worker : WorkerProcess)
    (allowed_supplementary_groups : List UInt32) (checkpoint : CheckpointTransportInput) :
    ParentM Error WasixCheckpointTransportMetadata := do
  let metadata ← accept_ready W id worker.process_id worker.worker_build_sha256
    allowed_supplementary_groups
  send_checkpoint_descriptor patience checkpoint.file 67
  Fallible.run (act .drop_control)
  let frame ← piped (read_frame W)
  let acknowledgement ← Fallible.orElse
    (fun error => .Execution ("invalid WASIX checkpoint acknowledgement: " ++ error))
    (.ret (W.transport_ack_from_slice frame))
  compute (acknowledgement.validate checkpoint.expected.journal_bytes
    checkpoint.expected.journal_sha256)
  piped (finish_worker_output W "checkpoint transport")
  pure ⟨metadata, checkpoint.expected.binding, acknowledgement.journal_bytes,
    acknowledgement.journal_sha256⟩

def supervise_checkpoint_transport (W : Env) (patience : ℕ) (worker : WorkerProcess)
    (handshake_timeout : ℕ) (allowed_supplementary_groups : List UInt32)
    (checkpoint : CheckpointTransportInput) : ParentM Error WasixCheckpointTransportMetadata :=
  Prog.bind (interruptedBy .dropped .Cancelled (interruptedBy (.timeout handshake_timeout) .Timeout
    (perform_checkpoint_transport W patience worker allowed_supplementary_groups checkpoint)))
    reap_failed

def probe_wasix_checkpoint_transport_linux (W : Env) (patience : ℕ) (config : WasixWorkerConfig)
    (executable : PinnedWorkerExecutable) (checkpoint : VerifiedWasixCheckpoint) :
    ParentM Error WasixCheckpointTransportMetadata := do
  let (journal, checkpoint_worker_build_sha256) ← compute checkpoint.into_parts
  Fallible.reject (executable.sha256 != checkpoint_worker_build_sha256) (.Checkpoint
    "transport worker build does not match the authenticated source worker")
  Fallible.reject (journal.isEmpty || decide (journal.length > WASIX_WORKER_MAX_CHECKPOINT_BYTES))
    (.Checkpoint "verified checkpoint journal exceeds the worker transport limit")
  let now ← Fallible.run (act .now)
  let prepared ← prepare_checkpoint W journal config.handshake_timeout
  let remaining ← remaining_until (now + config.handshake_timeout)
  checkpoint_control_channel
  let command ← executable.command "--checkpoint-transport-probe"
  let worker ← spawn_wasix_worker W config .CheckpointTransport command executable.sha256
  take_pipe (act .take_stdout) "WASIX worker stdout was not piped"
  supervised "WASIX checkpoint transport" (supervise_checkpoint_transport W patience worker
    remaining config.allowed_supplementary_groups
    ⟨prepared.file, checkpoint.binding, prepared.journal_bytes, prepared.journal_sha256⟩)

def probe_wasix_checkpoint_transport (W : Env) (patience : ℕ) (config : WasixWorkerConfig)
    (checkpoint : VerifiedWasixCheckpoint) : ParentM Error WasixCheckpointTransportMetadata := do
  compute config.validate_common
  let executable ← config.pin_executable
  probe_wasix_checkpoint_transport_linux W patience config executable checkpoint

/-! ## `restore_wasix_checkpoint`

Module and journal, then the authorization and three frames of output. -/

structure WasixCheckpointRestoreMetadata where
  worker : WasixWorkerMetadata
  binding : WasixCheckpointBinding
  stdout : Bytes
  stderr : Bytes
  worker_diagnostics : WasixWorkerDiagnostics
  module_sha256 : String
  journal_sha256 : String

structure ExpectedCheckpointRestore where
  binding : WasixCheckpointBinding
  module_bytes : ℕ
  module_sha256 : String
  journal_bytes : ℕ
  journal_sha256 : String

structure CheckpointRestoreInput where
  module : Fd
  journal : Fd
  expected : ExpectedCheckpointRestore

/-- How a restore and a capture authorize the execution: the byte `E`, and the end. -/
def authorize {ε : Type} (authorization_failure : ε) : ParentM ε Unit := do
  Fallible.orElse (fun _ => authorization_failure) (act (.write_control [69]))
  Fallible.orElse (fun _ => authorization_failure) (act .shutdown_control)

def prepare_checkpoint_restore (W : Env) (patience : ℕ) (process_id : UInt32)
    (expected_worker_build_sha256 : String) (allowed_supplementary_groups : List UInt32)
    (checkpoint : CheckpointRestoreInput) :
    ParentM RestoreOperationFailure (WasixWorkerMetadata × WasixCheckpointRestoreAck) := do
  let metadata ← accept_ready W (fun _ => .protocol .Ready) process_id
    expected_worker_build_sha256 allowed_supplementary_groups
  let input_failure : RestoreOperationFailure := .protocol .Input
  Fallible.orElse (fun _ => input_failure)
    (send_checkpoint_descriptor patience checkpoint.module 77)
  Fallible.orElse (fun _ => input_failure)
    (send_checkpoint_descriptor patience checkpoint.journal 67)
  let frame ← Fallible.orElse (fun _ => input_failure) (piped (read_frame W))
  let acknowledgement ← Fallible.orElse (fun _ => input_failure)
    (.ret (W.restore_ack_from_slice frame))
  compute (Exec.mapErr (fun _ => input_failure) (acknowledgement.validate
    checkpoint.expected.module_bytes checkpoint.expected.module_sha256
    checkpoint.expected.journal_bytes checkpoint.expected.journal_sha256))
  authorize (.protocol .Authorization)
  pure (metadata, acknowledgement)

def perform_checkpoint_restore (W : Env) (patience : ℕ) (worker : WorkerProcess)
    (allowed_supplementary_groups : List UInt32) (checkpoint : CheckpointRestoreInput) :
    ParentM RestoreOperationFailure WasixCheckpointRestoreMetadata := do
  let (metadata, acknowledgement) ← prepare_checkpoint_restore W patience worker.process_id
    worker.worker_build_sha256 allowed_supplementary_groups checkpoint
  Fallible.run (act .drop_control)
  let (restored_stdout, restored_stderr) ← piped (finish_checkpoint_restore W)
  pure {
    worker := metadata
    binding := checkpoint.expected.binding
    stdout := restored_stdout
    stderr := restored_stderr
    worker_diagnostics := ⟨[], false⟩
    module_sha256 := acknowledgement.module_sha256
    journal_sha256 := acknowledgement.journal_sha256 }

/-- The failure as `supervise_checkpoint_restore` first has it, without diagnostics. -/
def RestoreOperationFailure.to_error (failure : RestoreOperationFailure) : Error :=
  .CheckpointRestore ⟨failure.phase, failure.reason, ⟨[], false⟩, none, none⟩

/-- The error `supervise_checkpoint_restore` returns. -/
def restore_error (observed : Option ExitStatus) (diagnostics : WasixWorkerDiagnostics) :
    Error → Error
  | .CheckpointRestore failure =>
    .CheckpointRestore ⟨failure.phase, failure.reason, diagnostics,
      observed.bind ExitStatus.code, observed.bind ExitStatus.signal⟩
  | error => error

/-- The end of `supervise_checkpoint_restore`. -/
def conclude_restore : Except Error WasixCheckpointRestoreMetadata →
    ParentM Error WasixCheckpointRestoreMetadata
  | .ok metadata => do
      let worker_diagnostics ← Fallible.run diagnostics
      Fallible.run drop_worker
      pure { metadata with worker_diagnostics }
  | .error error => do
      let observed ← Fallible.run (contain_worker true)
      let worker_diagnostics ← Fallible.run diagnostics
      Fallible.run drop_worker
      Fallible.throw (restore_error observed worker_diagnostics error)

def supervise_checkpoint_restore (W : Env) (patience : ℕ) (worker : WorkerProcess)
    (handshake_timeout : ℕ) (allowed_supplementary_groups : List UInt32)
    (checkpoint : CheckpointRestoreInput) : ParentM Error WasixCheckpointRestoreMetadata :=
  Prog.bind (interruptedBy .dropped .Cancelled (interruptedBy (.timeout handshake_timeout) .Timeout
    (Fallible.orElse RestoreOperationFailure.to_error
      (perform_checkpoint_restore W patience worker allowed_supplementary_groups checkpoint))))
    conclude_restore

def restore_wasix_checkpoint_linux (W : Env) (patience : ℕ) (config : WasixWorkerConfig)
    (executable : PinnedWorkerExecutable) (checkpoint : VerifiedWasixCheckpoint)
    (module : Bytes) : ParentM Error WasixCheckpointRestoreMetadata := do
  Fallible.reject (checkpoint.binding.command != "_start") (.UnsupportedComponent
    ("WASIX checkpoint command " ++ W.debug checkpoint.binding.command
      ++ " cannot be restored; only \"_start\" is supported"))
  Fallible.reject (module.isEmpty || decide (module.length > WASIX_WORKER_MAX_MODULE_BYTES))
    (.Checkpoint "WASIX restore module exceeds the worker input limit")
  let (journal, checkpoint_worker_build_sha256) ← compute checkpoint.into_parts
  Fallible.reject (executable.sha256 != checkpoint_worker_build_sha256) (.Checkpoint
    "destination worker build does not match the authenticated source worker")
  Fallible.reject (journal.isEmpty || decide (journal.length > WASIX_WORKER_MAX_CHECKPOINT_BYTES))
    (.Checkpoint "verified checkpoint journal exceeds the worker restore limit")
  let now ← Fallible.run (act .now)
  let deadline := now + config.handshake_timeout
  let prepared_module ← prepare_module W module config.handshake_timeout
  Fallible.reject (prepared_module.sha256 != checkpoint.binding.module_sha256) (.Checkpoint
    "WASIX restore module does not match the authenticated checkpoint binding")
  let remaining ← remaining_until deadline
  let prepared_checkpoint ← prepare_checkpoint W journal remaining
  let remaining ← remaining_until deadline
  checkpoint_control_channel
  let command ← executable.command "--checkpoint-restore"
  let worker ← spawn_wasix_worker W config .CheckpointRestore command executable.sha256
  take_pipe (act .take_stdout) "WASIX restore worker stdout was not piped"
  take_pipe (act .take_stderr) "WASIX restore worker diagnostics were not piped"
  supervised "WASIX checkpoint restore" (supervise_checkpoint_restore W patience worker remaining
    config.allowed_supplementary_groups {
      module := prepared_module.file
      journal := prepared_checkpoint.file
      expected := {
        binding := checkpoint.binding
        module_bytes := prepared_module.bytes
        module_sha256 := prepared_module.sha256
        journal_bytes := prepared_checkpoint.journal_bytes
        journal_sha256 := prepared_checkpoint.journal_sha256 } })

def restore_wasix_checkpoint (W : Env) (patience : ℕ) (config : WasixWorkerConfig)
    (checkpoint : VerifiedWasixCheckpoint) (module : Bytes) :
    ParentM Error WasixCheckpointRestoreMetadata := do
  compute config.validate_common
  let executable ← config.pin_executable
  restore_wasix_checkpoint_linux W patience config executable checkpoint module

/-! ## `capture_wasix_checkpoint`

Module and request, then the authorization and four frames of output. -/

structure WasixCheckpointCapture where
  worker : WasixWorkerMetadata
  binding : WasixCheckpointBinding
  stdout : Bytes
  stderr : Bytes
  module_sha256 : String
  journal_sha256 : String
  journal : CapturedWasixJournal

structure ExpectedCheckpointCapture where
  binding : WasixCheckpointBinding
  module_bytes : ℕ
  module_sha256 : String
  request_bytes : ℕ
  request_sha256 : String

structure CheckpointCaptureInput where
  module : Fd
  request : Bytes
  expected : ExpectedCheckpointCapture

inductive CaptureOperationError where
  | Failure (failure : CaptureOperationFailure)
  | Timeout

/-- The comparison that `prepare_checkpoint_capture` makes in place of a `validate`. -/
def ExpectedCheckpointCapture.differs (self : ExpectedCheckpointCapture)
    (acknowledgement : WasixCheckpointCaptureAck) : Bool :=
  acknowledgement.module_bytes != self.module_bytes
    || acknowledgement.module_sha256 != self.module_sha256
    || acknowledgement.request_bytes != self.request_bytes
    || acknowledgement.request_sha256 != self.request_sha256

def prepare_checkpoint_capture (W : Env) (patience : ℕ) (process_id : UInt32)
    (expected_worker_build_sha256 : String) (allowed_supplementary_groups : List UInt32)
    (capture : CheckpointCaptureInput) :
    ParentM CaptureOperationFailure (WasixWorkerMetadata × WasixCheckpointCaptureAck) := do
  let metadata ← accept_ready W (fun _ => .protocol .Ready) process_id
    expected_worker_build_sha256 allowed_supplementary_groups
  let input_failure : CaptureOperationFailure := .protocol .Input
  Fallible.orElse (fun _ => input_failure)
    (send_checkpoint_descriptor patience capture.module 77)
  Fallible.orElse (fun _ => input_failure) (write_control_frame capture.request)
  let frame ← Fallible.orElse (fun _ => input_failure) (piped (read_frame W))
  let acknowledgement ← Fallible.orElse (fun _ => input_failure)
    (.ret (W.capture_ack_from_slice frame))
  Fallible.reject (capture.expected.differs acknowledgement) input_failure
  authorize (.protocol .Authorization)
  Fallible.run (act .drop_control)
  pure (metadata, acknowledgement)

def perform_checkpoint_capture (W : Env) (patience : ℕ) (worker : WorkerProcess)
    (allowed_supplementary_groups : List UInt32) (handshake_timeout execution_timeout : ℕ)
    (capture : CheckpointCaptureInput) : ParentM CaptureOperationError WasixCheckpointCapture := do
  let (metadata, acknowledgement) ← interruptedBy (.timeout handshake_timeout) .Timeout
    (Fallible.orElse .Failure (prepare_checkpoint_capture W patience worker.process_id
      worker.worker_build_sha256 allowed_supplementary_groups capture))
  let (completion, journal, captured_stdout, captured_stderr) ←
    interruptedBy (.timeout execution_timeout) .Timeout
      (Fallible.orElse .Failure (piped (collect_checkpoint_capture_output W)))
  let journal ← compute (Exec.mapErr (fun _ => .Failure (.protocol .Output))
    (CapturedWasixJournal.from_attested_worker_capture W.checkpoint journal
      capture.expected.binding metadata.worker_build_sha256))
  pure {
    worker := metadata
    binding := capture.expected.binding
    stdout := captured_stdout
    stderr := captured_stderr
    module_sha256 := acknowledgement.module_sha256
    journal_sha256 := completion.journal_sha256
    journal := journal }

/-- The error as `supervise_checkpoint_capture` first has it, without diagnostics. -/
def CaptureOperationError.to_error : CaptureOperationError → Error
  | .Failure failure => .CheckpointCapture ⟨failure.phase, failure.reason, ⟨[], false⟩,
      failure.exit_status.bind ExitStatus.code, failure.exit_status.bind ExitStatus.signal⟩
  | .Timeout => .Timeout

/-- `matches!(&outcome, Err(Error::CheckpointCapture(_)))`. -/
def is_checkpoint_capture : Error → Bool
  | .CheckpointCapture _ => true
  | _ => false

/-- The error `supervise_checkpoint_capture` returns. -/
def capture_error (observed : Option ExitStatus) (diagnostics : WasixWorkerDiagnostics) :
    Error → Error
  | .CheckpointCapture failure =>
    .CheckpointCapture ⟨failure.phase, failure.reason, diagnostics,
      observed.elim failure.exit_code ExitStatus.code,
      observed.elim failure.exit_signal ExitStatus.signal⟩
  | error => error

/-- The end of `supervise_checkpoint_capture`. -/
def conclude_capture : Except Error WasixCheckpointCapture → ParentM Error WasixCheckpointCapture
  | .ok capture => do
      let _ ← Fallible.run diagnostics
      Fallible.run drop_worker
      pure capture
  | .error error => do
      let observed ← Fallible.run (contain_worker (is_checkpoint_capture error))
      let worker_diagnostics ← Fallible.run diagnostics
      Fallible.run drop_worker
      Fallible.throw (capture_error observed worker_diagnostics error)

def supervise_checkpoint_capture (W : Env) (patience : ℕ) (worker : WorkerProcess)
    (handshake_timeout execution_timeout : ℕ) (allowed_supplementary_groups : List UInt32)
    (capture : CheckpointCaptureInput) : ParentM Error WasixCheckpointCapture :=
  Prog.bind (interruptedBy .dropped .Cancelled (interruptedBy .cancelled .Cancelled
    (Fallible.orElse CaptureOperationError.to_error
      (perform_checkpoint_capture W patience worker allowed_supplementary_groups handshake_timeout
        execution_timeout capture)))) conclude_capture

def capture_wasix_checkpoint_linux (W : Env) (patience : ℕ) (config : WasixWorkerConfig)
    (executable : PinnedWorkerExecutable) (binding : WasixCheckpointBinding) (module : Bytes)
    (request : WasixCheckpointCaptureRequest) (execution_timeout : ℕ) :
    ParentM Error WasixCheckpointCapture := do
  Fallible.reject (binding.command != "_start") (.UnsupportedComponent
    "WASIX checkpoint capture supports only the \"_start\" command")
  Fallible.reject (module.isEmpty || decide (module.length > WASIX_WORKER_MAX_MODULE_BYTES))
    (.Checkpoint "WASIX capture module exceeds the worker input limit")
  let request := to_vec request.to_json
  Fallible.reject
    (request.isEmpty || decide (request.length > WASIX_WORKER_MAX_CAPTURE_REQUEST_BYTES))
    (.Configuration "WASIX checkpoint capture request exceeds the protocol limit")
  let request_bytes ← Fallible.ok_or (.Configuration "capture request length overflows u64")
    (Exec.tryFrom u64_max request.length)
  let request_sha256 := W.sha256_hex request
  let now ← Fallible.run (act .now)
  let deadline := now + config.handshake_timeout
  let prepared_module ← prepare_module_unless_cancelled W module config.handshake_timeout
  Fallible.reject (prepared_module.sha256 != binding.module_sha256) (.Checkpoint
    "WASIX capture module does not match the checkpoint binding")
  let remaining ← remaining_until deadline
  checkpoint_control_channel
  let command ← executable.command "--checkpoint-capture"
  let worker ← spawn_wasix_worker W config .CheckpointCapture command executable.sha256
  take_pipe (act .take_stdout) "WASIX capture worker stdout was not piped"
  take_pipe (act .take_stderr) "WASIX capture worker diagnostics were not piped"
  supervised "WASIX checkpoint capture" (supervise_checkpoint_capture W patience worker remaining
    execution_timeout config.allowed_supplementary_groups {
      module := prepared_module.file
      request := request
      expected := {
        binding := binding
        module_bytes := prepared_module.bytes
        module_sha256 := prepared_module.sha256
        request_bytes := request_bytes
        request_sha256 := request_sha256 } })

def capture_wasix_checkpoint (W : Env) (patience : ℕ) (config : WasixWorkerConfig)
    (binding : WasixCheckpointBinding) (module : Bytes) (command : CommandInput) :
    ParentM Error WasixCheckpointCapture := do
  compute config.validate_common
  let (request, execution_timeout) ← compute (WasixCheckpointCaptureRequest.new command)
  let cancelled ← Fallible.run (act (.poll .cancelled))
  Fallible.reject cancelled .Cancelled
  let executable ← config.pin_executable
  capture_wasix_checkpoint_linux W patience config executable binding module request
    execution_timeout

/-! ## Interruptions, by any history

The rule for `interruptedBy`. -/

open Monitor in
/-- A future that was dropped has no result. -/
theorem interruptedBy_post {σ ε α : Type} {M : Monitor σ ParentOp ParentAnswer}
    {G : σ → ParentOp → Prop} {cause : Cause} {error : ε} {p : ParentM ε α} {Q : α → σ → Prop}
    {s : σ} (hG : ∀ s, G s (.poll cause)) (hafter : ∀ s r, M.after s (.poll cause) r = s)
    (h : M.Upholds G (Post Q) p s) : M.Upholds G (Post Q) (interruptedBy cause error p) s := by
  unfold interruptedBy
  refine .bind (Q := fun r s' => ∀ outcome, r = some outcome → Post Q outcome s')
    (Upholds.interruptible hG hafter ?_ ?_ h) ?_
  · intro s' outcome hsome
    cases hsome
  · intro a s' ha outcome hsome
    cases hsome
    exact ha
  · intro r s' hr
    cases r with
    | none => exact trivial
    | some outcome => exact hr outcome rfl

end WasmRuntime.Worker
