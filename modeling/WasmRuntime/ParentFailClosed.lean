/-
`wasix_worker.rs`, what the parent does before it trusts a worker: nothing that matters.

The worker is arbitrary. It may write any bytes, exit at any time with any status, and the timeouts
and the caller's cancellation may strike wherever the parent waits.
-/
import WasmRuntime.WorkerParent
import WasmRuntime.CheckpointSeal

set_option autoImplicit false

namespace WasmRuntime.Worker

open ByteCodec Prog Checkpoint Exec

/-! ## The history

What the parent does is judged by its own history: what it has pinned, spawned and placed, what it
has sent over the control socket, what it has heard. -/

/-- What the parent has done and heard. Of a `write_all` that failed or was dropped a part may
have been sent; the history counts all of it. -/
structure Dealings where
  files : Files
  pinned : Option PinnedWorkerExecutable
  spawned : Option (Command × UInt32)
  placed : Option (UInt32 × WasixWorkerOperation)
  sent : List Parcel
  heard : Heard

/-- Nothing yet. -/
def Dealings.start (files : Files) : Dealings := ⟨files, none, none, none, [], Heard.start⟩

/-- The same dealings, with this said by both sides. -/
def Dealings.said (d : Dealings) (sent : List Parcel) (heard : Heard) : Dealings :=
  { d with sent, heard }

@[simp] theorem Dealings.said_said (d : Dealings) (sent sent' : List Parcel)
    (heard heard' : Heard) : (d.said sent heard).said sent' heard' = d.said sent' heard' := rfl

@[simp] theorem Dealings.said_files (d : Dealings) (sent : List Parcel) (heard : Heard) :
    (d.said sent heard).files = d.files := rfl

@[simp] theorem Dealings.said_sent (d : Dealings) (sent : List Parcel) (heard : Heard) :
    (d.said sent heard).sent = sent := rfl

@[simp] theorem Dealings.said_heard (d : Dealings) (sent : List Parcel) (heard : Heard) :
    (d.said sent heard).heard = heard := rfl

/-- What an effect and its answer add. -/
def Dealings.after (d : Dealings) : (op : ParentOp) → ParentAnswer op → Dealings
  | .input op, answer => { d with files := filling.after d.files op answer }
  | .output op, answer => { d with heard := d.heard.after op answer }
  | .pin _, .ok executable => { d with pinned := some executable }
  | .spawn command, .ok (some process_id) => { d with spawned := some (command, process_id) }
  | .place process_id operation, .placed => { d with placed := some (process_id, operation) }
  | .sendmsg file marker, .sent 1 => d.said (d.sent ++ [(marker, some file)]) d.heard
  | .write_control bytes, _ => { d with sent := d.sent ++ plainly bytes }
  | _, _ => d

/-- Any worker, any timing. The kernel does hand out new files. -/
def dealing : Monitor Dealings ParentOp ParentAnswer where
  ok
    | d, .input op, answer => filling.ok d.files op answer
    | _, _, _ => True
  after := Dealings.after

/-! ## Terms

What the caller's arguments fix in advance: which executable the operation agrees to, what is to be
sent, which acknowledgement answers it. `Terms.guard` says when the parent may send: a descriptor or
a request only to a worker that was placed and whose Ready frame passed, the byte `E` only after the
acknowledgement. -/

/-- What an operation's arguments fix: the deployment's configuration, the operation, the
executables it agrees to, what goes over the control socket before an authorization, and which
texts acknowledge it. -/
structure Terms where
  config : WasixWorkerConfig
  operation : WasixWorkerOperation
  agrees : PinnedWorkerExecutable → Prop
  inputs : Files → List Parcel → Prop
  acknowledges : Bytes → Prop

/-- There is a worker: the pinned executable was spawned and, if the deployment has a placement
policy, the policy returned `Ok` for this process. -/
structure Terms.Hired (T : Terms) (command : Command) (process_id : UInt32) (d : Dealings) :
    Prop where
  agrees : T.agrees command.executable
  pinned : d.pinned = some command.executable
  spawned : d.spawned = some (command, process_id)
  placed : T.config.placement = true → d.placed = some (process_id, T.operation)

/-- A Ready frame that passed, for the spawned process and the pinned executable. -/
structure Terms.ReadyText (W : Env) (T : Terms) (command : Command) (process_id : UInt32)
    (text : Bytes) (metadata : WasixWorkerMetadata) : Prop where
  short : MessageText text
  decoded : W.metadata_from_slice text = .ok metadata
  valid : metadata.validate W process_id command.executable.sha256
    T.config.allowed_supplementary_groups = .ok ()

/-- The worker has said that it is ready, and nothing else yet. -/
def Terms.Ready (W : Env) (T : Terms) (d : Dealings) : Prop :=
  ∃ command process_id text metadata, T.Hired command process_id d ∧
    T.ReadyText W command process_id text metadata ∧ d.heard.stream = frame text

/-- The worker has said that it is ready and has acknowledged its input. -/
def Terms.Acknowledged (W : Env) (T : Terms) (d : Dealings) : Prop :=
  ∃ command process_id text metadata acknowledgement, T.Hired command process_id d ∧
    T.ReadyText W command process_id text metadata ∧ MessageText acknowledgement ∧
    T.acknowledges acknowledgement ∧ d.heard.stream = frame text ++ frame acknowledgement

/-- With `parcels` the parent has sent its inputs, or the beginning of them. -/
def Terms.Hands (T : Terms) (d : Dealings) (parcels : List Parcel) : Prop :=
  ∃ inputs, T.inputs d.files inputs ∧ d.sent ++ parcels <+: inputs

/-- When the parent may send, and that its preparations come before. 69 is `E`. -/
def Terms.guard (W : Env) (T : Terms) (d : Dealings) : ParentOp → Prop
  | .input _ => d.sent = []
  | .pin _ => d.sent = []
  | .spawn _ => d.sent = []
  | .place _ _ => d.sent = []
  | .sendmsg file marker => T.Ready W d ∧ T.Hands d [(marker, some file)]
  | .write_control bytes =>
    if bytes = [69] then T.Acknowledged W d ∧ T.inputs d.files d.sent
    else T.Ready W d ∧ T.Hands d (plainly bytes)
  | .shutdown_control => T.Acknowledged W d
  | _ => True

/-- When the parent may return a result: the stream was the Ready frame and `rest`, then the
pipe ended, and the worker exited with success. -/
def Terms.Accepted (W : Env) (T : Terms) (metadata : WasixWorkerMetadata) (rest : Bytes)
    (d : Dealings) : Prop :=
  ∃ command process_id text status, T.Hired command process_id d ∧
    T.ReadyText W command process_id text metadata ∧ ExitStatus.success status = true ∧
    d.heard = (Heard.start.hear (frame text ++ rest)).finish status

variable {W : Env} {T : Terms} {d : Dealings} {bytes : ℕ} {sha256 : String}

theorem Terms.guard_request {bytes : Bytes} (hne : bytes ≠ [69]) (hready : T.Ready W d)
    (hhands : T.Hands d (plainly bytes)) : T.guard W d (.write_control bytes) := by
  rw [Terms.guard, if_neg hne]
  exact ⟨hready, hhands⟩

theorem Terms.guard_authorization (hack : T.Acknowledged W d) (hinputs : T.inputs d.files d.sent) :
    T.guard W d (.write_control [69]) := by
  rw [Terms.guard, if_pos rfl]
  exact ⟨hack, hinputs⟩

/-- Who was hired does not depend on what was said. -/
theorem Terms.Hired.said {command : Command} {process_id : UInt32}
    (h : T.Hired command process_id d) (sent : List Parcel) (heard : Heard) :
    T.Hired command process_id (d.said sent heard) :=
  ⟨h.agrees, h.pinned, h.spawned, h.placed⟩

/-! ## Single effects

Most effects leave no trace in the history, and nothing is asked of them. -/

section Effects

variable {W : Env} {T : Terms} {d : Dealings}

open Monitor

/-- One call, by its guard and its answer. -/
theorem act_upholds (op : ParentOp) {Q : ParentAnswer op → Dealings → Prop}
    (hguard : T.guard W d op) (hQ : ∀ r, dealing.ok d op r → Q r (d.after op r)) :
    dealing.Upholds (T.guard W) Q (act op) d := ⟨hguard, hQ⟩

/-- An effect that leaves no trace. -/
theorem act_quiet (op : ParentOp) (hguard : T.guard W d op) (hafter : ∀ r, d.after op r = d) :
    dealing.Upholds (T.guard W) (fun _ d' => d = d') (act op) d := by
  refine act_upholds op hguard ?_
  intro r _
  exact (hafter r).symm

variable {ε α : Type} {Q : α → Dealings → Prop}

/-- The same in the middle of a fallible program. -/
theorem run_quiet (op : ParentOp) (hguard : T.guard W d op) (hafter : ∀ r, d.after op r = d) :
    dealing.Upholds (T.guard W) (Post fun _ d' => d = d')
      (Fallible.run (act op) : ParentM ε (ParentAnswer op)) d :=
  Upholds.run (act_quiet op hguard hafter)

/-- A call that may fail and leaves no trace. -/
theorem or_execution_quiet (message : String) (call : ParentProg (Except String α))
    (h : dealing.Upholds (T.guard W) (fun _ d' => d = d') call d) :
    dealing.Upholds (T.guard W) (Post fun _ d' => d = d') (or_execution message call) d :=
  Upholds.orElse_any h

theorem compute_upholds (x : Exec ε α) :
    dealing.Upholds (T.guard W) (Post fun a d' => d = d' ∧ x = .ok a) (compute x) d := by
  cases x with
  | ok v => exact ⟨rfl, rfl⟩
  | err e => exact trivial
  | panic => exact ⟨trivial, fun r => r.elim⟩
  | div => exact ⟨trivial, fun r => r.elim⟩

/-- `result.map_err(wrap)?` on a result that is at hand. -/
theorem result_upholds {δ : Type} (wrap : δ → ε) (x : Except δ α) :
    dealing.Upholds (T.guard W) (Post fun a d' => d = d' ∧ x = .ok a)
      (Fallible.orElse wrap (.ret x)) d := Upholds.orElse (.ofExcept x d)

/-- A future that was dropped has no result. -/
theorem interruptedBy_upholds {cause : Cause} {error : ε} {p : ParentM ε α}
    (h : dealing.Upholds (T.guard W) (Post Q) p d) :
    dealing.Upholds (T.guard W) (Post Q) (interruptedBy cause error p) d :=
  interruptedBy_post (fun _ => trivial) (fun _ _ => rfl) h

/-- What a program of the output pipe hears, the parent hears. -/
theorem piped_upholds {p : Prog OutputOp OutputAnswer α} {Q : α → Heard → Prop}
    (h : hearing.Upholds anyEffect Q p d.heard) :
    dealing.Upholds (T.guard W) (fun a d' => ∃ heard, d' = d.said d.sent heard ∧ Q a heard)
      (piped p) d :=
  Upholds.lift (d.said d.sent) (fun _ _ _ _ _ => trivial) (fun _ _ _ _ => rfl)
    (fun _ _ _ => trivial) (fun _ heard hQ => ⟨heard, rfl, hQ⟩) h

/-- The same for a program that may fail. -/
theorem piped_post {p : OutputM ε α} {Q : α → Heard → Prop}
    (h : hearing.Upholds anyEffect (Post Q) p d.heard) :
    dealing.Upholds (T.guard W) (Post fun a d' => ∃ heard, d' = d.said d.sent heard ∧ Q a heard)
      (piped p) d := by
  refine .mono (piped_upholds h) ?_
  rintro r _ ⟨heard, rfl, hr⟩
  cases r with
  | error e => exact trivial
  | ok a => exact ⟨heard, rfl, hr⟩

/-- What a program of the sealed inputs makes, the parent has. -/
theorem input_upholds {p : Prog InputOp InputAnswer α} {Q : α → Files → Prop} (hsent : d.sent = [])
    (h : filling.Upholds (fun _ _ => True) Q p d.files) :
    dealing.Upholds (T.guard W) (fun a d' => ∃ files, d' = { d with files } ∧ Q a files)
      (input p) d :=
  Upholds.lift (fun files => { d with files }) (fun _ _ _ _ hok => hok) (fun _ _ _ _ => rfl)
    (fun _ _ _ => hsent) (fun _ files hQ => ⟨files, rfl, hQ⟩) h

/-! ## Before there is a worker

Preparations: nothing has been sent, and each input is a new sealed file. -/

/-- The executable is pinned before anything is sent. -/
theorem pin_executable_upholds (config : WasixWorkerConfig) (hsent : d.sent = []) :
    dealing.Upholds (T.guard W)
      (Post fun executable d' => d' = { d with pinned := some executable })
      config.pin_executable d := by
  unfold WasixWorkerConfig.pin_executable
  refine .bindF (compute_upholds _) ?_
  rintro _ _ ⟨rfl, -⟩
  refine .orElse (act_upholds (.pin config.executable) hsent ?_)
  intro r _
  cases r with
  | error e => exact trivial
  | ok executable => exact rfl

theorem command_upholds (executable : PinnedWorkerExecutable) (operation : String) :
    dealing.Upholds (T.guard W) (Post fun command d' => d = d' ∧ command = ⟨executable, operation⟩)
      (executable.command operation) d := by
  unfold PinnedWorkerExecutable.command
  refine .bindF (or_execution_quiet _ _ (act_quiet _ trivial fun _ => rfl)) ?_
  rintro _ _ rfl
  refine .bindF (.reject _ _ _) ?_
  rintro _ _ ⟨rfl, -⟩
  refine .bindF (.reject _ _ _) ?_
  rintro _ _ ⟨rfl, -⟩
  exact ⟨rfl, rfl⟩

theorem checkpoint_control_channel_upholds :
    dealing.Upholds (T.guard W) (Post fun _ d' => d = d') checkpoint_control_channel d := by
  unfold checkpoint_control_channel
  refine .bindF (or_execution_quiet _ _ (act_quiet .socketpair trivial fun _ => rfl)) ?_
  rintro _ _ rfl
  refine .bindF (or_execution_quiet _ _ (act_quiet .set_nonblocking trivial fun _ => rfl)) ?_
  rintro _ _ rfl
  exact or_execution_quiet _ _ (act_quiet .register trivial fun _ => rfl)

theorem remaining_until_upholds (deadline : ℕ) :
    dealing.Upholds (T.guard W) (Post fun _ d' => d = d') (remaining_until deadline) d := by
  unfold remaining_until
  refine .bindF (run_quiet .now trivial fun _ => rfl) ?_
  rintro now _ rfl
  refine .bindF (.reject _ _ _) ?_
  rintro _ _ ⟨rfl, -⟩
  exact rfl

/-- A preparation that was joined in time gives its result. -/
theorem wait_preparation_upholds (label : String) (timeout : ℕ) {result : Except Error α}
    (h : Post Q result d) :
    dealing.Upholds (T.guard W) (Post Q) (wait_preparation label timeout result) d := by
  unfold wait_preparation
  refine .bindF (run_quiet (.join timeout) trivial fun _ => rfl) ?_
  rintro joined _ rfl
  cases joined with
  | finished => exact h
  | failed error => exact trivial
  | elapsed => exact trivial

/-- The same of what is known about the files. -/
theorem wait_prepared_upholds {Q : α → Files → Prop} (label : String) (timeout : ℕ)
    {result : Except Error α} {files : Files} (h : Post Q result files) :
    dealing.Upholds (T.guard W) (Post fun p d' => ∃ files, d' = { d with files } ∧ Q p files)
      (wait_preparation label timeout result) { d with files } := by
  refine wait_preparation_upholds label timeout ?_
  cases result with
  | error e => exact trivial
  | ok p => exact ⟨files, rfl, h⟩

/-- The file of a prepared input, with the other files as they were. -/
def PreparedIn (W : Env) (content : Bytes) (file : Fd) (bytes : ℕ) (sha256 : String)
    (d d' : Dealings) : Prop :=
  ∃ files, d' = { d with files } ∧ Prepared W content d.files file bytes sha256 files

/-- The module goes into a sealed file. -/
theorem prepare_module_upholds (module : Bytes) (timeout : ℕ) (hsent : d.sent = []) :
    dealing.Upholds (T.guard W)
      (Post fun p d' => PreparedIn W module p.file p.bytes p.sha256 d d')
      (prepare_module W module timeout) d := by
  unfold prepare_module
  refine .bindF (.run (input_upholds hsent (sealed_module_input_upholds W module _))) ?_
  rintro result _ ⟨files, rfl, hprepared⟩
  exact wait_prepared_upholds _ _ hprepared

theorem prepare_module_unless_cancelled_upholds (module : Bytes) (timeout : ℕ)
    (hsent : d.sent = []) : dealing.Upholds (T.guard W)
      (Post fun p d' => PreparedIn W module p.file p.bytes p.sha256 d d')
      (prepare_module_unless_cancelled W module timeout) d := by
  unfold prepare_module_unless_cancelled
  refine .bindF (.run (input_upholds hsent (sealed_module_input_upholds W module _))) ?_
  rintro result _ ⟨files, rfl, hprepared⟩
  refine .bindF (run_quiet (.poll .cancelled) trivial fun _ => rfl) ?_
  rintro cancelled _ rfl
  refine .bindF (.reject _ _ _) ?_
  rintro _ _ ⟨rfl, -⟩
  exact wait_prepared_upholds _ _ hprepared

/-- The journal goes into a sealed file. -/
theorem prepare_checkpoint_upholds (journal : Bytes) (timeout : ℕ) (hsent : d.sent = []) :
    dealing.Upholds (T.guard W)
      (Post fun p d' => PreparedIn W journal p.file p.journal_bytes p.journal_sha256 d d')
      (prepare_checkpoint W journal timeout) d := by
  unfold prepare_checkpoint
  refine .bindF (.run (input_upholds hsent (sealed_checkpoint_input_upholds W journal _))) ?_
  rintro result _ ⟨files, rfl, hprepared⟩
  exact wait_prepared_upholds _ _ hprepared

/-! ## The worker's process

From the spawn to a worker that was just hired. -/

/-- A drop leaves no trace: what it does is done to the worker. -/
theorem drop_worker_upholds :
    dealing.Upholds (T.guard W) (fun _ d' => d = d') drop_worker d := by
  unfold drop_worker
  refine .bind (act_quiet (.output .kill_tree) trivial fun _ => rfl) ?_
  rintro _ _ rfl
  refine .bind (act_quiet .active trivial fun _ => rfl) ?_
  rintro active _ rfl
  by_cases hactive : active = true
  · rw [if_pos hactive]
    refine .bind (act_quiet .start_kill trivial fun _ => rfl) ?_
    rintro _ _ rfl
    exact rfl
  · rw [if_neg hactive]
    exact rfl

/-- A worker that needs a placement has it. -/
theorem place_worker_upholds (operation : WasixWorkerOperation) (process_id : UInt32)
    (hsent : d.sent = []) :
    dealing.Upholds (T.guard W)
      (Post fun _ d' => ∃ placed, d' = { d with placed } ∧
        (T.config.placement = true → placed = some (process_id, operation)))
      (place_worker W T.config operation process_id) d := by
  unfold place_worker
  by_cases hplacement : T.config.placement = true
  · rw [if_pos hplacement]
    refine .bindF (Q := fun outcome d' => d' = d.after (.place process_id operation) outcome)
      (.run (act_upholds (.place process_id operation) hsent fun _ _ => rfl)) ?_
    rintro outcome _ rfl
    cases outcome with
    | placed => exact ⟨_, rfl, fun _ => rfl⟩
    -- A worker that was not placed is killed and awaited, and then there is no result.
    | rejected error =>
      exact ⟨trivial, fun _ _ => ⟨trivial, fun _ _ => ⟨trivial, fun _ _ => ⟨trivial,
        fun _ _ => trivial⟩⟩⟩⟩
    | panicked =>
      exact ⟨trivial, fun _ _ => ⟨trivial, fun _ _ => ⟨trivial, fun _ _ => ⟨trivial,
        fun _ _ => trivial⟩⟩⟩⟩
  · rw [if_neg hplacement]
    exact ⟨d.placed, rfl, fun h => absurd h hplacement⟩

/-- A worker that was just hired: nothing has been said yet, and the files are these. -/
structure Terms.Fresh (T : Terms) (command : Command) (worker : WorkerProcess) (files : Files)
    (d : Dealings) : Prop where
  hired : T.Hired command worker.process_id d
  build : worker.worker_build_sha256 = command.executable.sha256
  files_eq : d.files = files
  unsent : d.sent = []
  unheard : d.heard = Heard.start

/-- A worker that was spawned is hired. -/
theorem spawn_wasix_worker_upholds {command : Command}
    (hpinned : d.pinned = some command.executable) (hagrees : T.agrees command.executable)
    (hsent : d.sent = []) (hheard : d.heard = Heard.start) :
    dealing.Upholds (T.guard W) (Post fun worker d' => T.Fresh command worker d.files d')
      (spawn_wasix_worker W T.config T.operation command command.executable.sha256) d := by
  unfold spawn_wasix_worker
  refine .bindF (Q := fun id d' => d' = d.after (.spawn command) (.ok id))
    (.orElse (act_upholds (.spawn command) hsent ?_)) ?_
  · intro r _
    cases r with
    | error e => exact trivial
    | ok id => exact rfl
  rintro id _ rfl
  refine .bindF (.ok_or _ _ _) ?_
  rintro process_id _ ⟨rfl, rfl⟩
  refine .bindF (place_worker_upholds T.operation process_id hsent) ?_
  rintro _ _ ⟨placed, rfl, hplaced⟩
  exact ⟨⟨hagrees, hpinned, rfl, hplaced⟩, rfl, rfl, hsent, hheard⟩

theorem take_pipe_upholds {pipe : ParentProg Bool} (message : String)
    (hpipe : dealing.Upholds (T.guard W) (fun _ d' => d = d') pipe d) :
    dealing.Upholds (T.guard W) (Post fun _ d' => d = d') (take_pipe pipe message) d := by
  unfold take_pipe
  refine .bindF (.run hpipe) ?_
  rintro taken _ rfl
  by_cases htaken : taken = true
  · rw [if_pos htaken]
    exact rfl
  · rw [if_neg htaken]
    refine .bindF (.run drop_worker_upholds) ?_
    intro _ _ _
    exact trivial

/-! ## The exchange

The four operations have their own code for this, but the parts are shared (`accept_ready`,
`send_checkpoint_descriptor`, `authorize`) and each has one lemma. -/

/-- A Ready frame that the parent accepted. -/
theorem accept_ready_upholds (wrap : Error → ε) {command : Command} {process_id : UInt32}
    (hheard : d.heard = Heard.start) :
    dealing.Upholds (T.guard W)
      (Post fun metadata d' => ∃ text, T.ReadyText W command process_id text metadata ∧
        d' = d.said d.sent (Heard.start.hear (frame text)))
      (accept_ready W wrap process_id command.executable.sha256
        T.config.allowed_supplementary_groups) d := by
  unfold accept_ready
  refine .bindF (.orElse (piped_post (read_frame_hears W _))) ?_
  rintro text _ ⟨_, rfl, htext, rfl⟩
  rw [hheard]
  refine .bindF (result_upholds _ _) ?_
  rintro metadata _ ⟨rfl, hdecoded⟩
  refine .bindF (compute_upholds _) ?_
  rintro _ _ ⟨rfl, hvalid⟩
  exact ⟨text, ⟨htext, hdecoded, mapErr_eq_ok.mp hvalid⟩, rfl⟩

/-- A descriptor that was sent. The socket may have been full any number of times before. -/
theorem send_checkpoint_descriptor_upholds (patience : ℕ) {file : Fd} {marker : UInt8}
    (hready : T.Ready W d) (hhands : T.Hands d [(marker, some file)]) :
    dealing.Upholds (T.guard W)
      (Post fun _ d' => d' = d.said (d.sent ++ [(marker, some file)]) d.heard)
      (send_checkpoint_descriptor patience file marker) d := by
  induction patience with
  | zero => exact ⟨trivial, fun r => r.elim⟩
  | succ patience ih =>
    unfold send_checkpoint_descriptor
    refine .bindF (or_execution_quiet _ _ (act_quiet .writable trivial fun _ => rfl)) ?_
    rintro _ _ rfl
    refine .bindF (Q := fun sending d' => d' = d.after (.sendmsg file marker) sending)
      (.run (act_upholds (.sendmsg file marker) ⟨hready, hhands⟩ fun _ _ => rfl)) ?_
    rintro sending _ rfl
    cases sending with
    | would_block => exact ih
    | failed error => exact trivial
    | sent bytes =>
      refine .monoF (.reject _ _ _) ?_
      rintro _ _ ⟨rfl, hone⟩
      obtain rfl : bytes = 1 := by simpa using hone
      exact rfl

/-- A request that was sent. The frame is not the authorization: it is longer, and a request does
not begin with `E`. -/
theorem write_control_frame_upholds {request : Bytes} (hrequest : request ≠ [69])
    (hready : T.Ready W d)
    (hhands : T.Hands d (plainly (frame request))) :
    dealing.Upholds (T.guard W)
      (Post fun _ d' => d' = d.said (d.sent ++ plainly (frame request)) d.heard)
      (write_control_frame request) d := by
  unfold write_control_frame
  obtain ⟨inputs, hinputs, hsent⟩ := hhands
  have hframe : plainly (frame request) = plainly (be 4 request.length) ++ plainly request :=
    List.map_append
  rw [hframe, ← List.append_assoc] at hsent
  -- Neither write is the authorization: the length has four bytes, the request is another text.
  have hlength : be 4 request.length ≠ [69] := by
    intro h
    have := congrArg List.length h
    rw [be_length] at this
    exact absurd this (by decide)
  refine .bindF (.ok_or _ _ _) ?_
  rintro length _ ⟨rfl, hfits⟩
  obtain rfl := (tryFrom_eq_some.mp hfits).2
  refine .bindF (.orElse_any
    (I := fun d' => d' = d.said (d.sent ++ plainly (be 4 request.length)) d.heard)
    (act_upholds (.write_control (be 4 request.length)) (Terms.guard_request hlength hready
      ⟨inputs, hinputs, (List.prefix_append _ _).trans hsent⟩) fun _ _ => rfl)) ?_
  rintro _ _ rfl
  refine .orElse_any (act_upholds (.write_control request) ?_ ?_)
  · obtain ⟨command, process_id, text, metadata, hired, htext, hstream⟩ := hready
    exact Terms.guard_request hrequest
      ⟨command, process_id, text, metadata, hired.said _ _, htext, hstream⟩ ⟨inputs, hinputs, hsent⟩
  · intro r _
    rw [hframe, ← List.append_assoc]
    rfl

/-- The authorization, after the acknowledgement. -/
theorem authorize_upholds (failure : ε) (hack : T.Acknowledged W d)
    (hinputs : T.inputs d.files d.sent) :
    dealing.Upholds (T.guard W)
      (Post fun _ d' => d' = d.said (d.sent ++ plainly [69]) d.heard) (authorize failure) d := by
  unfold authorize
  refine .bindF (.orElse_any
    (I := fun d' => d' = d.said (d.sent ++ plainly [69]) d.heard)
    (act_upholds (.write_control [69]) (Terms.guard_authorization hack hinputs) fun _ _ => rfl)) ?_
  rintro _ _ rfl
  refine .orElse_any (act_upholds .shutdown_control ?_ fun _ _ => rfl)
  obtain ⟨command, process_id, text, metadata, acknowledgement, hired, hrest⟩ := hack
  exact ⟨command, process_id, text, metadata, acknowledgement, hired.said _ _, hrest⟩

/-! ## Outcomes

What is done to a worker when its operation has ended sends nothing, whatever comes of it. -/

/-- An effect that is not guarded. -/
theorem act_free (op : ParentOp) (hguard : T.guard W d op) :
    dealing.Upholds (T.guard W) (fun _ _ => True) (act op) d :=
  act_upholds op hguard fun _ _ => trivial

theorem spawn_worker_reaper_upholds :
    dealing.Upholds (T.guard W) (fun _ _ => True) spawn_worker_reaper d := by
  unfold spawn_worker_reaper
  refine .bind (act_free (.output .kill_tree) trivial) ?_
  intro _ _ _
  refine .bind (act_free .start_kill trivial) ?_
  intro _ _ _
  exact act_free .spawn_reaper trivial

/-- What the operation came to is handed on. -/
theorem reap_failed_upholds {outcome : Except Error α} (h : Post Q outcome d) :
    dealing.Upholds (T.guard W) (Post Q) (reap_failed outcome) d := by
  cases outcome with
  | ok a =>
    refine .bindF (.run drop_worker_upholds) ?_
    rintro _ _ rfl
    exact h
  | error error =>
    refine .bindF (run_quiet .active trivial fun _ => rfl) ?_
    rintro active _ rfl
    refine .bindF (Q := fun _ _ => True) (.run ?_) fun _ _ _ => trivial
    cases active with
    | true => exact spawn_worker_reaper_upholds
    | false => exact drop_worker_upholds.mono fun _ _ _ => trivial

theorem observe_failed_worker_exit_upholds :
    dealing.Upholds (T.guard W) (fun _ _ => True) observe_failed_worker_exit d := by
  have hbriefly : ∀ d, dealing.Upholds (T.guard W) (fun _ _ => True)
      (act .wait_briefly >>= fun waited => pure (waited.bind Except.toOption) :
        ParentProg (Option ExitStatus)) d := by
    intro d
    refine .bind (act_free .wait_briefly trivial) ?_
    intro _ _ _
    exact trivial
  unfold observe_failed_worker_exit
  refine .bind (act_free .try_wait trivial) ?_
  intro tried d' _
  rcases tried with e | _ | status
  · exact hbriefly d'
  · exact hbriefly d'
  · exact trivial

theorem kill_worker_upholds (observed : Option ExitStatus) :
    dealing.Upholds (T.guard W) (fun _ _ => True) (kill_worker observed) d := by
  unfold kill_worker
  refine .bind (act_free (.output .kill_tree) trivial) ?_
  intro _ _ _
  by_cases hnone : observed.isNone = true
  · rw [if_pos hnone]
    refine .bind (act_free .start_kill trivial) ?_
    intro _ _ _
    refine .bind (act_free (.output .wait) trivial) ?_
    intro _ _ _
    exact act_free (.output .disarm) trivial
  · rw [if_neg hnone]
    exact act_free (.output .disarm) trivial

theorem contain_worker_upholds (observe : Bool) :
    dealing.Upholds (T.guard W) (fun _ _ => True) (contain_worker observe) d := by
  unfold contain_worker
  refine .bind (act_free .active trivial) ?_
  intro active d' _
  by_cases hactive : active = true
  · rw [if_pos hactive]
    refine .bind (Q := fun _ _ => True) ?_ ?_
    · cases observe with
      | true => exact observe_failed_worker_exit_upholds
      | false => exact trivial
    intro observed _ _
    refine .bind (kill_worker_upholds observed) ?_
    intro _ _ _
    exact trivial
  · rw [if_neg hactive]
    exact trivial

theorem diagnostics_upholds :
    dealing.Upholds (T.guard W) (fun _ d' => d = d') diagnostics d := by
  unfold diagnostics
  refine .bind (act_quiet .join_diagnostics trivial fun _ => rfl) ?_
  rintro read _ rfl
  exact rfl

/-- After a failure the supervisors of a restore and of a capture contain the worker, and there
is no result. -/
theorem conclude_failed_upholds (observe : Bool)
    (error : Option ExitStatus → WasixWorkerDiagnostics → Error) :
    dealing.Upholds (T.guard W) (Post Q)
      (do
        let observed ← Fallible.run (contain_worker observe)
        let worker_diagnostics ← Fallible.run diagnostics
        Fallible.run drop_worker
        Fallible.throw (error observed worker_diagnostics) : ParentM Error α) d := by
  refine .bindF (.run (contain_worker_upholds observe)) ?_
  intro observed _ _
  refine .bindF (.run diagnostics_upholds) ?_
  intro worker_diagnostics _ _
  refine .bindF (.run drop_worker_upholds) ?_
  intro _ _ _
  exact trivial

/-- The ending of a restore adds diagnostics only. -/
theorem conclude_restore_upholds {Q : WasixCheckpointRestoreMetadata → Dealings → Prop}
    {outcome : Except Error WasixCheckpointRestoreMetadata} (h : Post Q outcome d)
    (hQ : ∀ metadata worker_diagnostics d, Q metadata d →
      Q { metadata with worker_diagnostics } d) :
    dealing.Upholds (T.guard W) (Post Q) (conclude_restore outcome) d := by
  cases outcome with
  | ok metadata =>
    refine .bindF (.run diagnostics_upholds) ?_
    rintro worker_diagnostics _ rfl
    refine .bindF (.run drop_worker_upholds) ?_
    rintro _ _ rfl
    exact hQ metadata worker_diagnostics d h
  | error error =>
    exact conclude_failed_upholds _ fun observed read => restore_error observed read error

/-- The ending of a capture hands on the capture. -/
theorem conclude_capture_upholds {Q : WasixCheckpointCapture → Dealings → Prop}
    {outcome : Except Error WasixCheckpointCapture} (h : Post Q outcome d) :
    dealing.Upholds (T.guard W) (Post Q) (conclude_capture outcome) d := by
  cases outcome with
  | ok capture =>
    refine .bindF (.run diagnostics_upholds) ?_
    rintro _ _ rfl
    refine .bindF (.run drop_worker_upholds) ?_
    rintro _ _ rfl
    exact h
  | error error =>
    exact conclude_failed_upholds _ fun observed read => capture_error observed read error

theorem supervised_upholds (label : String) {supervisor : ParentM Error α}
    (h : dealing.Upholds (T.guard W) (Post Q) supervisor d) :
    dealing.Upholds (T.guard W) (Post Q) (supervised label supervisor) d := by
  unfold supervised
  refine .bindF (.run h) ?_
  intro outcome d' houtcome
  refine .bindF (or_execution_quiet _ _ (act_quiet .join_supervisor trivial fun _ => rfl)) ?_
  rintro _ _ rfl
  exact houtcome

end Effects

/-! ## The operations' terms

For each operation, by its arguments. -/

/-- The authenticated journal, as a range of the checkpoint's bytes. -/
def journal_of (checkpoint : VerifiedWasixCheckpoint) : Bytes :=
  (checkpoint.bytes.drop checkpoint.journal_range.1).take
    (checkpoint.journal_range.2 - checkpoint.journal_range.1)

theorem into_parts_eq_ok {checkpoint : VerifiedWasixCheckpoint} {parts : Bytes × String}
    (h : checkpoint.into_parts = .ok parts) :
    parts = (journal_of checkpoint, checkpoint.worker_build_sha256) := by
  unfold VerifiedWasixCheckpoint.into_parts at h
  dsimp only at h
  by_cases hstart : checkpoint.journal_range.1 = 0
  · rw [if_neg (by simpa using hstart)] at h
    rw [← Exec.ok.inj h, journal_of, hstart, List.drop_zero]
  · rw [if_pos (by simpa using hstart)] at h
    obtain ⟨bytes, hbytes, hparts⟩ := bind_eq_ok.mp h
    obtain ⟨moved, hmoved, hbytes⟩ := bind_eq_ok.mp hbytes
    unfold slice at hmoved
    split_ifs at hmoved with hrange
    rw [← Exec.ok.inj hparts, ← Exec.ok.inj hbytes, ← Exec.ok.inj hmoved, journal_of]
    -- The journal was moved to the front and nothing of it is cut off.
    have hlength : checkpoint.journal_range.2 - checkpoint.journal_range.1
        ≤ (checkpoint.bytes.drop checkpoint.journal_range.1).length := by
      rw [List.length_drop]
      omega
    rw [List.take_append_of_le_length (by rw [List.length_take]; omega), List.take_take,
      Nat.min_self]

/-- A file with this in it that can no longer change. -/
def Sealed (files : Files) (file : Fd) (content : Bytes) : Prop :=
  files file = some ⟨content, REQUIRED_CHECKPOINT_SEALS⟩

/-- A prepared input is sealed. -/
theorem Prepared.sealed {content : Bytes} {files files' : Files} {file : Fd}
    (h : Prepared W content files file bytes sha256 files') : Sealed files' file content := by
  rw [Sealed, h.files_eq, Function.update_self]

/-- Preparing an input leaves the others as they are: its file is a new one. -/
theorem Prepared.keeps {content content' : Bytes} {files files' : Files} {file file' : Fd}
    (h : Prepared W content files file bytes sha256 files') (hsealed : Sealed files file' content')
    : Sealed files' file' content' := by
  have hne : file' ≠ file := by
    rintro rfl
    rw [Sealed, h.new] at hsealed
    cases hsealed
  rw [Sealed, h.files_eq, Function.update_of_ne hne]
  exact hsealed

/-- A probe sends nothing. -/
def probeTerms (config : WasixWorkerConfig) : Terms where
  config := config
  operation := .Probe
  agrees _ := True
  inputs _ parcels := parcels = []
  acknowledges _ := False

/-- A transport sends the journal, with the marker `C`. -/
def transportTerms (W : Env) (config : WasixWorkerConfig) (checkpoint : VerifiedWasixCheckpoint) :
    Terms where
  config := config
  operation := .CheckpointTransport
  agrees executable := executable.sha256 = checkpoint.worker_build_sha256
  inputs files parcels := ∃ file, Sealed files file (journal_of checkpoint) ∧
    parcels = [(67, some file)]
  acknowledges text := W.transport_ack_from_slice text
    = .ok ⟨(journal_of checkpoint).length, W.sha256_hex (journal_of checkpoint)⟩

/-- A restore sends the module, with the marker `M`, and the journal. -/
def restoreTerms (W : Env) (config : WasixWorkerConfig) (checkpoint : VerifiedWasixCheckpoint)
    (module : Bytes) : Terms where
  config := config
  operation := .CheckpointRestore
  agrees executable := executable.sha256 = checkpoint.worker_build_sha256 ∧
    W.sha256_hex module = checkpoint.binding.module_sha256
  inputs files parcels := ∃ file file', Sealed files file module ∧
    Sealed files file' (journal_of checkpoint) ∧ parcels = [(77, some file), (67, some file')]
  acknowledges text := W.restore_ack_from_slice text
    = .ok ⟨module.length, W.sha256_hex module, (journal_of checkpoint).length,
        W.sha256_hex (journal_of checkpoint)⟩

/-- A capture sends the module and the request. -/
def captureTerms (W : Env) (config : WasixWorkerConfig) (binding : WasixCheckpointBinding)
    (module request : Bytes) : Terms where
  config := config
  operation := .CheckpointCapture
  agrees _ := W.sha256_hex module = binding.module_sha256
  inputs files parcels := ∃ file, Sealed files file module ∧
    parcels = [(77, some file)] ++ plainly (frame request)
  acknowledges text := W.capture_ack_from_slice text
    = .ok ⟨module.length, W.sha256_hex module, request.length, W.sha256_hex request⟩

/-! ### An acknowledgement passes exactly when it is the expected one

Each validator compares every field. -/

/-- Of a transport. -/
theorem WasixCheckpointTransportAck.validate_iff {ack : WasixCheckpointTransportAck} :
    ack.validate bytes sha256 = .ok () ↔ ack = ⟨bytes, sha256⟩ := by
  obtain ⟨journal_bytes, journal_sha256⟩ := ack
  simp only [WasixCheckpointTransportAck.validate, reject_eq_ok, Bool.or_eq_false_iff,
    bne_eq_false_iff_eq, WasixCheckpointTransportAck.mk.injEq]

/-- Of a restore. -/
theorem WasixCheckpointRestoreAck.validate_iff {ack : WasixCheckpointRestoreAck} {bytes' : ℕ}
    {sha256' : String} :
    ack.validate bytes sha256 bytes' sha256' = .ok () ↔ ack = ⟨bytes, sha256, bytes', sha256'⟩ := by
  obtain ⟨module_bytes, module_sha256, journal_bytes, journal_sha256⟩ := ack
  simp only [WasixCheckpointRestoreAck.validate, reject_eq_ok, Bool.or_eq_false_iff,
    bne_eq_false_iff_eq, WasixCheckpointRestoreAck.mk.injEq, and_assoc]

theorem ExpectedCheckpointCapture.differs_iff {expected : ExpectedCheckpointCapture}
    {ack : WasixCheckpointCaptureAck} :
    expected.differs ack = false ↔ ack = ⟨expected.module_bytes, expected.module_sha256,
      expected.request_bytes, expected.request_sha256⟩ := by
  obtain ⟨module_bytes, module_sha256, request_bytes, request_sha256⟩ := ack
  simp only [ExpectedCheckpointCapture.differs, Bool.or_eq_false_iff, bne_eq_false_iff_eq,
    WasixCheckpointCaptureAck.mk.injEq, and_assoc]

/-! ## The operations

The lemmas compose along the programs. -/

section Operations

variable {W : Env} {d : Dealings} {command : Command} {worker : WorkerProcess} {files : Files}

open Monitor

/-- The metadata that is returned was accepted. -/
theorem perform_handshake_upholds {T : Terms} (fresh : T.Fresh command worker files d) :
    dealing.Upholds (T.guard W) (Post fun metadata d' => T.Accepted W metadata [] d')
      (perform_handshake W worker T.config.allowed_supplementary_groups) d := by
  unfold perform_handshake
  rw [fresh.build]
  refine .bindF (accept_ready_upholds id fresh.unheard) ?_
  rintro metadata _ ⟨text, htext, rfl⟩
  refine .bindF (piped_post (finish_output_hears _ _)) ?_
  rintro _ _ ⟨_, rfl, status, hstatus, rfl⟩
  refine ⟨command, _, text, status, fresh.hired.said _ _, htext, hstatus, ?_⟩
  rw [List.append_nil]
  rfl

/-- What a transport returns. -/
def TransportAccepted (W : Env) (config : WasixWorkerConfig) (checkpoint : VerifiedWasixCheckpoint)
    (result : WasixCheckpointTransportMetadata) (d : Dealings) : Prop :=
  ∃ acknowledgement, MessageText acknowledgement ∧
    (transportTerms W config checkpoint).acknowledges acknowledgement ∧
    (transportTerms W config checkpoint).Accepted W result.worker (frame acknowledgement) d ∧
    result.journal_bytes = (journal_of checkpoint).length ∧
    result.journal_sha256 = W.sha256_hex (journal_of checkpoint)

variable {config : WasixWorkerConfig} {checkpoint : VerifiedWasixCheckpoint} {file : Fd}
  {module : Bytes}

/-- The acknowledgement is that of the journal that was sent. -/
theorem perform_checkpoint_transport_upholds (patience : ℕ)
    (fresh : (transportTerms W config checkpoint).Fresh command worker files d)
    (hfile : Sealed files file (journal_of checkpoint)) :
    dealing.Upholds ((transportTerms W config checkpoint).guard W)
      (Post (TransportAccepted W config checkpoint))
      (perform_checkpoint_transport W patience worker config.allowed_supplementary_groups
        ⟨file, checkpoint.binding, (journal_of checkpoint).length,
          W.sha256_hex (journal_of checkpoint)⟩) d := by
  unfold perform_checkpoint_transport
  rw [fresh.build]
  refine .bindF (accept_ready_upholds id fresh.unheard) ?_
  rintro metadata _ ⟨text, htext, rfl⟩
  refine .bindF (send_checkpoint_descriptor_upholds patience
    ⟨command, _, text, metadata, fresh.hired.said _ _, htext, rfl⟩ ?_) ?_
  · unfold Terms.Hands
    rw [Dealings.said_sent, Dealings.said_files, fresh.unsent, fresh.files_eq]
    exact ⟨_, ⟨file, hfile, rfl⟩, List.prefix_refl _⟩
  rintro _ _ rfl
  refine .bindF (run_quiet .drop_control trivial fun _ => rfl) ?_
  rintro _ _ rfl
  refine .bindF (piped_post (read_frame_hears W _)) ?_
  rintro acknowledgement _ ⟨_, rfl, hshort, rfl⟩
  refine .bindF (result_upholds _ _) ?_
  rintro ack _ ⟨rfl, hdecoded⟩
  refine .bindF (compute_upholds _) ?_
  rintro _ _ ⟨rfl, hvalid⟩
  refine .bindF (piped_post (finish_output_hears _ _)) ?_
  rintro _ _ ⟨_, rfl, status, hstatus, rfl⟩
  -- An acknowledgement that passes is the one of the journal that was sealed.
  obtain rfl := WasixCheckpointTransportAck.validate_iff.mp hvalid
  refine ⟨acknowledgement, hshort, hdecoded, ⟨command, _, text, status, fresh.hired.said _ _, htext,
    hstatus, ?_⟩, rfl, rfl⟩
  simp only [Dealings.said_heard, Heard.hear_hear]

/-- What a restore returns. -/
def RestoreAccepted (W : Env) (config : WasixWorkerConfig) (checkpoint : VerifiedWasixCheckpoint)
    (module : Bytes) (result : WasixCheckpointRestoreMetadata) (d : Dealings) : Prop :=
  ∃ acknowledgement output, MessageText acknowledgement ∧
    (restoreTerms W config checkpoint module).acknowledges acknowledgement ∧
    RestoreStream W result.stdout result.stderr output ∧
    (restoreTerms W config checkpoint module).Accepted W result.worker
      (frame acknowledgement ++ output) d

/-- Execution is authorized after the acknowledgement of both files. -/
theorem prepare_checkpoint_restore_upholds (patience : ℕ) {file' : Fd}
    (fresh : (restoreTerms W config checkpoint module).Fresh command worker files d)
    (hmodule : Sealed files file module) (hjournal : Sealed files file' (journal_of checkpoint)) :
    dealing.Upholds ((restoreTerms W config checkpoint module).guard W)
      (Post fun result d' => ∃ text acknowledgement,
        (restoreTerms W config checkpoint module).ReadyText W command worker.process_id text
          result.1 ∧
        MessageText acknowledgement ∧
        (restoreTerms W config checkpoint module).acknowledges acknowledgement ∧
        d' = d.said ([(77, some file), (67, some file')] ++ plainly [69])
          (Heard.start.hear (frame text ++ frame acknowledgement)))
      (prepare_checkpoint_restore W patience worker.process_id command.executable.sha256
        config.allowed_supplementary_groups
        ⟨file, file', checkpoint.binding, module.length, W.sha256_hex module,
          (journal_of checkpoint).length, W.sha256_hex (journal_of checkpoint)⟩) d := by
  unfold prepare_checkpoint_restore
  refine .bindF (accept_ready_upholds _ fresh.unheard) ?_
  rintro metadata _ ⟨text, htext, rfl⟩
  rw [fresh.unsent]
  have hready : ∀ sent, (restoreTerms W config checkpoint module).Ready W
      (d.said sent (Heard.start.hear (frame text))) :=
    fun sent => ⟨command, _, text, metadata, fresh.hired.said _ _, htext, rfl⟩
  -- At each of the two sends, what was sent is the beginning of the inputs.
  have hinputs : (restoreTerms W config checkpoint module).inputs d.files
      [(77, some file), (67, some file')] := by
    rw [fresh.files_eq]
    exact ⟨file, file', hmodule, hjournal, rfl⟩
  refine .bindF (.orElse (send_checkpoint_descriptor_upholds patience (hready _)
    ⟨_, hinputs, [(67, some file')], rfl⟩)) ?_
  rintro _ _ rfl
  refine .bindF (.orElse (send_checkpoint_descriptor_upholds patience (hready _)
    ⟨_, hinputs, [], rfl⟩)) ?_
  rintro _ _ rfl
  refine .bindF (.orElse (piped_post (read_frame_hears W _))) ?_
  rintro acknowledgement _ ⟨_, rfl, hshort, rfl⟩
  refine .bindF (result_upholds _ _) ?_
  rintro ack _ ⟨rfl, hdecoded⟩
  refine .bindF (compute_upholds _) ?_
  rintro _ _ ⟨rfl, hvalid⟩
  obtain rfl := WasixCheckpointRestoreAck.validate_iff.mp (mapErr_eq_ok.mp hvalid)
  refine .bindF (authorize_upholds _
    ⟨command, _, text, metadata, acknowledgement, fresh.hired.said _ _, htext, hshort, hdecoded,
      rfl⟩ hinputs) ?_
  rintro _ _ rfl
  refine ⟨text, acknowledgement, htext, hshort, hdecoded, ?_⟩
  simp only [Dealings.said_said, Dealings.said_sent, Dealings.said_heard, Heard.hear_hear]
  rfl

theorem perform_checkpoint_restore_upholds (patience : ℕ) {file' : Fd}
    (fresh : (restoreTerms W config checkpoint module).Fresh command worker files d)
    (hmodule : Sealed files file module) (hjournal : Sealed files file' (journal_of checkpoint)) :
    dealing.Upholds ((restoreTerms W config checkpoint module).guard W)
      (Post (RestoreAccepted W config checkpoint module))
      (perform_checkpoint_restore W patience worker config.allowed_supplementary_groups
        ⟨file, file', checkpoint.binding, module.length, W.sha256_hex module,
          (journal_of checkpoint).length, W.sha256_hex (journal_of checkpoint)⟩) d := by
  unfold perform_checkpoint_restore
  rw [fresh.build]
  refine .bindF (prepare_checkpoint_restore_upholds patience fresh hmodule hjournal) ?_
  rintro ⟨metadata, ack⟩ _ ⟨text, acknowledgement, htext, hshort, hack, rfl⟩
  refine .bindF (run_quiet .drop_control trivial fun _ => rfl) ?_
  rintro _ _ rfl
  refine .bindF (piped_post (finish_checkpoint_restore_hears W _)) ?_
  rintro ⟨stdout, stderr⟩ _ ⟨_, rfl, output, status, hstream, hstatus, rfl⟩
  refine ⟨acknowledgement, output, hshort, hack, hstream, command, _, text, status,
    fresh.hired.said _ _, htext, hstatus, ?_⟩
  simp only [Dealings.said_heard, Heard.hear_hear, List.append_assoc]

/-- What a capture returns. -/
def CaptureAccepted (W : Env) (config : WasixWorkerConfig) (binding : WasixCheckpointBinding)
    (module request : Bytes) (result : WasixCheckpointCapture) (d : Dealings) : Prop :=
  ∃ acknowledgement output, MessageText acknowledgement ∧
    (captureTerms W config binding module request).acknowledges acknowledgement ∧
    CaptureStream W result.journal.bytes result.stdout result.stderr output ∧
    (captureTerms W config binding module request).Accepted W result.worker
      (frame acknowledgement ++ output) d

/-- Execution is authorized after the acknowledgement of module and request. -/
theorem prepare_checkpoint_capture_upholds (patience : ℕ) {binding : WasixCheckpointBinding}
    {request : Bytes}
    (fresh : (captureTerms W config binding module request).Fresh command worker files d)
    (hmodule : Sealed files file module) (hrequest : request ≠ [69]) :
    dealing.Upholds ((captureTerms W config binding module request).guard W)
      (Post fun result d' => ∃ text acknowledgement,
        (captureTerms W config binding module request).ReadyText W command worker.process_id text
          result.1 ∧
        MessageText acknowledgement ∧
        (captureTerms W config binding module request).acknowledges acknowledgement ∧
        d' = d.said ([(77, some file)] ++ plainly (frame request) ++ plainly [69])
          (Heard.start.hear (frame text ++ frame acknowledgement)))
      (prepare_checkpoint_capture W patience worker.process_id command.executable.sha256
        config.allowed_supplementary_groups
        ⟨file, request, binding, module.length, W.sha256_hex module, request.length,
          W.sha256_hex request⟩) d := by
  unfold prepare_checkpoint_capture
  refine .bindF (accept_ready_upholds _ fresh.unheard) ?_
  rintro metadata _ ⟨text, htext, rfl⟩
  rw [fresh.unsent]
  -- Whatever is sent next, the worker has said that it is ready.
  have hready : ∀ sent, (captureTerms W config binding module request).Ready W
      (d.said sent (Heard.start.hear (frame text))) :=
    fun sent => ⟨command, _, text, metadata, fresh.hired.said _ _, htext, rfl⟩
  have hinputs : (captureTerms W config binding module request).inputs d.files
      ([(77, some file)] ++ plainly (frame request)) := by
    rw [fresh.files_eq]
    exact ⟨file, hmodule, rfl⟩
  refine .bindF (.orElse (send_checkpoint_descriptor_upholds patience (hready _)
    ⟨_, hinputs, plainly (frame request), rfl⟩)) ?_
  rintro _ _ rfl
  refine .bindF (.orElse (write_control_frame_upholds hrequest (hready _)
    ⟨_, hinputs, List.prefix_refl _⟩)) ?_
  rintro _ _ rfl
  refine .bindF (.orElse (piped_post (read_frame_hears W _))) ?_
  rintro acknowledgement _ ⟨_, rfl, hshort, rfl⟩
  refine .bindF (result_upholds _ _) ?_
  rintro ack _ ⟨rfl, hdecoded⟩
  refine .bindF (.reject _ _ _) ?_
  rintro _ _ ⟨rfl, hsame⟩
  obtain rfl := ExpectedCheckpointCapture.differs_iff.mp hsame
  refine .bindF (authorize_upholds _
    ⟨command, _, text, metadata, acknowledgement, fresh.hired.said _ _, htext, hshort, hdecoded,
      rfl⟩ hinputs) ?_
  rintro _ _ rfl
  refine .bindF (run_quiet .drop_control trivial fun _ => rfl) ?_
  rintro _ _ rfl
  refine ⟨text, acknowledgement, htext, hshort, hdecoded, ?_⟩
  simp only [Dealings.said_said, Dealings.said_sent, Dealings.said_heard, Heard.hear_hear]
  rfl

theorem perform_checkpoint_capture_upholds (patience handshake_timeout execution_timeout : ℕ)
    {binding : WasixCheckpointBinding} {request : Bytes}
    (fresh : (captureTerms W config binding module request).Fresh command worker files d)
    (hmodule : Sealed files file module) (hrequest : request ≠ [69]) :
    dealing.Upholds ((captureTerms W config binding module request).guard W)
      (Post (CaptureAccepted W config binding module request))
      (perform_checkpoint_capture W patience worker config.allowed_supplementary_groups
        handshake_timeout execution_timeout
        ⟨file, request, binding, module.length, W.sha256_hex module, request.length,
          W.sha256_hex request⟩) d := by
  unfold perform_checkpoint_capture
  rw [fresh.build]
  refine .bindF (interruptedBy_upholds (.orElse
    (prepare_checkpoint_capture_upholds patience fresh hmodule hrequest))) ?_
  rintro ⟨metadata, ack⟩ _ ⟨text, acknowledgement, htext, hshort, hack, rfl⟩
  refine .bindF (interruptedBy_upholds (.orElse
    (piped_post (collect_checkpoint_capture_output_hears W _)))) ?_
  rintro ⟨completion, journal, stdout, stderr⟩ _
    ⟨_, rfl, output, status, hstream, -, hstatus, rfl⟩
  refine .bindF (compute_upholds _) ?_
  rintro captured _ ⟨rfl, hcaptured⟩
  obtain ⟨-, -, -, rfl⟩ := from_attested_worker_capture_eq_ok (mapErr_eq_ok.mp hcaptured)
  refine ⟨acknowledgement, output, hshort, hack, hstream, command, _, text, status,
    fresh.hired.said _ _, htext, hstatus, ?_⟩
  simp only [Dealings.said_heard, Heard.hear_hear, List.append_assoc]

/-! ## From the caller's arguments

Each operation as a whole, its preparations included. -/

/-- The whole probe. -/
theorem probe_wasix_worker_upholds (config : WasixWorkerConfig) (files : Files) :
    dealing.Upholds ((probeTerms config).guard W)
      (Post fun metadata d => (probeTerms config).Accepted W metadata [] d)
      (probe_wasix_worker W config) (.start files) := by
  unfold probe_wasix_worker
  refine .bindF (compute_upholds _) ?_
  rintro _ _ ⟨rfl, -⟩
  refine .bindF (pin_executable_upholds config rfl) ?_
  rintro executable _ rfl
  unfold probe_wasix_worker_linux
  refine .bindF (command_upholds executable _) ?_
  rintro _ _ ⟨rfl, rfl⟩
  refine .bindF (spawn_wasix_worker_upholds (T := probeTerms config) rfl trivial rfl rfl) ?_
  intro worker d fresh
  refine .bindF (take_pipe_upholds _ (act_quiet .take_stdout trivial fun _ => rfl)) ?_
  rintro _ _ rfl
  refine supervised_upholds _ ?_
  refine .bind (interruptedBy_upholds (interruptedBy_upholds
    (perform_handshake_upholds fresh))) ?_
  intro outcome d' houtcome
  exact reap_failed_upholds houtcome

/-- The whole transport probe. -/
theorem probe_wasix_checkpoint_transport_upholds (patience : ℕ) (config : WasixWorkerConfig)
    (checkpoint : VerifiedWasixCheckpoint) (files : Files) :
    dealing.Upholds ((transportTerms W config checkpoint).guard W)
      (Post (TransportAccepted W config checkpoint))
      (probe_wasix_checkpoint_transport W patience config checkpoint) (.start files) := by
  unfold probe_wasix_checkpoint_transport
  refine .bindF (compute_upholds _) ?_
  rintro _ _ ⟨rfl, -⟩
  refine .bindF (pin_executable_upholds config rfl) ?_
  rintro executable _ rfl
  unfold probe_wasix_checkpoint_transport_linux
  refine .bindF (compute_upholds _) ?_
  rintro ⟨journal, build⟩ _ ⟨rfl, hparts⟩
  obtain ⟨rfl, rfl⟩ := Prod.mk.inj (into_parts_eq_ok hparts)
  dsimp only
  refine .bindF (.reject _ _ _) ?_
  rintro _ _ ⟨rfl, hbuild⟩
  refine .bindF (.reject _ _ _) ?_
  rintro _ _ ⟨rfl, -⟩
  refine .bindF (run_quiet .now trivial fun _ => rfl) ?_
  rintro now _ rfl
  refine .bindF (prepare_checkpoint_upholds _ _ rfl) ?_
  rintro ⟨file, bytes, sha256⟩ _ ⟨files', rfl, hprepared⟩
  refine .bindF (remaining_until_upholds _) ?_
  rintro remaining _ rfl
  refine .bindF checkpoint_control_channel_upholds ?_
  rintro _ _ rfl
  refine .bindF (command_upholds executable _) ?_
  rintro _ _ ⟨rfl, rfl⟩
  refine .bindF (spawn_wasix_worker_upholds (T := transportTerms W config checkpoint) rfl
    (bne_eq_false_iff_eq.mp hbuild) rfl rfl) ?_
  intro worker d fresh
  refine .bindF (take_pipe_upholds _ (act_quiet .take_stdout trivial fun _ => rfl)) ?_
  rintro _ _ rfl
  refine supervised_upholds _ ?_
  obtain rfl := hprepared.bytes_eq
  obtain rfl := hprepared.sha256_eq
  refine .bind (interruptedBy_upholds (interruptedBy_upholds
    (perform_checkpoint_transport_upholds patience fresh hprepared.sealed))) ?_
  intro outcome d' houtcome
  exact reap_failed_upholds houtcome

/-- The whole restore. -/
theorem restore_wasix_checkpoint_upholds (patience : ℕ) (config : WasixWorkerConfig)
    (checkpoint : VerifiedWasixCheckpoint) (module : Bytes) (files : Files) :
    dealing.Upholds ((restoreTerms W config checkpoint module).guard W)
      (Post (RestoreAccepted W config checkpoint module))
      (restore_wasix_checkpoint W patience config checkpoint module) (.start files) := by
  unfold restore_wasix_checkpoint
  refine .bindF (compute_upholds _) ?_
  rintro _ _ ⟨rfl, -⟩
  refine .bindF (pin_executable_upholds config rfl) ?_
  rintro executable _ rfl
  unfold restore_wasix_checkpoint_linux
  refine .bindF (.reject _ _ _) ?_
  rintro _ _ ⟨rfl, -⟩
  refine .bindF (.reject _ _ _) ?_
  rintro _ _ ⟨rfl, -⟩
  refine .bindF (compute_upholds _) ?_
  rintro ⟨journal, build⟩ _ ⟨rfl, hparts⟩
  obtain ⟨rfl, rfl⟩ := Prod.mk.inj (into_parts_eq_ok hparts)
  dsimp only
  refine .bindF (.reject _ _ _) ?_
  rintro _ _ ⟨rfl, hbuild⟩
  refine .bindF (.reject _ _ _) ?_
  rintro _ _ ⟨rfl, -⟩
  refine .bindF (run_quiet .now trivial fun _ => rfl) ?_
  rintro now _ rfl
  refine .bindF (prepare_module_upholds _ _ rfl) ?_
  rintro ⟨file, bytes, sha256⟩ _ ⟨files', rfl, hmodule⟩
  obtain rfl := hmodule.bytes_eq
  obtain rfl := hmodule.sha256_eq
  refine .bindF (.reject _ _ _) ?_
  rintro _ _ ⟨rfl, hdigest⟩
  refine .bindF (remaining_until_upholds _) ?_
  rintro remaining _ rfl
  refine .bindF (prepare_checkpoint_upholds _ _ rfl) ?_
  rintro ⟨file', bytes, sha256⟩ _ ⟨files'', rfl, hjournal⟩
  obtain rfl := hjournal.bytes_eq
  obtain rfl := hjournal.sha256_eq
  refine .bindF (remaining_until_upholds _) ?_
  rintro remaining' _ rfl
  refine .bindF checkpoint_control_channel_upholds ?_
  rintro _ _ rfl
  refine .bindF (command_upholds executable _) ?_
  rintro _ _ ⟨rfl, rfl⟩
  -- Nothing was sent so far, and both digests have been compared: the terms of the spawn.
  refine .bindF (spawn_wasix_worker_upholds (T := restoreTerms W config checkpoint module) rfl
    ⟨bne_eq_false_iff_eq.mp hbuild, bne_eq_false_iff_eq.mp hdigest⟩ rfl rfl) ?_
  intro worker d fresh
  refine .bindF (take_pipe_upholds _ (act_quiet .take_stdout trivial fun _ => rfl)) ?_
  rintro _ _ rfl
  refine .bindF (take_pipe_upholds _ (act_quiet .take_stderr trivial fun _ => rfl)) ?_
  rintro _ _ rfl
  refine supervised_upholds _ ?_
  refine .bind (interruptedBy_upholds (interruptedBy_upholds (.orElse
    (perform_checkpoint_restore_upholds patience fresh (hjournal.keeps hmodule.sealed)
      hjournal.sealed)))) ?_
  intro outcome d' houtcome
  exact conclude_restore_upholds houtcome fun _ _ _ h => h

/-- The request that a capture sends. -/
def request_of (command : CommandInput) : Bytes :=
  to_vec (WasixCheckpointCaptureRequest.to_json ⟨command.args, command.env⟩)

theorem capture_request_new_eq_ok {command : CommandInput}
    {result : WasixCheckpointCaptureRequest × ℕ}
    (h : WasixCheckpointCaptureRequest.new command = .ok result) :
    result = (⟨command.args, command.env⟩, command.timeout) := by
  obtain ⟨_, -, h⟩ := bind_eq_ok.mp h
  obtain ⟨_, -, h⟩ := bind_eq_ok.mp h
  obtain ⟨_, -, h⟩ := bind_eq_ok.mp h
  exact (Exec.ok.inj h).symm

/-- A request is an object, so it begins with a brace. -/
theorem request_ne_authorization (request : WasixCheckpointCaptureRequest) :
    to_vec request.to_json ≠ [69] := by
  intro h
  have hhead := congrArg List.head? h
  simp [to_vec, WasixCheckpointCaptureRequest.to_json, Json.render, Json.obj] at hhead

theorem capture_wasix_checkpoint_linux_upholds (patience : ℕ) (config : WasixWorkerConfig)
    {executable : PinnedWorkerExecutable} (binding : WasixCheckpointBinding) (module : Bytes)
    (request : WasixCheckpointCaptureRequest) (execution_timeout : ℕ)
    (hpinned : d.pinned = some executable) (hsent : d.sent = []) (hheard : d.heard = Heard.start) :
    dealing.Upholds ((captureTerms W config binding module (to_vec request.to_json)).guard W)
      (Post (CaptureAccepted W config binding module (to_vec request.to_json)))
      (capture_wasix_checkpoint_linux W patience config executable binding module request
        execution_timeout) d := by
  unfold capture_wasix_checkpoint_linux
  have hrequest := request_ne_authorization request
  -- Of the request only this is used: it is not the byte that authorizes.
  generalize to_vec request.to_json = request at hrequest ⊢
  refine .bindF (.reject _ _ _) ?_
  rintro _ _ ⟨rfl, -⟩
  refine .bindF (.reject _ _ _) ?_
  rintro _ _ ⟨rfl, -⟩
  refine .bindF (.reject _ _ _) ?_
  rintro _ _ ⟨rfl, -⟩
  refine .bindF (.ok_or _ _ _) ?_
  rintro request_bytes _ ⟨rfl, hbytes⟩
  obtain rfl := (tryFrom_eq_some.mp hbytes).2
  refine .bindF (run_quiet .now trivial fun _ => rfl) ?_
  rintro now _ rfl
  refine .bindF (prepare_module_unless_cancelled_upholds _ _ hsent) ?_
  rintro ⟨file, bytes, sha256⟩ _ ⟨files', rfl, hmodule⟩
  obtain rfl := hmodule.bytes_eq
  obtain rfl := hmodule.sha256_eq
  refine .bindF (.reject _ _ _) ?_
  rintro _ _ ⟨rfl, hdigest⟩
  refine .bindF (remaining_until_upholds _) ?_
  rintro remaining _ rfl
  refine .bindF checkpoint_control_channel_upholds ?_
  rintro _ _ rfl
  refine .bindF (command_upholds executable _) ?_
  rintro _ _ ⟨rfl, rfl⟩
  refine .bindF (spawn_wasix_worker_upholds (T := captureTerms W config binding module request)
    hpinned (bne_eq_false_iff_eq.mp hdigest) hsent hheard) ?_
  intro worker d fresh
  refine .bindF (take_pipe_upholds _ (act_quiet .take_stdout trivial fun _ => rfl)) ?_
  rintro _ _ rfl
  refine .bindF (take_pipe_upholds _ (act_quiet .take_stderr trivial fun _ => rfl)) ?_
  rintro _ _ rfl
  refine supervised_upholds _ ?_
  refine .bind (interruptedBy_upholds (interruptedBy_upholds (.orElse
    (perform_checkpoint_capture_upholds patience _ _ fresh hmodule.sealed hrequest)))) ?_
  intro outcome d' houtcome
  exact conclude_capture_upholds houtcome

/-- The whole capture. -/
theorem capture_wasix_checkpoint_upholds (patience : ℕ) (config : WasixWorkerConfig)
    (binding : WasixCheckpointBinding) (module : Bytes) (input : CommandInput) (files : Files) :
    dealing.Upholds ((captureTerms W config binding module (request_of input)).guard W)
      (Post (CaptureAccepted W config binding module (request_of input)))
      (capture_wasix_checkpoint W patience config binding module input) (.start files) := by
  unfold capture_wasix_checkpoint
  refine .bindF (compute_upholds _) ?_
  rintro _ _ ⟨rfl, -⟩
  refine .bindF (compute_upholds _) ?_
  rintro ⟨request, execution_timeout⟩ _ ⟨rfl, hnew⟩
  obtain ⟨rfl, rfl⟩ := Prod.mk.inj (capture_request_new_eq_ok hnew)
  refine .bindF (run_quiet (.poll .cancelled) trivial fun _ => rfl) ?_
  rintro cancelled _ rfl
  refine .bindF (.reject _ _ _) ?_
  rintro _ _ ⟨rfl, -⟩
  refine .bindF (pin_executable_upholds config rfl) ?_
  rintro executable _ rfl
  exact capture_wasix_checkpoint_linux_upholds patience config binding module _ _ rfl rfl rfl

end Operations

/-! ## Fail closed

What holds of a program holds at each effect of each of its runs. -/

/-- An operation fails closed: in every run, whatever the worker and the clock do, each send is
one its terms allow, and a result is returned only after everything in `accepted`. -/
structure FailsClosed {α : Type} (W : Env) (T : Terms) (accepted : α → Dealings → Prop)
    (operation : ParentM Error α) : Prop where
  guarded : ∀ files op rest d,
    dealing.Comes operation (.start files) (.vis op rest) d → T.guard W d op
  returned : ∀ files result d,
    dealing.Comes operation (.start files) (.ret (.ok result)) d → accepted result d

/-- From a program to its runs. -/
theorem failsClosed_of_upholds {α : Type} {accepted : α → Dealings → Prop}
    {operation : ParentM Error α}
    (h : ∀ files, dealing.Upholds (T.guard W) (Monitor.Post accepted) operation (.start files)) :
    FailsClosed W T accepted operation := by
  refine ⟨?_, ?_⟩
  · intro files op rest d hcomes
    exact ((h files).comes hcomes).1
  · intro files result d hcomes
    exact (h files).comes hcomes

/-- All four operations fail closed against an arbitrary worker. -/
theorem parent_fails_closed (W : Env) (patience : ℕ) (config : WasixWorkerConfig) :
    FailsClosed W (probeTerms config) (fun metadata => (probeTerms config).Accepted W metadata [])
      (probe_wasix_worker W config) ∧
    (∀ checkpoint, FailsClosed W (transportTerms W config checkpoint)
      (TransportAccepted W config checkpoint)
      (probe_wasix_checkpoint_transport W patience config checkpoint)) ∧
    (∀ checkpoint module, FailsClosed W (restoreTerms W config checkpoint module)
      (RestoreAccepted W config checkpoint module)
      (restore_wasix_checkpoint W patience config checkpoint module)) ∧
    ∀ binding module input, FailsClosed W (captureTerms W config binding module (request_of input))
      (CaptureAccepted W config binding module (request_of input))
      (capture_wasix_checkpoint W patience config binding module input) := by
  refine ⟨?_, ?_, ?_, ?_⟩
  · exact failsClosed_of_upholds (probe_wasix_worker_upholds config)
  · intro checkpoint
    exact failsClosed_of_upholds
      (probe_wasix_checkpoint_transport_upholds patience config checkpoint)
  · intro checkpoint module
    exact failsClosed_of_upholds
      (restore_wasix_checkpoint_upholds patience config checkpoint module)
  · intro binding module input
    exact failsClosed_of_upholds
      (capture_wasix_checkpoint_upholds patience config binding module input)

end WasmRuntime.Worker
