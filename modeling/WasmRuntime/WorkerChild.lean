/-
`wasix_worker.rs`, the worker: `write_wasix_checkpoint_restore` and
`write_wasix_checkpoint_capture`, from the Ready frame to the execution of the guest and the output
that follows.
-/
import WasmRuntime.SealedInput
import WasmRuntime.WorkerTranscript

set_option autoImplicit false

namespace WasmRuntime.Worker

open ByteCodec Prog

/-! ## Effects

The two programs are over the worker's own effects. It reports itself, takes descriptors and bytes
from the control socket, which is its standard input, reads the sealed files, writes frames to its
standard output, and executes the guest. The execution is one effect for each operation: the module
is compiled and run by an engine that is not part of this repository, and all that is said of it
here is what it is given. -/

/-- What came with a byte: files, or something else. -/
inductive Ancillary where
  | rights (files : List Fd)
  | other
  deriving DecidableEq

/-- What one `recvmsg` into one byte delivers: how many bytes came, the byte, whether something
was cut off, and what came with it. -/
structure Message where
  bytes : ℕ
  marker : UInt8
  truncated : Bool
  ancillary : List Ancillary
  deriving DecidableEq

/-- What the worker does. `read` is one read of the control socket into so many bytes, `open_null`
and `dup2_stdin` close it, `abort` is what a panic comes to. -/
inductive ChildOp where
  | current_worker_build_sha256
  | enter_wasix_worker_isolation
  | process_id
  | writer (op : WriterOp)
  | recvmsg
  | read (len : ℕ)
  | input (op : InputOp)
  | open_null
  | dup2_stdin
  | execute_restore (module : Bytes) (journal : Fd)
  | execute_capture (module : Bytes) (request : WasixCheckpointCaptureRequest)
  | abort

/-- What each effect is answered with. -/
@[reducible] def ChildAnswer : ChildOp → Type
  | .current_worker_build_sha256 => Except String String
  | .enter_wasix_worker_isolation => Except String WasixWorkerIsolation
  | .process_id => UInt32
  | .writer op => WriterAnswer op
  | .recvmsg => Except String Message
  | .read len => Except String { bytes : Bytes // bytes.length ≤ len }
  | .input op => InputAnswer op
  | .open_null => Except String Unit
  | .dup2_stdin => Except String Unit
  | .execute_restore _ _ => Except String ExecutedCheckpointRestore
  | .execute_capture _ _ => Except String ExecutedCheckpointCapture
  | .abort => Empty

/-- A program of the worker. -/
abbrev ChildM := Fallible ChildOp ChildAnswer String

/-- One call, and its answer. -/
def serve (op : ChildOp) : Prog ChildOp ChildAnswer (ChildAnswer op) := perform op

/-- A program that writes to standard output, as a part of the worker's. -/
def writes {α : Type} (p : WriterM α) : ChildM α := p.lift .writer fun _ answer => answer

/-- A program that reads sealed files, as a part of the worker's. -/
def inspects {α : Type} (p : InputM String α) : ChildM α := p.lift .input fun _ answer => answer

/-- A computation without effects. A panic is not answered. -/
def worked {α : Type} : Exec String α → ChildM α
  | .ok v => .ret (.ok v)
  | .err e => .ret (.error e)
  | .panic | .div => .vis .abort fun answer => answer.elim

/-! ## The control socket

Descriptors come with a byte each, the request in a frame, the authorization as the byte `E`. -/

/-- The loop of `receive_checkpoint_descriptor` over what came with the byte. -/
def take_descriptor (label : String) : Option Fd → List Ancillary → Except String Fd
  | some file, [] => .ok file
  | none, [] => .error (label ++ " descriptor message did not contain a file")
  | _, .other :: _ => .error (label ++ " descriptor message has unexpected metadata")
  | _, .rights [] :: _ => .error (label ++ " descriptor message is empty")
  | found, .rights (file :: files) :: rest =>
    if found.isSome || !files.isEmpty then
      .error (label ++ " descriptor message contains multiple files")
    else take_descriptor label (some file) rest

def receive_checkpoint_descriptor (expected_marker : UInt8) (label : String) : ChildM Fd := do
  let message ← Fallible.orElse
    (fun error => "cannot receive " ++ label ++ " descriptor: " ++ error) (serve .recvmsg)
  Fallible.reject (message.bytes != 1 || message.marker != expected_marker || message.truncated)
    (label ++ " descriptor message is malformed")
  Fallible.ofExcept (take_descriptor label none message.ancillary)

/-- The loop of `Read::read_exact`. -/
def read_control_loop : ℕ → ℕ → Bytes → ChildM Bytes
  | 0, _, read => pure read
  | fuel + 1, missing, read =>
    if missing = 0 then pure read
    else do
      let bytes ← Fallible.orElse id (serve (.read missing))
      Fallible.reject bytes.val.isEmpty "failed to fill whole buffer"
      read_control_loop fuel (missing - bytes.val.length) (read ++ bytes.val)

/-- `Read::read_exact` on the control socket, which fills a buffer of `len` bytes. -/
def read_control_exact (len : ℕ) : ChildM Bytes := read_control_loop len len []

def read_worker_control_frame (W : Env) (maximum : ℕ) (label : String) : ChildM Bytes := do
  let header ← Fallible.orElse (fun error => "cannot read " ++ label ++ " length: " ++ error)
    (read_control_exact 4)
  let length := (Exec.tryFrom W.usize_max (beVal header)).getD W.usize_max
  Fallible.reject (length == 0 || decide (length > maximum))
    (label ++ " length " ++ Nat.repr length ++ " is invalid")
  Fallible.orElse (fun error => "cannot allocate " ++ label ++ ": " ++ error)
    (serve (.input (.try_reserve length)))
  Fallible.orElse (fun error => "cannot read " ++ label ++ ": " ++ error)
    (read_control_exact length)

/-- `read_worker_execute_authorization`, and the same lines in `write_wasix_checkpoint_restore`.
69 is `E`. -/
def read_worker_execute_authorization (operation : String) : ChildM Unit := do
  let authorization ← Fallible.orElse
    (fun error => "cannot read " ++ operation ++ " authorization: " ++ error) (read_control_exact 1)
  Fallible.reject (authorization != [69]) (operation ++ " authorization is malformed")
  let trailing ← Fallible.orElse
    (fun error => "cannot finish " ++ operation ++ " authorization: " ++ error) (serve (.read 1))
  Fallible.reject (trailing.val.length != 0)
    (operation ++ " authorization contains trailing bytes")

/-! ## The two programs

A restore takes two descriptors, a capture one descriptor and a request. -/

/-- `WasixWorkerMetadata::current`. -/
def WasixWorkerMetadata.current (isolation : WasixWorkerIsolation) (worker_build_sha256 : String)
    (process_id : UInt32) : WasixWorkerMetadata where
  protocol_version := WASIX_WORKER_PROTOCOL_VERSION
  runtime_version := CARGO_PKG_VERSION
  cohort_id := WASIX_COHORT_ID
  worker_build_sha256 := worker_build_sha256
  process_id := process_id
  isolation := isolation

/-- How both programs begin: the Ready frame. -/
def report_ready : ChildM Unit := do
  let worker_build_sha256 ← Fallible.orElse id (serve .current_worker_build_sha256)
  let isolation ← Fallible.orElse id (serve .enter_wasix_worker_isolation)
  let process_id ← Fallible.run (serve .process_id)
  writes (write_worker_frame
    (to_vec (WasixWorkerMetadata.current isolation worker_build_sha256 process_id).to_json))

/-- How both let go of the control socket. -/
def clear_stdin (operation : String) : ChildM Unit := do
  Fallible.orElse (fun error => "cannot open null input for " ++ operation ++ " worker: " ++ error)
    (serve .open_null)
  Fallible.orElse (fun error => "cannot clear " ++ operation ++ " worker stdin: " ++ error)
    (serve .dup2_stdin)

/-- `execute_wasix_checkpoint_restore`: the module is read, the rest is the engine's. -/
def execute_wasix_checkpoint_restore (W : Env) (module : Fd) (module_length : ℕ) (journal : Fd) :
    ChildM ExecutedCheckpointRestore := do
  let module_bytes ← inspects (read_sealed_module_bytes W module module_length)
  Fallible.orElse id (serve (.execute_restore module_bytes journal))

/-- `execute_wasix_checkpoint_capture`: the module is read, the rest is the engine's, down to the
journal that comes of it. -/
def execute_wasix_checkpoint_capture (W : Env) (module : Fd) (module_length : ℕ)
    (request : WasixCheckpointCaptureRequest) : ChildM ExecutedCheckpointCapture := do
  let module_bytes ← inspects (read_sealed_module_bytes W module module_length)
  Fallible.orElse id (serve (.execute_capture module_bytes request))

def write_wasix_checkpoint_restore (W : Env) : ChildM Unit := do
  report_ready
  let module ← receive_checkpoint_descriptor 77 "module"
  let module_metadata ← inspects
    (inspect_sealed_worker_input W module WASIX_WORKER_MAX_MODULE_BYTES "module")
  let journal ← receive_checkpoint_descriptor 67 "checkpoint"
  let journal_metadata ← inspects
    (inspect_sealed_worker_input W journal WASIX_WORKER_MAX_CHECKPOINT_BYTES "checkpoint")
  let acknowledgement : WasixCheckpointRestoreAck := {
    module_bytes := module_metadata.bytes
    module_sha256 := module_metadata.sha256
    journal_bytes := journal_metadata.bytes
    journal_sha256 := journal_metadata.sha256 }
  writes (write_worker_frame (to_vec acknowledgement.to_json))
  read_worker_execute_authorization "restore"
  clear_stdin "restore"
  let restored ← execute_wasix_checkpoint_restore W module module_metadata.bytes journal
  writes (write_restored_output W restored)

def write_wasix_checkpoint_capture (W : Env) : ChildM Unit := do
  report_ready
  let module ← receive_checkpoint_descriptor 77 "module"
  let module_metadata ← inspects
    (inspect_sealed_worker_input W module WASIX_WORKER_MAX_MODULE_BYTES "module")
  let request_text ← read_worker_control_frame W WASIX_WORKER_MAX_CAPTURE_REQUEST_BYTES
    "capture request"
  let request ← Fallible.orElse ("cannot decode capture request: " ++ ·)
    (.ret (W.capture_request_from_slice request_text))
  worked request.validate
  let request_bytes ← Fallible.ok_or "capture request length overflows u64"
    (Exec.tryFrom u64_max request_text.length)
  let acknowledgement : WasixCheckpointCaptureAck := {
    module_bytes := module_metadata.bytes
    module_sha256 := module_metadata.sha256
    request_bytes := request_bytes
    request_sha256 := W.sha256_hex request_text }
  writes (write_worker_frame (to_vec acknowledgement.to_json))
  read_worker_execute_authorization "capture"
  clear_stdin "capture"
  let captured ← execute_wasix_checkpoint_capture W module module_metadata.bytes request
  writes (write_captured_output W captured)

/-! ## The history

What the worker may execute is judged by its own history (`Served`): what it has written, what it
has taken from the socket and when it found the end of it. The parent is arbitrary here, as the
worker is in `ParentFailClosed`. -/

/-- The files that came in one piece. -/
def Ancillary.files : Ancillary → List Fd
  | .rights files => files
  | .other => []

/-- The descriptor that came with a byte, if one did. -/
def Message.file (message : Message) : Option Fd :=
  (message.ancillary.flatMap Ancillary.files).head?

/-- What the worker has written to its standard output, what it has taken from the control socket,
and what that was when it found the end. Of a write that failed a part may have gone out; the
history counts all of it. -/
structure Served where
  written : Bytes
  taken : List Parcel
  ended : Option (List Parcel)

/-- Nothing yet. -/
def Served.start : Served := ⟨[], [], none⟩

/-- More came over the socket. -/
def Served.take (t : Served) (parcels : List Parcel) : Served :=
  { t with taken := t.taken ++ parcels }

/-- More was written. -/
def Served.write (t : Served) (bytes : Bytes) : Served := { t with written := t.written ++ bytes }

/-- The socket is at its end. -/
def Served.finish (t : Served) : Served := { t with ended := some t.taken }

/-- What an effect and its answer add. A byte that is not read by `recvmsg` comes without its
descriptor. -/
def Served.after (t : Served) : (op : ChildOp) → ChildAnswer op → Served
  | .writer (.write_all bytes), _ => t.write bytes
  | .recvmsg, .ok message =>
    if message.bytes = 0 then t.finish else t.take [(message.marker, message.file)]
  | .read len, .ok bytes =>
    if 0 < len ∧ bytes.val = [] then t.finish else t.take (plainly bytes.val)
  | _, _ => t

/-- Any parent, any timing. What is read of a file that no longer changes is what `image` says it
holds. -/
def serving (image : Fd → Option Bytes) : Monitor Served ChildOp ChildAnswer where
  ok
    | _, .input op, answer => (reading image).ok () op answer
    | _, _, _ => True
  after := Served.after

/-! ## When a guest may be executed

No guest but the one in the file that came first, and only after the byte `E` and the end of the
socket. -/

/-- The text of the Ready frame of a worker that finds this of itself. -/
def ready_text (isolation : WasixWorkerIsolation) (worker_build_sha256 : String)
    (process_id : UInt32) : Bytes :=
  to_vec (WasixWorkerMetadata.current isolation worker_build_sha256 process_id).to_json

/-- The worker has said that it is ready and has acknowledged its inputs, which are these, and then
it has received the byte `E` and nothing more. -/
structure Served.Authorized (t : Served) (inputs : List Parcel) : Prop where
  reported : ∃ isolation worker_build_sha256 process_id acknowledgement,
    (ready_text isolation worker_build_sha256 process_id).length ≤ MAX_HANDSHAKE_BYTES ∧
    t.written = frame (ready_text isolation worker_build_sha256 process_id)
      ++ frame acknowledgement
  taken : t.taken = inputs ++ plainly [69]
  ended : t.ended = some t.taken

/-- A guest is executed after the authorization. Its module is what the first file holds, its
journal is the second file, its request is the text that came with the first. Nothing is read
before something came. -/
def Served.guard (W : Env) (image : Fd → Option Bytes) (t : Served) : ChildOp → Prop
  | .execute_restore module journal => ∃ file,
      t.Authorized [(77, some file), (67, some journal)] ∧
      ∀ content, image file = some content → module = content
  | .execute_capture module request => ∃ file text,
      t.Authorized ([(77, some file)] ++ plainly (frame text)) ∧
      text.length ≤ WASIX_WORKER_MAX_CAPTURE_REQUEST_BYTES ∧
      W.capture_request_from_slice text = .ok request ∧
      ∀ content, image file = some content → module = content
  | .input _ => t.taken ≠ []
  | _ => True

/-! ## Single effects

What one call adds to the history. -/

section Effects

variable {W : Env} {image : Fd → Option Bytes} {t : Served}

open Monitor

theorem Served.take_take (t : Served) (parcels parcels' : List Parcel) :
    (t.take parcels).take parcels' = t.take (parcels ++ parcels') := by
  simp [Served.take]

theorem Served.take_nil (t : Served) : t.take [] = t := by simp [Served.take]

theorem serve_upholds (op : ChildOp) {Q : ChildAnswer op → Served → Prop}
    (hguard : t.guard W image op) (hQ : ∀ r, (serving image).ok t op r → Q r (t.after op r)) :
    (serving image).Upholds (Served.guard W image) Q (serve op) t := ⟨hguard, hQ⟩

theorem worked_upholds {α : Type} (x : Exec String α) :
    (serving image).Upholds (Served.guard W image) (Post fun a t' => t = t' ∧ x = .ok a)
      (worked x) t := by
  cases x with
  | ok v => exact ⟨rfl, rfl⟩
  | err e => exact trivial
  | panic => exact ⟨trivial, fun r => r.elim⟩
  | div => exact ⟨trivial, fun r => r.elim⟩

/-- The worker's pipe, which may refuse what is written. -/
def attempting : Monitor Bytes WriterOp WriterAnswer where
  ok _ _ _ := True
  after := writing.after

/-- A frame that was written. -/
theorem write_worker_frame_attempts (message w : Bytes) :
    attempting.Upholds anyEffect
      (Post fun _ w' => message.length ≤ MAX_HANDSHAKE_BYTES ∧ w' = w ++ frame message)
      (write_worker_frame message) w := by
  unfold write_worker_frame write_length_prefixed
  refine .bindF (.reject _ _ _) ?_
  rintro _ _ ⟨rfl, hshort⟩
  refine .bindF (.ok_or _ _ _) ?_
  rintro length _ ⟨rfl, hlength⟩
  obtain rfl := (Exec.tryFrom_eq_some.mp hlength).2
  refine .bindF (.orElse_any (I := fun w' => w' = w ++ be 4 message.length)
    (.perform trivial fun _ _ => rfl)) ?_
  rintro _ _ rfl
  refine .bindF (.orElse_any
    (I := fun w' => w' = w ++ be 4 message.length ++ message)
    (.perform trivial fun _ _ => rfl)) ?_
  rintro _ _ rfl
  refine .monoF (.orElse_any
    (I := fun w' => w' = w ++ be 4 message.length ++ message)
    (.perform trivial fun _ _ => rfl)) ?_
  rintro _ _ rfl
  exact ⟨by simpa using hshort, List.append_assoc _ _ _⟩

/-- What a program of the output pipe writes, the worker writes. -/
theorem writes_upholds {α : Type} {p : WriterM α} {Q : α → Bytes → Prop}
    (h : attempting.Upholds anyEffect (Post Q) p t.written) :
    (serving image).Upholds (Served.guard W image)
      (Post fun a t' => ∃ written, t' = { t with written } ∧ Q a written) (writes p) t := by
  have hlifted : (serving image).Upholds (Served.guard W image)
      (fun a t' => ∃ written, t' = { t with written } ∧ Post Q a written) (writes p) t := by
    refine .lift (fun written => { t with written }) ?_ ?_ ?_ ?_ h
    · exact fun _ _ _ _ _ => trivial
    · intro w op r _
      cases op with
      | write_all bytes => exact rfl
      | flush => exact rfl
    · exact fun _ _ _ => trivial
    · exact fun a written ha => ⟨written, rfl, ha⟩
  refine .mono hlifted ?_
  rintro r _ ⟨written, rfl, hr⟩
  cases r with
  | error e => exact trivial
  | ok a => exact ⟨written, rfl, hr⟩

/-- A frame that was written. -/
theorem write_frame_upholds (message : Bytes) :
    (serving image).Upholds (Served.guard W image)
      (Post fun _ t' => message.length ≤ MAX_HANDSHAKE_BYTES ∧ t' = t.write (frame message))
      (writes (write_worker_frame message)) t := by
  refine .monoF (writes_upholds (write_worker_frame_attempts message t.written)) ?_
  rintro _ _ ⟨_, rfl, hshort, rfl⟩
  exact ⟨hshort, rfl⟩

/-- What the worker finds out of a file that no longer changes is true of what it holds. -/
theorem inspects_upholds {α : Type} {p : InputM String α} {file : Fd} {Q : Bytes → α → Prop}
    (htaken : t.taken ≠ [])
    (h : ∀ content, image file = some content →
      (reading image).Upholds readsOnly (Post fun a _ => Q content a) p ()) :
    (serving image).Upholds (Served.guard W image)
      (Post fun a t' => t = t' ∧ ∀ content, image file = some content → Q content a)
      (inspects p) t := by
  -- Of a file that may change nothing is known, and nothing is asked.
  have hp : (reading image).Upholds anyEffect
      (fun r _ => ∀ a, r = .ok a → ∀ content, image file = some content → Q content a) p () := by
    cases himage : image file with
    | none =>
      refine .free (fun _ _ => trivial) ?_ p ()
      intro r _ a _ content hcontent
      cases hcontent
    | some content =>
      refine .weaken (fun _ _ _ => trivial) (fun _ _ _ hr => hr) rfl
        (.mono (h content himage) ?_)
      rintro r _ hr a rfl _ hcontent
      obtain rfl := Option.some.inj hcontent
      exact hr
  refine .lift (fun _ => t) (fun _ _ _ _ hr => hr) (fun _ _ _ _ => rfl)
    (fun _ _ _ => htaken) ?_ hp
  intro r _ hr
  cases r with
  | error e => exact trivial
  | ok a => exact ⟨rfl, hr a rfl⟩

/-! ## The socket

What was returned is what was taken. -/

/-- A descriptor that was taken out of a message is the first that came with it. -/
theorem take_descriptor_eq_ok {label : String} {found : Option Fd} {pieces : List Ancillary}
    {file : Fd} (h : take_descriptor label found pieces = .ok file) :
    (found.toList ++ pieces.flatMap Ancillary.files).head? = some file := by
  induction pieces generalizing found with
  | nil =>
    cases found with
    | none => cases h
    | some _ =>
      cases h
      rfl
  | cons piece rest ih =>
    rcases piece with (_ | ⟨first, files⟩) | _
    · cases found <;> cases h
    · cases found with
      | some _ => cases h
      | none =>
        unfold take_descriptor at h
        split_ifs at h with hmany
        exact ih h
    · cases found <;> cases h

/-- A descriptor that was received came with its marker. -/
theorem receive_checkpoint_descriptor_upholds (marker : UInt8) (label : String) :
    (serving image).Upholds (Served.guard W image)
      (Post fun file t' => t' = t.take [(marker, some file)])
      (receive_checkpoint_descriptor marker label) t := by
  unfold receive_checkpoint_descriptor
  refine .bindF (Q := fun message t' => t' = t.after .recvmsg (.ok message))
    (.orElse (serve_upholds .recvmsg trivial ?_)) ?_
  · intro r _
    cases r with
    | error e => exact trivial
    | ok message => exact rfl
  rintro message _ rfl
  refine .bindF (.reject _ _ _) ?_
  rintro _ _ ⟨rfl, hwell⟩
  simp only [Bool.or_eq_false_iff, bne_eq_false_iff_eq] at hwell
  obtain ⟨⟨hone, rfl⟩, -⟩ := hwell
  refine .monoF (.ofExcept _ _) ?_
  rintro file _ ⟨rfl, hfile⟩
  have hcame : message.file = some file := take_descriptor_eq_ok hfile
  show (if message.bytes = 0 then _ else _) = _
  rw [if_neg (by omega), hcame]

/-- The loop takes what it returns. -/
theorem read_control_loop_upholds (fuel missing : ℕ) (read : Bytes) (t : Served)
    (hfuel : missing ≤ fuel) :
    (serving image).Upholds (Served.guard W image)
      (Post fun bytes t' => ∃ more, bytes = read ++ more ∧ more.length = missing ∧
        t' = t.take (plainly more))
      (read_control_loop fuel missing read) t := by
  induction fuel generalizing missing read t with
  | zero =>
    obtain rfl : missing = 0 := by omega
    exact ⟨[], (List.append_nil read).symm, rfl, t.take_nil.symm⟩
  | succ fuel ih =>
    unfold read_control_loop
    by_cases hzero : missing = 0
    · rw [if_pos hzero]
      exact ⟨[], (List.append_nil read).symm, hzero.symm, t.take_nil.symm⟩
    · rw [if_neg hzero]
      refine .bindF (Q := fun bytes t' => t' = t.after (.read missing) (.ok bytes))
        (.orElse (serve_upholds (.read missing) trivial ?_)) ?_
      · intro r _
        cases r with
        | error e => exact trivial
        | ok bytes => exact rfl
      rintro ⟨bytes, hle⟩ _ rfl
      refine .bindF (.reject _ _ _) ?_
      rintro _ _ ⟨rfl, hnonempty⟩
      -- Something came, so the fuel that is left covers what is missing.
      have hne : bytes ≠ [] := List.isEmpty_eq_false_iff.mp hnonempty
      have hpos : 0 < bytes.length := List.length_pos_iff.mpr hne
      have hafter : t.after (.read missing) (.ok ⟨bytes, hle⟩) = t.take (plainly bytes) :=
        if_neg fun h => hne h.2
      rw [hafter]
      refine .monoF (ih (missing - bytes.length) (read ++ bytes) _ (by omega)) ?_
      rintro _ _ ⟨more, rfl, hlen, rfl⟩
      refine ⟨bytes ++ more, List.append_assoc _ _ _, ?_, ?_⟩
      · rw [List.length_append, hlen]
        omega
      · rw [Served.take_take, plainly, plainly, plainly, List.map_append]

theorem read_control_exact_upholds (len : ℕ) :
    (serving image).Upholds (Served.guard W image)
      (Post fun bytes t' => bytes.length = len ∧ t' = t.take (plainly bytes))
      (read_control_exact len) t := by
  refine .monoF (read_control_loop_upholds len len [] t (le_refl len)) ?_
  rintro _ _ ⟨more, rfl, hlen, rfl⟩
  exact ⟨hlen, rfl⟩

/-- A request that was read is within its limit and came as a frame. -/
theorem read_worker_control_frame_upholds (maximum : ℕ) (label : String) (htaken : t.taken ≠ []) :
    (serving image).Upholds (Served.guard W image)
      (Post fun text t' => text.length ≤ maximum ∧ t' = t.take (plainly (frame text)))
      (read_worker_control_frame W maximum label) t := by
  unfold read_worker_control_frame
  refine .bindF (.orElse (read_control_exact_upholds 4)) ?_
  rintro header _ ⟨hheader, rfl⟩
  rw [length_of_header W hheader]
  refine .bindF (.reject _ _ _) ?_
  rintro _ _ ⟨rfl, hvalid⟩
  refine .bindF (.orElse_any (I := fun t' => t' = t.take (plainly header))
    (serve_upholds (.input (.try_reserve (beVal header))) ?_ fun _ _ => rfl)) ?_
  · exact fun h => htaken (List.append_eq_nil_iff.mp h).1
  rintro _ _ rfl
  refine .monoF (.orElse (read_control_exact_upholds (beVal header))) ?_
  rintro text _ ⟨htext, rfl⟩
  refine ⟨?_, ?_⟩
  · rw [htext]
    simpa using (Bool.or_eq_false_iff.mp hvalid).2
  · rw [Served.take_take, frame_eq hheader htext, plainly, plainly, plainly, List.map_append]

/-- The authorization: `E`, and then the end. -/
theorem read_worker_execute_authorization_upholds (operation : String) :
    (serving image).Upholds (Served.guard W image)
      (Post fun _ t' => t' = (t.take (plainly [69])).finish)
      (read_worker_execute_authorization operation) t := by
  unfold read_worker_execute_authorization
  refine .bindF (.orElse (read_control_exact_upholds 1)) ?_
  rintro authorization _ ⟨-, rfl⟩
  refine .bindF (.reject _ _ _) ?_
  rintro _ _ ⟨rfl, hbyte⟩
  obtain rfl := bne_eq_false_iff_eq.mp hbyte
  refine .bindF
    (Q := fun bytes t' => t' = (t.take (plainly [69])).after (.read 1) (.ok bytes))
    (.orElse (serve_upholds (.read 1) trivial ?_)) ?_
  · intro r _
    cases r with
    | error e => exact trivial
    | ok bytes => exact rfl
  rintro ⟨trailing, hle⟩ _ rfl
  refine .monoF (.reject _ _ _) ?_
  rintro _ _ ⟨rfl, hnone⟩
  have hempty : trailing = [] := List.length_eq_zero_iff.mp (bne_eq_false_iff_eq.mp hnone)
  exact if_pos ⟨Nat.one_pos, hempty⟩

/-! ## The programs

They keep the guard, from the start of the history. -/

/-- A worker that goes on has written its report. -/
theorem report_ready_upholds :
    (serving image).Upholds (Served.guard W image)
      (Post fun _ t' => ∃ isolation worker_build_sha256 process_id,
        (ready_text isolation worker_build_sha256 process_id).length ≤ MAX_HANDSHAKE_BYTES ∧
        t' = t.write (frame (ready_text isolation worker_build_sha256 process_id)))
      report_ready t := by
  unfold report_ready
  refine .bindF (.orElse_any (I := fun t' => t = t')
    (serve_upholds .current_worker_build_sha256 trivial fun _ _ => rfl)) ?_
  rintro worker_build_sha256 _ rfl
  refine .bindF (.orElse_any (I := fun t' => t = t')
    (serve_upholds .enter_wasix_worker_isolation trivial fun _ _ => rfl)) ?_
  rintro isolation _ rfl
  refine .bindF (Q := fun _ t' => t = t')
    (.run (serve_upholds .process_id trivial fun _ _ => rfl)) ?_
  rintro process_id _ rfl
  refine .monoF (write_frame_upholds _) ?_
  rintro _ _ ⟨hshort, rfl⟩
  exact ⟨isolation, worker_build_sha256, process_id, hshort, rfl⟩

/-- Nothing is written or taken. -/
theorem clear_stdin_upholds (operation : String) :
    (serving image).Upholds (Served.guard W image) (Post fun _ t' => t = t')
      (clear_stdin operation) t := by
  unfold clear_stdin
  refine .bindF (.orElse_any (I := fun t' => t = t')
    (serve_upholds .open_null trivial fun _ _ => rfl)) ?_
  rintro _ _ rfl
  exact .orElse_any (serve_upholds .dup2_stdin trivial fun _ _ => rfl)

/-- What a worker finds of a file before it acknowledges it. -/
theorem inspect_upholds (file : Fd) (maximum_bytes : ℕ) (label : String) (htaken : t.taken ≠ []) :
    (serving image).Upholds (Served.guard W image)
      (Post fun metadata t' => t = t' ∧ ∀ content, image file = some content →
        metadata = ⟨content.length, W.sha256_hex content⟩)
      (inspects (inspect_sealed_worker_input W file maximum_bytes label)) t :=
  inspects_upholds htaken fun _ himage =>
    inspect_sealed_worker_input_upholds W himage maximum_bytes label

/-- The module that is compiled is what the file holds, if so much was acknowledged. -/
theorem read_module_upholds (file : Fd) (bytes : ℕ) (htaken : t.taken ≠ [])
    (hbytes : ∀ content, image file = some content → bytes = content.length) :
    (serving image).Upholds (Served.guard W image)
      (Post fun module t' => t = t' ∧ ∀ content, image file = some content → module = content)
      (inspects (read_sealed_module_bytes W file bytes)) t := by
  refine inspects_upholds htaken ?_
  intro content himage
  rw [hbytes content himage]
  exact .monoF (read_sealed_module_bytes_upholds W himage) fun _ _ h => h.1

/-- After the guest nothing is guarded. -/
theorem output_upholds_free {α : Type} (p : WriterM α) :
    (serving image).Upholds (Served.guard W image) (Post fun _ _ => True) (writes p) t := by
  refine .monoF (writes_upholds (Q := fun _ _ => True)
    (Upholds.free (fun _ _ => trivial) ?_ p _)) fun _ _ _ => trivial
  intro r _
  cases r with
  | error e => exact trivial
  | ok a => exact trivial

/-- A restore executes the module in the file that came first with the journal in the file that
came second. -/
theorem write_wasix_checkpoint_restore_upholds :
    (serving image).Upholds (Served.guard W image) (Post fun _ _ => True)
      (write_wasix_checkpoint_restore W) .start := by
  unfold write_wasix_checkpoint_restore
  refine .bindF report_ready_upholds ?_
  rintro _ _ ⟨isolation, worker_build_sha256, process_id, hshort, rfl⟩
  refine .bindF (receive_checkpoint_descriptor_upholds 77 "module") ?_
  rintro file _ rfl
  refine .bindF (inspect_upholds file _ _ (List.cons_ne_nil _ _)) ?_
  rintro metadata _ ⟨rfl, hmetadata⟩
  refine .bindF (receive_checkpoint_descriptor_upholds 67 "checkpoint") ?_
  rintro journal _ rfl
  refine .bindF (inspect_upholds journal _ _ (List.cons_ne_nil _ _)) ?_
  rintro journal_metadata _ ⟨rfl, -⟩
  refine .bindF (write_frame_upholds _) ?_
  rintro _ _ ⟨-, rfl⟩
  refine .bindF (read_worker_execute_authorization_upholds "restore") ?_
  rintro _ _ rfl
  refine .bindF (clear_stdin_upholds "restore") ?_
  rintro _ _ rfl
  unfold execute_wasix_checkpoint_restore
  refine .bindF (Q := fun _ _ => True)
    (.bindF (read_module_upholds file metadata.bytes (List.cons_ne_nil _ _) ?_) ?_) ?_
  · intro content himage
    rw [hmetadata content himage]
  · rintro module _ ⟨rfl, hmodule⟩
    refine .orElse_any (I := fun _ => True)
      (serve_upholds (.execute_restore module journal) ⟨file, ?_, hmodule⟩ fun _ _ => trivial)
    exact ⟨⟨isolation, worker_build_sha256, process_id, _, hshort, rfl⟩, rfl, rfl⟩
  · intro restored _ _
    exact output_upholds_free _

/-- A capture executes the module in the file that came first with the request that followed. -/
theorem write_wasix_checkpoint_capture_upholds :
    (serving image).Upholds (Served.guard W image) (Post fun _ _ => True)
      (write_wasix_checkpoint_capture W) .start := by
  unfold write_wasix_checkpoint_capture
  refine .bindF report_ready_upholds ?_
  rintro _ _ ⟨isolation, worker_build_sha256, process_id, hshort, rfl⟩
  refine .bindF (receive_checkpoint_descriptor_upholds 77 "module") ?_
  rintro file _ rfl
  refine .bindF (inspect_upholds file _ _ (List.cons_ne_nil _ _)) ?_
  rintro metadata _ ⟨rfl, hmetadata⟩
  refine .bindF (read_worker_control_frame_upholds _ _ (List.cons_ne_nil _ _)) ?_
  rintro text _ ⟨htext, rfl⟩
  refine .bindF (.orElse (.ofExcept _ _)) ?_
  rintro request _ ⟨rfl, hrequest⟩
  refine .bindF (worked_upholds _) ?_
  rintro _ _ ⟨rfl, -⟩
  refine .bindF (.ok_or _ _ _) ?_
  rintro request_bytes _ ⟨rfl, -⟩
  refine .bindF (write_frame_upholds _) ?_
  rintro _ _ ⟨-, rfl⟩
  refine .bindF (read_worker_execute_authorization_upholds "capture") ?_
  rintro _ _ rfl
  refine .bindF (clear_stdin_upholds "capture") ?_
  rintro _ _ rfl
  unfold execute_wasix_checkpoint_capture
  refine .bindF (Q := fun _ _ => True)
    (.bindF (read_module_upholds file metadata.bytes (List.cons_ne_nil _ _) ?_) ?_) ?_
  · intro content himage
    rw [hmetadata content himage]
  · rintro module _ ⟨rfl, hmodule⟩
    -- The guard of the execution: everything before it has been said and received.
    refine .orElse_any (I := fun _ => True)
      (serve_upholds (.execute_capture module request) ⟨file, text, ?_, htext, hrequest, hmodule⟩
        fun _ _ => trivial)
    exact ⟨⟨isolation, worker_build_sha256, process_id, _, hshort, rfl⟩, rfl, rfl⟩
  · intro captured _ _
    exact output_upholds_free _

end Effects

end WasmRuntime.Worker
