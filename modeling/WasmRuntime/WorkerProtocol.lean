/-
`wasix_worker.rs`, what the two sides of the worker boundary say to each other: the worker's report
of itself, the acknowledgements, the completions, the capture request, and the frames they travel
in.
-/
import WasmRuntime.CheckpointReader

set_option autoImplicit false

namespace WasmRuntime.Worker

open ByteCodec Exec

/-! ## Constants

Limits on sizes are in bytes. -/

def WASIX_WORKER_ISOLATION_PROFILE_VERSION : UInt32 := 2

def WASIX_WORKER_MAX_OPEN_FILES : UInt64 := 64

def WASIX_WORKER_MAX_FILE_BYTES : UInt64 := 512 * 1024 * 1024

def WASIX_WORKER_MAX_ADDRESS_SPACE_BYTES : UInt64 := 2 * 1024 * 1024 * 1024

def WASIX_WORKER_MAX_SUPPLEMENTARY_GROUPS : ℕ := 64

def MAX_HANDSHAKE_BYTES : ℕ := 16 * 1024

/-- `MAX_HANDSHAKE_TIMEOUT`, in nanoseconds like every `Duration` here. -/
def MAX_HANDSHAKE_TIMEOUT : ℕ := 30 * 10 ^ 9

def WASIX_WORKER_MAX_CHECKPOINT_BYTES : ℕ := 512 * 1024 * 1024

def WASIX_WORKER_MAX_MODULE_BYTES : ℕ := 64 * 1024 * 1024

def WASIX_WORKER_MAX_RESTORE_OUTPUT_BYTES : ℕ := 64 * 1024

def WASIX_WORKER_MAX_CAPTURE_REQUEST_BYTES : ℕ := 64 * 1024

def WASIX_WORKER_MAX_CAPTURE_ARGUMENTS : ℕ := 256

def WASIX_WORKER_MAX_CAPTURE_ENVIRONMENT : ℕ := 256

def WASIX_WORKER_MAX_CAPTURE_VALUE_BYTES : ℕ := 4 * 1024

/-! ## Frames

Every message is JSON in a frame: four bytes of length, then that many bytes. -/

/-- A message on the wire: its length as a `u32`, then the message. -/
def frame (message : Bytes) : Bytes := be 4 message.length ++ message

/-- A length that was read is the length of the frame it begins. -/
theorem frame_eq {header message : Bytes} (hlen : header.length = 4)
    (hval : message.length = beVal header) : frame message = header ++ message := by
  rw [frame, hval, ← hlen, val_be]

/-! ## Messages

The fields in the order of the source, which is that of their text. -/

structure WasixWorkerIsolation where
  profile_version : UInt32
  user_ids : Vector UInt32 4
  group_ids : Vector UInt32 4
  supplementary_group_ids : List UInt32
  has_root_supplementary_group : Bool
  no_new_privileges : Bool
  dumpable : Bool
  capability_masks : Vector UInt64 4
  core_file_limits : Vector UInt64 2
  file_size_limits : Vector UInt64 2
  address_space_limits : Vector UInt64 2
  open_file_limits : Vector UInt64 2
  closed_inherited_descriptor_count : UInt32
  deriving DecidableEq

structure WasixWorkerMetadata where
  protocol_version : UInt32
  runtime_version : String
  cohort_id : String
  worker_build_sha256 : String
  process_id : UInt32
  isolation : WasixWorkerIsolation
  deriving DecidableEq

structure WasixCheckpointTransportAck where
  journal_bytes : ℕ
  journal_sha256 : String
  deriving DecidableEq

structure WasixCheckpointRestoreAck where
  module_bytes : ℕ
  module_sha256 : String
  journal_bytes : ℕ
  journal_sha256 : String
  deriving DecidableEq

structure WasixCheckpointRestoreCompletion where
  exit_code : ℤ
  stdout_bytes : ℕ
  stdout_sha256 : String
  stderr_bytes : ℕ
  stderr_sha256 : String
  deriving DecidableEq

/-- `WasixCheckpointCaptureRequest`. A `BTreeMap` is the list of its entries, by key. -/
structure WasixCheckpointCaptureRequest where
  arguments : List String
  environment : List (String × String)
  deriving DecidableEq

structure WasixCheckpointCaptureAck where
  module_bytes : ℕ
  module_sha256 : String
  request_bytes : ℕ
  request_sha256 : String
  deriving DecidableEq

structure WasixCheckpointCaptureCompletion where
  exit_code : ℤ
  journal_bytes : ℕ
  journal_sha256 : String
  stdout_bytes : ℕ
  stdout_sha256 : String
  stderr_bytes : ℕ
  stderr_sha256 : String
  deriving DecidableEq

/-- `std::process::ExitStatus` of a process that ended. -/
inductive ExitStatus where
  | exited (code : ℤ)
  | signaled (signal : ℤ)
  deriving DecidableEq

/-- `ExitStatus::success`. -/
def ExitStatus.success : ExitStatus → Bool
  | .exited code => code == 0
  | .signaled _ => false

/-- `ExitStatus::code`. -/
def ExitStatus.code : ExitStatus → Option ℤ
  | .exited code => some code
  | .signaled _ => none

/-- `ExitStatusExt::signal`. -/
def ExitStatus.signal : ExitStatus → Option ℤ
  | .exited _ => none
  | .signaled signal => some signal

/-! ## What both sides take from outside

The decoders are `serde_json::from_slice` at the message's type and belong to the environment, like
every other function of a crate the repository does not contain. -/

/-- The environment of the worker boundary. The decoders are `serde_json::from_slice`, the
others the formatting of the standard library: `{:?}` of a string, `{}` of an error and of an
exit status. Where `usize` has 16 bits the module does not compile, since
`WASIX_WORKER_MAX_CHECKPOINT_BYTES` overflows. -/
structure Env where
  checkpoint : Checkpoint.Env
  usize_bits_ge : 32 ≤ checkpoint.target.usize_bits
  metadata_from_slice : Bytes → Except String WasixWorkerMetadata
  transport_ack_from_slice : Bytes → Except String WasixCheckpointTransportAck
  restore_ack_from_slice : Bytes → Except String WasixCheckpointRestoreAck
  restore_completion_from_slice : Bytes → Except String WasixCheckpointRestoreCompletion
  capture_request_from_slice : Bytes → Except String WasixCheckpointCaptureRequest
  capture_ack_from_slice : Bytes → Except String WasixCheckpointCaptureAck
  capture_completion_from_slice : Bytes → Except String WasixCheckpointCaptureCompletion
  debug : String → String
  display_error : Error → String
  display_status : ExitStatus → String

/-- `usize::MAX`. -/
def Env.usize_max (W : Env) : ℕ := W.checkpoint.target.usize_max

theorem Env.u32_max_le_usize_max (W : Env) : u32_max ≤ W.usize_max := by
  have hpow : 2 ^ 32 ≤ 2 ^ W.checkpoint.target.usize_bits :=
    Nat.pow_le_pow_right (by omega) W.usize_bits_ge
  unfold u32_max Env.usize_max Target.usize_max
  omega

/-- `hex::encode(Sha256::digest(bytes))`. -/
def Env.sha256_hex (W : Env) (bytes : Bytes) : String := W.checkpoint.crypto.sha256_hex bytes

/-- `{:?}` of a list of integers. -/
def debug_list (values : List ℕ) : String :=
  "[" ++ ", ".intercalate (values.map Nat.repr) ++ "]"

/-! ## What the parent demands of a message

What a message must say before the parent goes on. -/

/-- The check that `WasixWorkerIsolation::validate` makes of three pairs of limits: soft and
hard are equal, not zero, and within the profile. -/
def validate_limits (label : String) (pair : Vector UInt64 2) (maximum : UInt64) :
    Exec Error Unit :=
  reject (pair[0] != pair[1] || pair[0] == 0 || decide (pair[0] > maximum))
    (.Execution ("WASIX worker " ++ label ++ " limits "
      ++ debug_list (pair.toList.map UInt64.toNat) ++ " exceed the isolation profile"))

/-- `WasixWorkerIsolation::validate`. -/
def WasixWorkerIsolation.validate (self : WasixWorkerIsolation) (allowed_groups : List UInt32) :
    Exec Error Unit := do
  reject (self.profile_version != WASIX_WORKER_ISOLATION_PROFILE_VERSION)
    (.UnsupportedComponent ("WASIX worker isolation profile " ++ toString self.profile_version
      ++ " is incompatible with required profile "
      ++ toString WASIX_WORKER_ISOLATION_PROFILE_VERSION))
  reject (self.user_ids.contains 0 || self.group_ids.contains 0)
    (.Execution "WASIX worker retained a root user or group credential")
  reject (self.user_ids[3] != self.user_ids[1] || self.group_ids[3] != self.group_ids[1])
    (.Execution "WASIX worker filesystem credentials differ from its effective identity")
  reject self.has_root_supplementary_group
    (.Execution "WASIX worker retained supplementary group zero")
  reject (decide (self.supplementary_group_ids.length > WASIX_WORKER_MAX_SUPPLEMENTARY_GROUPS)
      || self.supplementary_group_ids != allowed_groups)
    (.Execution ("WASIX worker supplementary groups "
      ++ debug_list (self.supplementary_group_ids.map UInt32.toNat)
      ++ " do not match the deployment allowlist"))
  reject (!self.no_new_privileges || self.dumpable)
    (.Execution "WASIX worker did not seal privilege escalation and tracing")
  reject (self.capability_masks != #v[0, 0, 0, 0])
    (.Execution "WASIX worker retained Linux capabilities")
  reject (self.core_file_limits != #v[0, 0])
    (.Execution "WASIX worker did not disable core files")
  validate_limits "file-size" self.file_size_limits WASIX_WORKER_MAX_FILE_BYTES
  validate_limits "address-space" self.address_space_limits WASIX_WORKER_MAX_ADDRESS_SPACE_BYTES
  validate_limits "open-file" self.open_file_limits WASIX_WORKER_MAX_OPEN_FILES

/-- `WasixWorkerMetadata::validate`. -/
def WasixWorkerMetadata.validate (W : Env) (self : WasixWorkerMetadata)
    (expected_process_id : UInt32) (expected_worker_build_sha256 : String)
    (allowed_groups : List UInt32) : Exec Error Unit := do
  reject (self.protocol_version != WASIX_WORKER_PROTOCOL_VERSION)
    (.UnsupportedComponent ("WASIX worker protocol " ++ toString self.protocol_version
      ++ " is incompatible with required protocol " ++ toString WASIX_WORKER_PROTOCOL_VERSION))
  reject (self.runtime_version != CARGO_PKG_VERSION)
    (.UnsupportedComponent ("WASIX worker runtime " ++ self.runtime_version
      ++ " is incompatible with required runtime " ++ CARGO_PKG_VERSION))
  reject (self.cohort_id != WASIX_COHORT_ID)
    (.UnsupportedComponent ("WASIX worker cohort " ++ W.debug self.cohort_id
      ++ " is incompatible with required cohort " ++ W.debug WASIX_COHORT_ID))
  reject (self.worker_build_sha256 != expected_worker_build_sha256)
    (.UnsupportedComponent ("WASIX worker build " ++ self.worker_build_sha256
      ++ " does not match pinned executable " ++ expected_worker_build_sha256))
  reject (self.process_id != expected_process_id)
    (.Execution ("WASIX worker reported process " ++ toString self.process_id
      ++ ", but spawned process was " ++ toString expected_process_id))
  self.isolation.validate allowed_groups

/-- `WasixCheckpointTransportAck::validate`. -/
def WasixCheckpointTransportAck.validate (self : WasixCheckpointTransportAck)
    (expected_bytes : ℕ) (expected_sha256 : String) : Exec Error Unit :=
  reject (self.journal_bytes != expected_bytes || self.journal_sha256 != expected_sha256)
    (.Execution "WASIX worker checkpoint acknowledgement did not match the sealed input")

/-- `WasixCheckpointRestoreAck::validate`. -/
def WasixCheckpointRestoreAck.validate (self : WasixCheckpointRestoreAck) (module_bytes : ℕ)
    (module_sha256 : String) (journal_bytes : ℕ) (journal_sha256 : String) : Exec Error Unit :=
  reject (self.module_bytes != module_bytes || self.module_sha256 != module_sha256
      || self.journal_bytes != journal_bytes || self.journal_sha256 != journal_sha256)
    (.Execution "WASIX worker restore acknowledgement did not match the sealed inputs")

/-- The closure `matches` of both completions. -/
def outputMatches (W : Env) (bytes : Bytes) (expected_bytes : ℕ) (expected_sha256 : String) :
    Bool :=
  tryFrom u64_max bytes.length == some expected_bytes
    && W.sha256_hex bytes == expected_sha256

/-- `WasixCheckpointRestoreCompletion::validate`. -/
def WasixCheckpointRestoreCompletion.validate (W : Env) (self : WasixCheckpointRestoreCompletion)
    (stdout stderr : Bytes) : Exec Error Unit :=
  reject (self.exit_code != 0
      || !outputMatches W stdout self.stdout_bytes self.stdout_sha256
      || !outputMatches W stderr self.stderr_bytes self.stderr_sha256)
    (.Execution "WASIX worker restore completion did not match its output")

/-- `WasixCheckpointCaptureCompletion::validate`. -/
def WasixCheckpointCaptureCompletion.validate (W : Env) (self : WasixCheckpointCaptureCompletion)
    (journal stdout stderr : Bytes) : Exec Error Unit :=
  reject (self.exit_code != 0
      || !outputMatches W journal self.journal_bytes self.journal_sha256
      || !outputMatches W stdout self.stdout_bytes self.stdout_sha256
      || !outputMatches W stderr self.stderr_bytes self.stderr_sha256)
    (.Execution "WASIX worker capture completion did not match its output")

/-! ## The capture request

Validated by the parent before it is sent, and by the worker before it is obeyed. -/

/-- `CommandInput`, without its cancellation token: asking the token is an effect. -/
structure CommandInput where
  stdin : Bytes
  args : List String
  env : List (String × String)
  timeout : ℕ

/-- `validate_capture_value`. A string contains a NUL character when its bytes contain 0. -/
def validate_capture_value (label value : String) (maximum : ℕ) : Exec String Unit :=
  reject (decide ((utf8 value).length > maximum) || (utf8 value).contains 0)
    ("WASIX checkpoint capture " ++ label ++ " is invalid")

/-- The loop body of `WasixCheckpointCaptureRequest::validate` over the environment; 61 is
`'='`. -/
def validate_environment_entry (entry : String × String) : Exec String Unit := do
  reject ((utf8 entry.1).isEmpty || (utf8 entry.1).contains 61)
    "WASIX checkpoint capture environment key is invalid"
  validate_capture_value "environment key" entry.1 256
  validate_capture_value "environment value" entry.2 WASIX_WORKER_MAX_CAPTURE_VALUE_BYTES

/-- `WasixCheckpointCaptureRequest::validate`. -/
def WasixCheckpointCaptureRequest.validate (self : WasixCheckpointCaptureRequest) :
    Exec String Unit := do
  reject (decide (self.arguments.length > WASIX_WORKER_MAX_CAPTURE_ARGUMENTS)
      || decide (self.environment.length > WASIX_WORKER_MAX_CAPTURE_ENVIRONMENT))
    "WASIX checkpoint capture input contains too many entries"
  self.arguments.forM fun argument =>
    validate_capture_value "argument" argument WASIX_WORKER_MAX_CAPTURE_VALUE_BYTES
  self.environment.forM validate_environment_entry

/-- `WasixCheckpointCaptureRequest::new`: the request and the timeout. -/
def WasixCheckpointCaptureRequest.new (input : CommandInput) :
    Exec Error (WasixCheckpointCaptureRequest × ℕ) := do
  reject (!input.stdin.isEmpty)
    (.Configuration "WASIX checkpoint capture does not yet support standard input")
  reject (input.timeout == 0 || decide (input.timeout > MAX_HANDSHAKE_TIMEOUT))
    (.Configuration "WASIX checkpoint capture timeout must be between zero and 30 seconds")
  let request : WasixCheckpointCaptureRequest := ⟨input.args, input.env⟩
  mapErr .Configuration request.validate
  pure (request, input.timeout)

/-! ## The deployment's configuration

As far as the parent reads it. -/

/-- `WasixWorkerConfig`. Whether a placement policy is configured is data; what the policy
answers is an effect. -/
structure WasixWorkerConfig where
  executable : String
  handshake_timeout : ℕ
  allowed_supplementary_groups : List UInt32
  placement : Bool

/-- `WasixWorkerConfig::validate_common`, on Linux. A path is absolute when it begins with a
slash. -/
def WasixWorkerConfig.validate_common (self : WasixWorkerConfig) : Exec Error Unit := do
  reject ((utf8 self.executable).head? != some 47)
    (.Configuration "WASIX worker executable must be an absolute path")
  reject (self.handshake_timeout == 0
      || decide (self.handshake_timeout > MAX_HANDSHAKE_TIMEOUT))
    (.Configuration "WASIX worker handshake timeout must be between zero and 30 seconds")
  reject (decide (self.allowed_supplementary_groups.length
        > WASIX_WORKER_MAX_SUPPLEMENTARY_GROUPS)
      || self.allowed_supplementary_groups.contains 0)
    (.Configuration "WASIX worker supplementary group allowlist is invalid")

/-! ## Encoders

Written out, down to the order of the members. -/

/-- `impl Serialize for WasixWorkerIsolation`. -/
def WasixWorkerIsolation.to_json (self : WasixWorkerIsolation) : Json.Text :=
  let ids (values : List UInt32) : Json.Text := Json.arr (values.map fun v => Json.num v.toNat)
  let masks (values : List UInt64) : Json.Text := Json.arr (values.map fun v => Json.num v.toNat)
  Json.obj [
    ("profileVersion", Json.num self.profile_version.toNat),
    ("userIds", ids self.user_ids.toList),
    ("groupIds", ids self.group_ids.toList),
    ("supplementaryGroupIds", ids self.supplementary_group_ids),
    ("hasRootSupplementaryGroup", Json.bool self.has_root_supplementary_group),
    ("noNewPrivileges", Json.bool self.no_new_privileges),
    ("dumpable", Json.bool self.dumpable),
    ("capabilityMasks", masks self.capability_masks.toList),
    ("coreFileLimits", masks self.core_file_limits.toList),
    ("fileSizeLimits", masks self.file_size_limits.toList),
    ("addressSpaceLimits", masks self.address_space_limits.toList),
    ("openFileLimits", masks self.open_file_limits.toList),
    ("closedInheritedDescriptorCount", Json.num self.closed_inherited_descriptor_count.toNat)]

/-- `impl Serialize for WasixWorkerMetadata`. -/
def WasixWorkerMetadata.to_json (self : WasixWorkerMetadata) : Json.Text :=
  Json.obj [
    ("protocolVersion", Json.num self.protocol_version.toNat),
    ("runtimeVersion", Json.str self.runtime_version),
    ("cohortId", Json.str self.cohort_id),
    ("workerBuildSha256", Json.str self.worker_build_sha256),
    ("processId", Json.num self.process_id.toNat),
    ("isolation", self.isolation.to_json)]

/-- `impl Serialize for WasixCheckpointTransportAck`. -/
def WasixCheckpointTransportAck.to_json (self : WasixCheckpointTransportAck) : Json.Text :=
  Json.obj [
    ("journalBytes", Json.num self.journal_bytes),
    ("journalSha256", Json.str self.journal_sha256)]

/-- `impl Serialize for WasixCheckpointRestoreAck`. -/
def WasixCheckpointRestoreAck.to_json (self : WasixCheckpointRestoreAck) : Json.Text :=
  Json.obj [
    ("moduleBytes", Json.num self.module_bytes),
    ("moduleSha256", Json.str self.module_sha256),
    ("journalBytes", Json.num self.journal_bytes),
    ("journalSha256", Json.str self.journal_sha256)]

/-- `impl Serialize for WasixCheckpointRestoreCompletion`. -/
def WasixCheckpointRestoreCompletion.to_json (self : WasixCheckpointRestoreCompletion) :
    Json.Text :=
  Json.obj [
    ("exitCode", Json.int self.exit_code),
    ("stdoutBytes", Json.num self.stdout_bytes),
    ("stdoutSha256", Json.str self.stdout_sha256),
    ("stderrBytes", Json.num self.stderr_bytes),
    ("stderrSha256", Json.str self.stderr_sha256)]

/-- `impl Serialize for WasixCheckpointCaptureRequest`. -/
def WasixCheckpointCaptureRequest.to_json (self : WasixCheckpointCaptureRequest) : Json.Text :=
  Json.obj [
    ("arguments", Json.arr (self.arguments.map Json.str)),
    ("environment", Json.obj (self.environment.map fun entry => (entry.1, Json.str entry.2)))]

/-- `impl Serialize for WasixCheckpointCaptureAck`. -/
def WasixCheckpointCaptureAck.to_json (self : WasixCheckpointCaptureAck) : Json.Text :=
  Json.obj [
    ("moduleBytes", Json.num self.module_bytes),
    ("moduleSha256", Json.str self.module_sha256),
    ("requestBytes", Json.num self.request_bytes),
    ("requestSha256", Json.str self.request_sha256)]

/-- `impl Serialize for WasixCheckpointCaptureCompletion`. -/
def WasixCheckpointCaptureCompletion.to_json (self : WasixCheckpointCaptureCompletion) :
    Json.Text :=
  Json.obj [
    ("exitCode", Json.int self.exit_code),
    ("journalBytes", Json.num self.journal_bytes),
    ("journalSha256", Json.str self.journal_sha256),
    ("stdoutBytes", Json.num self.stdout_bytes),
    ("stdoutSha256", Json.str self.stdout_sha256),
    ("stderrBytes", Json.num self.stderr_bytes),
    ("stderrSha256", Json.str self.stderr_sha256)]

/-- `serde_json::to_vec`, which fails for none of the types above. -/
def to_vec (text : Json.Text) : Bytes := Json.render text

end WasmRuntime.Worker
