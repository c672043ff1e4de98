/-
`checkpoint.rs`, the identity half: the workload binding, the metadata record an artifact carries,
and the validators both go through.
-/
import WasmRuntime.Crate
import WasmRuntime.Json
import Mathlib.Tactic.Linarith

set_option autoImplicit false

namespace WasmRuntime.Checkpoint

open ByteCodec Exec

/-! ## Constants

Of the metadata alone; those of the format are with the codec. -/

def CHECKPOINT_ENGINE_PROFILE : String := "runtrue-wasix-engine-v1"

def CHECKPOINT_JOURNAL_FORMAT : String := "wasmer-log-file-v1"

def CHECKPOINT_EXECUTION_ABI : String := "wasix_32v1+asyncify"

def CHECKPOINT_ISOLATION_POLICY : String := "runtrue-wasix-isolation-v1"

def CHECKPOINT_SNAPSHOT_TRIGGER : String := "explicit"

def MAX_CHECKPOINT_METADATA_BYTES : ℕ := 16 * 1024

/-! ## Validators

One for digests, one for prefixed digests, one for tokens. Each bounds the length of what it
accepts. -/

/-- `str::strip_prefix`. -/
def stripPrefix (pre value : String) : Option String :=
  if pre.toList <+: value.toList then some (String.ofList (value.toList.drop pre.length))
  else none

/-- Sixty-four lowercase hexadecimal characters. -/
def isCanonicalSha256 (value : String) : Bool :=
  (utf8 value).length == 64 && (utf8 value).all isHexByte

def validate_sha256 (label value : String) : Exec Error Unit :=
  reject ((utf8 value).length != 64 || !(utf8 value).all isHexByte)
    (.Checkpoint (label ++ " must be 64 lowercase hexadecimal characters"))

def validate_prefixed_sha256 (label value : String) : Exec Error Unit := do
  let digest ← ofOption (.Checkpoint (label ++ " must start with sha256:"))
    (stripPrefix "sha256:" value)
  validate_sha256 label digest

/-- A byte a token may hold: `is_ascii_graphic` and neither backslash nor quote. -/
def isTokenByte (b : UInt8) : Bool := (33 ≤ b && b ≤ 126) && b != 92 && b != 34

def validate_token (label value : String) (maximum_bytes : ℕ) : Exec Error Unit :=
  reject ((utf8 value).isEmpty || (utf8 value).length > maximum_bytes
      || !(utf8 value).all isTokenByte)
    (.Checkpoint (label ++ " must be a nonempty printable token of at most "
      ++ Nat.repr maximum_bytes ++ " bytes"))

theorem stripPrefix_eq_some {pre value rest : String} (h : stripPrefix pre value = some rest) :
    value = pre ++ rest := by
  unfold stripPrefix at h
  split_ifs at h with hpre
  obtain ⟨t, ht⟩ := hpre
  have hdrop : value.toList.drop pre.length = t := by
    rw [← ht, ← String.length_toList, List.drop_left]
  rw [hdrop, Option.some.injEq] at h
  apply String.toList_inj.mp
  rw [← h, String.toList_append, String.toList_ofList, ht]

/-- A digest passes exactly if it is canonical. -/
theorem validate_sha256_eq_ok {label value : String} {u : Unit} :
    validate_sha256 label value = .ok u ↔ isCanonicalSha256 value = true := by
  rw [validate_sha256, reject_eq_ok, isCanonicalSha256]
  simp

theorem isCanonicalSha256_length {value : String} (h : isCanonicalSha256 value = true) :
    (utf8 value).length = 64 := by
  simp only [isCanonicalSha256, Bool.and_eq_true, beq_iff_eq] at h
  exact h.1

/-- A SHA-256 digest printed by `hex::encode` is canonical. -/
theorem isCanonicalSha256_sha256_hex (C : Crypto) (bytes : Bytes) :
    isCanonicalSha256 (C.sha256_hex bytes) = true := by
  obtain ⟨hlen, hall⟩ := utf8_hexEncode (C.sha256 bytes)
  rw [C.sha256_length] at hlen
  rw [isCanonicalSha256, Crypto.sha256_hex, hlen, hall]
  rfl

theorem validate_prefixed_sha256_length {label value : String} {u : Unit}
    (h : validate_prefixed_sha256 label value = .ok u) : (utf8 value).length = 71 := by
  obtain ⟨digest, hstrip, hdigest⟩ := bind_eq_ok.mp h
  have hvalue := stripPrefix_eq_some (ofOption_eq_ok.mp hstrip)
  have hlen := isCanonicalSha256_length (validate_sha256_eq_ok.mp hdigest)
  have hpre : (utf8 "sha256:").length = 7 := by decide
  rw [hvalue, utf8_append, List.length_append, hlen, hpre]

theorem validate_token_length {label value : String} {maximum_bytes : ℕ} {u : Unit}
    (h : validate_token label value maximum_bytes = .ok u) :
    (utf8 value).length ≤ maximum_bytes := by
  rw [validate_token, reject_eq_ok] at h
  simp only [Bool.or_eq_false_iff, decide_eq_false_iff_not] at h
  omega

/-! ## `WasixCheckpointBinding`

A binding is five fields and says which workload a checkpoint belongs to. Its fields are plain
strings, because `serde` builds one without validating it; `validate` is what makes it canonical,
and every entry point of the codec calls it. -/

@[ext]
structure WasixCheckpointBinding where
  environment_id : String
  module_sha256 : String
  command : String
  instance_id : String
  generation : UInt64
  deriving DecidableEq, Repr

/-- `WasixCheckpointBinding::validate`. -/
def WasixCheckpointBinding.validate (b : WasixCheckpointBinding) : Exec Error Unit := do
  validate_prefixed_sha256 "checkpoint environment ID" b.environment_id
  validate_sha256 "checkpoint module digest" b.module_sha256
  validate_token "checkpoint command" b.command 256
  validate_token "checkpoint instance ID" b.instance_id 128
  reject (b.generation == 0) (.Checkpoint "checkpoint generation must be positive")

/-- `WasixCheckpointBinding::new`. -/
def WasixCheckpointBinding.new (environment_id module_sha256 command instance_id : String)
    (generation : UInt64) : Exec Error WasixCheckpointBinding := do
  let binding : WasixCheckpointBinding :=
    ⟨environment_id, module_sha256, command, instance_id, generation⟩
  binding.validate
  pure binding

/-- What a valid binding says about the lengths of its fields. -/
structure WasixCheckpointBinding.Short (b : WasixCheckpointBinding) : Prop where
  environment_id : (utf8 b.environment_id).length = 71
  module_sha256 : (utf8 b.module_sha256).length = 64
  command : (utf8 b.command).length ≤ 256
  instance_id : (utf8 b.instance_id).length ≤ 128

/-- Each validator bounds its field. -/
theorem WasixCheckpointBinding.short_of_validate {b : WasixCheckpointBinding} {u : Unit}
    (h : b.validate = .ok u) : b.Short := by
  obtain ⟨_, henv, h⟩ := bind_eq_ok.mp h
  obtain ⟨_, hmodule, h⟩ := bind_eq_ok.mp h
  obtain ⟨_, hcommand, h⟩ := bind_eq_ok.mp h
  obtain ⟨_, hinstance, -⟩ := bind_eq_ok.mp h
  refine ⟨validate_prefixed_sha256_length henv, ?_, validate_token_length hcommand,
    validate_token_length hinstance⟩
  exact isCanonicalSha256_length (validate_sha256_eq_ok.mp hmodule)

/-! ## `CheckpointMetadata`

The record repeats the binding beside everything a restore must agree on, and
`CheckpointMetadata.validate` compares it against a freshly built record. The comparison leaves out
two fields, the worker build digest and the journal digest: the first is only required to be
canonical, the second is checked against the journal by the caller. `validate_journal_iff` puts the
three together: what passes is exactly the current record of the expected binding, for some build
and that journal. -/

@[ext]
structure CheckpointMetadata where
  binding : WasixCheckpointBinding
  runtime_version : String
  worker_protocol_version : UInt32
  cohort_id : String
  worker_build_sha256 : String
  engine_profile : String
  platform : String
  journal_format : String
  execution_abi : String
  isolation_policy : String
  snapshot_trigger : String
  journal_sha256 : String
  deriving DecidableEq, Repr

def checkpoint_platform (T : Target) : String :=
  T.build_target ++ ";endian=" ++ (if T.little_endian then "little" else "big")
    ++ ";pointer=" ++ Nat.repr T.usize_bits

/-- `CheckpointMetadata::current`. -/
def CheckpointMetadata.current (T : Target) (C : Crypto) (binding : WasixCheckpointBinding)
    (worker_build_sha256 : String) (journal : Bytes) : CheckpointMetadata where
  binding := binding
  runtime_version := CARGO_PKG_VERSION
  worker_protocol_version := WASIX_WORKER_PROTOCOL_VERSION
  cohort_id := WASIX_COHORT_ID
  worker_build_sha256 := worker_build_sha256
  engine_profile := CHECKPOINT_ENGINE_PROFILE
  platform := checkpoint_platform T
  journal_format := CHECKPOINT_JOURNAL_FORMAT
  execution_abi := CHECKPOINT_EXECUTION_ABI
  isolation_policy := CHECKPOINT_ISOLATION_POLICY
  snapshot_trigger := CHECKPOINT_SNAPSHOT_TRIGGER
  journal_sha256 := C.sha256_hex journal

/-- `CheckpointMetadata::validate`. The record compared against is built over an
empty journal, so its journal digest means nothing and is not looked at. -/
def CheckpointMetadata.validate (T : Target) (C : Crypto) (self : CheckpointMetadata)
    (expected_binding : WasixCheckpointBinding) : Exec Error Unit := do
  self.binding.validate
  validate_sha256 "checkpoint journal digest" self.journal_sha256
  validate_sha256 "checkpoint worker build digest" self.worker_build_sha256
  let expected := CheckpointMetadata.current T C expected_binding self.worker_build_sha256 []
  reject (self.binding != expected.binding
      || self.runtime_version != expected.runtime_version
      || self.worker_protocol_version != expected.worker_protocol_version
      || self.cohort_id != expected.cohort_id
      || self.engine_profile != expected.engine_profile
      || self.platform != expected.platform
      || self.journal_format != expected.journal_format
      || self.execution_abi != expected.execution_abi
      || self.isolation_policy != expected.isolation_policy
      || self.snapshot_trigger != expected.snapshot_trigger)
    (.Checkpoint "checkpoint identity is incompatible")

/-- Validation and the journal digest check together leave one record for each build
and journal: the current one. No field escapes both. -/
theorem CheckpointMetadata.validate_journal_iff {T : Target} {C : Crypto}
    {md : CheckpointMetadata} {b : WasixCheckpointBinding} {journal : Bytes}
    (hb : b.validate = .ok ()) :
    md.validate T C b = .ok () ∧ md.journal_sha256 = C.sha256_hex journal ↔
      isCanonicalSha256 md.worker_build_sha256 = true ∧
        md = CheckpointMetadata.current T C b md.worker_build_sha256 journal := by
  constructor
  · rintro ⟨h, hjournal⟩
    obtain ⟨_, -, h⟩ := bind_eq_ok.mp h
    obtain ⟨_, -, h⟩ := bind_eq_ok.mp h
    obtain ⟨_, hbuild, h⟩ := bind_eq_ok.mp h
    rw [reject_eq_ok] at h
    simp only [Bool.or_eq_false_iff, bne_eq_false_iff_eq, and_assoc] at h
    obtain ⟨h1, h2, h3, h4, h5, h6, h7, h8, h9, h10⟩ := h
    refine ⟨validate_sha256_eq_ok.mp hbuild, ?_⟩
    exact CheckpointMetadata.ext h1 h2 h3 h4 rfl h5 h6 h7 h8 h9 h10 hjournal
  · rintro ⟨hbuild, hmd⟩
    have hbinding : md.binding = b := by rw [hmd]; rfl
    have hjournal : md.journal_sha256 = C.sha256_hex journal := by rw [hmd]; rfl
    refine ⟨?_, hjournal⟩
    have hdigest := isCanonicalSha256_sha256_hex C journal
    rw [← hjournal] at hdigest
    rw [CheckpointMetadata.validate, hbinding, hb, ok_bind,
      validate_sha256_eq_ok (u := ()) |>.mpr hdigest, ok_bind,
      validate_sha256_eq_ok (u := ()) |>.mpr hbuild, ok_bind, reject_eq_ok, hmd]
    simp [CheckpointMetadata.current]

/-! ## The text of the record

The writer of the JSON text refuses to grow past 16 KiB, and sealing must not fail there. -/

/-- `Serialize for WasixCheckpointBinding`. -/
def WasixCheckpointBinding.to_json (b : WasixCheckpointBinding) : Json.Text :=
  Json.obj [("environmentId", Json.str b.environment_id),
    ("moduleSha256", Json.str b.module_sha256),
    ("command", Json.str b.command),
    ("instanceId", Json.str b.instance_id),
    ("generation", Json.num b.generation.toNat)]

/-- `Serialize for CheckpointMetadata`. -/
def CheckpointMetadata.to_json (md : CheckpointMetadata) : Json.Text :=
  Json.obj [("binding", md.binding.to_json),
    ("runtimeVersion", Json.str md.runtime_version),
    ("workerProtocolVersion", Json.num md.worker_protocol_version.toNat),
    ("cohortId", Json.str md.cohort_id),
    ("workerBuildSha256", Json.str md.worker_build_sha256),
    ("engineProfile", Json.str md.engine_profile),
    ("platform", Json.str md.platform),
    ("journalFormat", Json.str md.journal_format),
    ("executionAbi", Json.str md.execution_abi),
    ("isolationPolicy", Json.str md.isolation_policy),
    ("snapshotTrigger", Json.str md.snapshot_trigger),
    ("journalSha256", Json.str md.journal_sha256)]

theorem checkpoint_platform_length_le (T : Target) :
    (utf8 (checkpoint_platform T)).length ≤ 280 := by
  have htarget := T.build_target_short
  have hendian : (utf8 (if T.little_endian then "little" else "big")).length ≤ 6 := by
    cases T.little_endian <;> decide
  have hbits : (utf8 (Nat.repr T.usize_bits)).length ≤ 2 := by
    rcases T.usize_bits_mem with h | h | h <;> rw [h] <;> decide
  have hlit : (utf8 ";endian=").length = 8 ∧ (utf8 ";pointer=").length = 9 := by decide
  simp only [checkpoint_platform, utf8_append, List.length_append]
  omega

theorem WasixCheckpointBinding.size_to_json_le {b : WasixCheckpointBinding} (h : b.Short) :
    Json.size b.to_json ≤ 3700 := by
  have hkeys : ∀ k ∈ ["environmentId", "moduleSha256", "command", "instanceId", "generation"],
      Json.size (Json.str k) ≤ 6 * 13 + 2 := by
    intro k hk
    apply Json.size_str_le_of
    revert k
    decide
  simp only [List.forall_mem_cons, List.not_mem_nil, false_implies, implies_true, and_true]
    at hkeys
  have h1 := Json.size_str_le b.environment_id
  have h2 := Json.size_str_le b.module_sha256
  have h3 := Json.size_str_le b.command
  have h4 := Json.size_str_le b.instance_id
  have h5 : Json.size (Json.num b.generation.toNat) ≤ 4 * 20 :=
    Json.size_num_le (by decide) (lt_trans b.generation.toNat_lt (by decide))
  refine (Json.size_obj_le _).trans ?_
  simp only [List.map_cons, List.map_nil, List.sum_cons, List.sum_nil, Json.size_member]
  have := h.environment_id
  have := h.module_sha256
  have := h.command
  have := h.instance_id
  omega

/-- The current record of a valid binding and a canonical build digest is written
within the format's limit, with every byte of every field escaped if need be. -/
theorem CheckpointMetadata.size_current_le (T : Target) (C : Crypto)
    {b : WasixCheckpointBinding} {build : String} (journal : Bytes) (hb : b.Short)
    (hbuild : isCanonicalSha256 build = true) :
    Json.size (CheckpointMetadata.current T C b build journal).to_json
      ≤ MAX_CHECKPOINT_METADATA_BYTES := by
  -- Every byte of a string is written as six at most, and the bound has room for that.
  have hkeys : ∀ k ∈ ["binding", "runtimeVersion", "workerProtocolVersion", "cohortId",
      "workerBuildSha256", "engineProfile", "platform", "journalFormat", "executionAbi",
      "isolationPolicy", "snapshotTrigger", "journalSha256"],
      Json.size (Json.str k) ≤ 6 * 21 + 2 := by
    intro k hk
    apply Json.size_str_le_of
    revert k
    decide
  have hconst : ∀ v ∈ [CARGO_PKG_VERSION, WASIX_COHORT_ID, CHECKPOINT_ENGINE_PROFILE,
      CHECKPOINT_JOURNAL_FORMAT, CHECKPOINT_EXECUTION_ABI, CHECKPOINT_ISOLATION_POLICY,
      CHECKPOINT_SNAPSHOT_TRIGGER], Json.size (Json.str v) ≤ 6 * 38 + 2 := by
    intro v hv
    apply Json.size_str_le_of
    revert v
    decide
  simp only [List.forall_mem_cons, List.not_mem_nil, false_implies, implies_true, and_true]
    at hkeys hconst
  have h1 := WasixCheckpointBinding.size_to_json_le hb
  have h2 : Json.size (Json.num WASIX_WORKER_PROTOCOL_VERSION.toNat) ≤ 4 * 1 :=
    Json.size_num_le (by decide) (by decide)
  have h3 := Json.size_str_le_of (isCanonicalSha256_length hbuild).le
  have h4 := Json.size_str_le_of (checkpoint_platform_length_le T)
  have h5 := Json.size_str_le_of
    (isCanonicalSha256_length (isCanonicalSha256_sha256_hex C journal)).le
  refine (Json.size_obj_le _).trans ?_
  simp only [List.map_cons, List.map_nil, List.sum_cons, List.sum_nil, Json.size_member,
    CheckpointMetadata.current, MAX_CHECKPOINT_METADATA_BYTES]
  obtain ⟨k1, k2, k3, k4, k5, k6, k7, k8, k9, k10, k11, k12⟩ := hkeys
  obtain ⟨v1, v2, v3, v4, v5, v6, v7⟩ := hconst
  linarith

end WasmRuntime.Checkpoint
