/-
`environment.rs`: the manifest of an environment and the identity calculated from it.
-/
import WasmRuntime.CheckpointMetadata

set_option autoImplicit false

namespace WasmRuntime.Environment

open ByteCodec Codes Exec

/-! ## The manifest

Strings and lists are those of the language: their length is a `usize`. `serde_json` is a parameter
where it reads. Formatting a string with its escapes (`{:?}`) is a parameter too. -/

/-- `String`. The language bounds its length. -/
structure Str (T : Target) where
  value : String
  len_le : (utf8 value).length ≤ T.usize_max
  deriving DecidableEq

/-- `str::as_bytes`. -/
def Str.bytes {T : Target} (s : Str T) : Bytes := utf8 s.value

/-- `Vec<String>`. -/
structure StrVec (T : Target) where
  items : List (Str T)
  len_le : items.length ≤ T.usize_max
  deriving DecidableEq

structure EnvironmentLanguage (T : Target) where
  name : Str T
  version : Str T
  implementation : Str T
  deriving DecidableEq

structure EnvironmentArtifact (T : Target) where
  format : Str T
  path : Str T
  sha256 : Str T
  deriving DecidableEq

structure EnvironmentCommands (T : Target) where
  default : Str T
  available : StrVec T
  deriving DecidableEq

structure EnvironmentFilesystem (T : Target) where
  immutable : StrVec T
  writable : StrVec T
  deriving DecidableEq

structure EnvironmentBuild (T : Target) where
  toolchain_id : Str T
  source_digest : Str T
  lock_digest : Str T
  deriving DecidableEq

structure EnvironmentManifest (T : Target) where
  schema_version : UInt32
  environment_id : Str T
  execution_profile : Str T
  language : EnvironmentLanguage T
  artifact : EnvironmentArtifact T
  required_wasm_features : StrVec T
  commands : EnvironmentCommands T
  filesystem : EnvironmentFilesystem T
  build : EnvironmentBuild T
  deriving DecidableEq

/-- What the module takes from outside: the primitives, `{:?}` of a string, and
`serde_json::from_slice` at `ManifestEnvelope`, of which only the schema version is kept, and at
`EnvironmentManifest`. -/
structure ManifestEnv (T : Target) where
  crypto : Crypto
  debug : String → String
  from_slice_envelope : Bytes → Except String UInt32
  from_slice : Bytes → Except String (EnvironmentManifest T)

def MAX_MANIFEST_BYTES : ℕ := 64 * 1024

def MAX_LIST_ENTRIES : ℕ := 256

def MAX_TOKEN_BYTES : ℕ := 256

variable {T : Target}

/-! ## The JSON text

The compact writer of `Json`. It cannot fail, so the error arm behind it is never entered. -/

/-- `Serialize for Vec<String>`. -/
def StrVec.to_json (values : StrVec T) : Json.Text :=
  Json.arr (values.items.map fun value => Json.str value.value)

/-- `Serialize for EnvironmentManifest`, with the names of its fields in camel case. -/
def EnvironmentManifest.to_json (self : EnvironmentManifest T) : Json.Text :=
  Json.obj [("schemaVersion", Json.num self.schema_version.toNat),
    ("environmentId", Json.str self.environment_id.value),
    ("executionProfile", Json.str self.execution_profile.value),
    ("language", Json.obj [("name", Json.str self.language.name.value),
      ("version", Json.str self.language.version.value),
      ("implementation", Json.str self.language.implementation.value)]),
    ("artifact", Json.obj [("format", Json.str self.artifact.format.value),
      ("path", Json.str self.artifact.path.value),
      ("sha256", Json.str self.artifact.sha256.value)]),
    ("requiredWasmFeatures", self.required_wasm_features.to_json),
    ("commands", Json.obj [("default", Json.str self.commands.default.value),
      ("available", self.commands.available.to_json)]),
    ("filesystem", Json.obj [("immutable", self.filesystem.immutable.to_json),
      ("writable", self.filesystem.writable.to_json)]),
    ("build", Json.obj [("toolchainId", Json.str self.build.toolchain_id.value),
      ("sourceDigest", Json.str self.build.source_digest.value),
      ("lockDigest", Json.str self.build.lock_digest.value)])]

/-! ## Validators

The texts are compared, searched and split as their UTF-8 bytes, as `str` does. -/

def validate_hex_sha256 (label value : String) : Exec Error Unit :=
  reject ((utf8 value).length != 64 || !(utf8 value).all isHexByte)
    (.Preparation (label ++ " must contain exactly 64 lowercase hexadecimal characters"))

def validate_prefixed_sha256 (label value : String) : Exec Error Unit := do
  let digest ← ofOption (.Preparation (label ++ " must start with sha256:"))
    (Checkpoint.stripPrefix "sha256:" value)
  validate_hex_sha256 label digest

/-- `validate_text`: ASCII without the control characters. -/
def validate_text (label value : String) : Exec Error Unit :=
  reject ((utf8 value).isEmpty || (utf8 value).length > MAX_TOKEN_BYTES
      || !(utf8 value).all fun byte => 32 ≤ byte && byte ≤ 126)
    (.Preparation (label ++ " must be 1 to " ++ Nat.repr MAX_TOKEN_BYTES
      ++ " printable ASCII bytes"))

/-- `u8::is_ascii_alphanumeric`. -/
def isAlphanumeric (byte : UInt8) : Bool :=
  (48 ≤ byte && byte ≤ 57) || (65 ≤ byte && byte ≤ 90) || (97 ≤ byte && byte ≤ 122)

/-- `validate_token`: letters, digits, and any of `._-+:`. -/
def validate_token (label value : String) : Exec Error Unit :=
  reject ((utf8 value).isEmpty || (utf8 value).length > MAX_TOKEN_BYTES
      || !(utf8 value).all fun byte => isAlphanumeric byte || (utf8 "._-+:").contains byte)
    (.Preparation (label ++ " must be a bounded portable ASCII token"))

/-- `values.windows(2).any(|pair| pair[0] >= pair[1])`. -/
def unsorted : List Bytes → Bool
  | first :: second :: rest => decide (second ≤ first) || unsorted (second :: rest)
  | _ => false

/-- What the two validators of lists have in common: the count, each element, the order. -/
def validate_sorted (validate_element : String → String → Exec Error Unit) (label : String)
    (values : StrVec T) : Exec Error Unit := do
  reject (values.items.length > MAX_LIST_ENTRIES)
    (.Preparation (label ++ " exceeds " ++ Nat.repr MAX_LIST_ENTRIES ++ " entries"))
  values.items.forM fun value => validate_element label value.value
  reject (unsorted (values.items.map Str.bytes))
    (.Preparation (label ++ " must be lexically sorted and unique"))

def validate_sorted_tokens (label : String) (values : StrVec T) : Exec Error Unit :=
  validate_sorted validate_token label values

/-- `value.contains(pattern)`. -/
def contains (pattern : Bytes) : Bytes → Bool
  | [] => pattern.isEmpty
  | byte :: rest => pattern.isPrefixOf (byte :: rest) || contains pattern rest

/-- What a segment of a guest path may not be. -/
def badSegment (segment : Bytes) : Bool :=
  segment.isEmpty || segment == utf8 "." || segment == utf8 ".."
    || !segment.all fun byte => isAlphanumeric byte || (utf8 "._-+").contains byte

def validate_guest_path (label value : String) : Exec Error Unit :=
  reject ((utf8 value).length < 2 || (utf8 value).length > MAX_TOKEN_BYTES
      || !(utf8 "/").isPrefixOf (utf8 value) || (utf8 "/").isSuffixOf (utf8 value)
      || contains (utf8 "//") (utf8 value) || contains (utf8 "\\") (utf8 value)
      || (((utf8 value).splitOn 47).drop 1).any badSegment)
    (.Preparation (label ++ " contains a non-canonical absolute POSIX path"))

/-- Whether a path of the list lies below one that stands before it. -/
def overlapping : List Bytes → Bool
  | [] => false
  | ancestor :: rest =>
    (rest.any fun candidate => (ancestor ++ utf8 "/").isPrefixOf candidate) || overlapping rest

def validate_sorted_guest_paths (label : String) (values : StrVec T) : Exec Error Unit := do
  validate_sorted validate_guest_path label values
  reject (overlapping (values.items.map Str.bytes))
    (.Preparation (label ++ " must not contain overlapping ancestor paths"))

/-! ## The identity

The SHA-256 of a byte string that the crate feeds to the hash in parts: a domain, the schema version
in four bytes, then every other field but `environment_id` in a fixed order, each string behind its
length and each list behind its count, in eight bytes. -/

def IDENTITY_DOMAIN : Bytes := utf8 "runtrue.environment" ++ [0] ++ utf8 "v1" ++ [0]

/-- `hash_string`. A hash is what has been fed to it. -/
def hash_string (hash : Bytes) (value : Str T) : Bytes :=
  hash ++ be 8 value.bytes.length ++ value.bytes

def hash_strings (hash : Bytes) (values : StrVec T) : Bytes :=
  values.items.foldl hash_string (hash ++ be 8 values.items.length)

/-- `format!("sha256:{}", hex::encode(..))`. -/
def prefixed_sha256 (digest : Bytes) (hlen : digest.length = 32) : Str T where
  value := "sha256:" ++ hexEncode digest
  len_le := by
    have hmax := T.u16_max_le_usize_max
    have hpre : (utf8 "sha256:").length = 7 := by decide
    rw [utf8_append, List.length_append, (utf8_hexEncode digest).1, hlen, hpre]
    omega

namespace EnvironmentManifest

variable (E : ManifestEnv T) (self : EnvironmentManifest T)

/-- `path == "/tmp" || path.starts_with("/tmp/") || path == "/work" || ..`. -/
def overlaps_writable (path : Bytes) : Bool :=
  path == utf8 "/tmp" || (utf8 "/tmp/").isPrefixOf path
    || path == utf8 "/work" || (utf8 "/work/").isPrefixOf path

/-- The clone that `validate_identity_fields` encodes: it stands for the manifest with its
identity, which is always as long. -/
def round_trip : EnvironmentManifest T :=
  { self with environment_id := prefixed_sha256 (be 32 0) (be_length 32 0) }

/-- `EnvironmentManifest::validate_identity_fields`. The catalog has been found sorted when it
is searched, so that `binary_search` fails just when the command is missing. -/
def validate_identity_fields : Exec Error Unit := do
  reject (self.schema_version != 1)
    (.UnsupportedComponent ("unsupported environment schema version "
      ++ Nat.repr self.schema_version.toNat))
  reject (self.execution_profile.value != "wasix32-v1")
    (.UnsupportedComponent ("unsupported environment execution profile "
      ++ E.debug self.execution_profile.value))
  reject (self.artifact.format.value != "webc")
    (.UnsupportedComponent ("unsupported environment artifact format "
      ++ E.debug self.artifact.format.value))
  reject (self.artifact.path.value != "environment.webc")
    (.Preparation "schema 1 artifact path must be exactly environment.webc")
  validate_hex_sha256 "artifact SHA-256" self.artifact.sha256.value
  validate_text "language name" self.language.name.value
  validate_text "language version" self.language.version.value
  validate_text "language implementation" self.language.implementation.value
  validate_token "toolchain ID" self.build.toolchain_id.value
  validate_prefixed_sha256 "source digest" self.build.source_digest.value
  validate_prefixed_sha256 "lock digest" self.build.lock_digest.value
  validate_sorted_tokens "required WebAssembly features" self.required_wasm_features
  validate_token "default command" self.commands.default.value
  validate_sorted_tokens "available commands" self.commands.available
  reject (!self.commands.available.items.contains self.commands.default)
    (.Preparation "environment default command is missing from the command catalog")
  validate_sorted_guest_paths "immutable guest paths" self.filesystem.immutable
  reject (self.filesystem.writable.items.map Str.value != ["/tmp", "/work"])
    (.UnsupportedComponent "schema 1 requires fresh writable /tmp and /work only")
  reject ((self.filesystem.immutable.items.map Str.bytes).any overlaps_writable)
    (.Preparation "immutable guest paths overlap a writable guest path")
  reject (Json.size self.round_trip.to_json > MAX_MANIFEST_BYTES)
    (.Limit "environment manifest bytes")

/-- What `calculate_environment_id` feeds to the hash. -/
def identity_preimage : Bytes :=
  let hash := IDENTITY_DOMAIN
  let hash := hash ++ be 4 self.schema_version.toNat
  let hash := hash_string hash self.execution_profile
  let hash := hash_string hash self.language.name
  let hash := hash_string hash self.language.version
  let hash := hash_string hash self.language.implementation
  let hash := hash_string hash self.artifact.format
  let hash := hash_string hash self.artifact.path
  let hash := hash_string hash self.artifact.sha256
  let hash := hash_strings hash self.required_wasm_features
  let hash := hash_string hash self.commands.default
  let hash := hash_strings hash self.commands.available
  let hash := hash_strings hash self.filesystem.immutable
  let hash := hash_strings hash self.filesystem.writable
  let hash := hash_string hash self.build.toolchain_id
  let hash := hash_string hash self.build.source_digest
  hash_string hash self.build.lock_digest

/-- `EnvironmentManifest::calculate_environment_id`. -/
def calculate_environment_id : Exec Error (Str T) := do
  self.validate_identity_fields E
  pure (prefixed_sha256 (E.crypto.sha256 self.identity_preimage) (E.crypto.sha256_length _))

/-- `EnvironmentManifest::with_calculated_environment_id`. -/
def with_calculated_environment_id : Exec Error (EnvironmentManifest T) := do
  let environment_id ← self.calculate_environment_id E
  pure { self with environment_id := environment_id }

/-- `EnvironmentManifest::validate`. -/
def validate : Exec Error Unit := do
  self.validate_identity_fields E
  validate_prefixed_sha256 "environment ID" self.environment_id.value
  let calculated ← self.calculate_environment_id E
  reject (self.environment_id != calculated)
    (.Preparation ("environment ID mismatch: expected " ++ calculated.value ++ ", got "
      ++ self.environment_id.value))

/-- `EnvironmentManifest::from_json`. -/
def from_json (bytes : Bytes) : Exec Error (EnvironmentManifest T) := do
  reject (bytes.length > MAX_MANIFEST_BYTES) (.Limit "environment manifest bytes")
  let schema_version ← ofExcept
    (fun error => .Preparation ("invalid environment manifest: " ++ error))
    (E.from_slice_envelope bytes)
  reject (schema_version != 1)
    (.UnsupportedComponent ("unsupported environment schema version "
      ++ Nat.repr schema_version.toNat))
  let manifest ← ofExcept
    (fun error => .Preparation ("invalid environment manifest: " ++ error))
    (E.from_slice bytes)
  manifest.validate E
  pure manifest

end EnvironmentManifest

/-! ## One manifest, one preimage

A `usize` is never wider than eight bytes, so the lengths are exact, and each part says where it
ends; two manifests with one such byte string agree in every field that was fed. -/

/-- A string behind its length. -/
def stringCode (value : Str T) : Bytes := be 8 value.bytes.length ++ value.bytes

/-- A list of strings behind its count. -/
def stringsCode (values : StrVec T) : Bytes :=
  be 8 values.items.length ++ values.items.flatMap stringCode

theorem hash_string_eq (hash : Bytes) (value : Str T) :
    hash_string hash value = hash ++ stringCode value := by
  rw [hash_string, stringCode, List.append_assoc]

theorem hash_strings_eq (hash : Bytes) (values : StrVec T) :
    hash_strings hash values = hash ++ stringsCode values := by
  have hfold : ∀ (items : List (Str T)) (hash : Bytes),
      items.foldl hash_string hash = hash ++ items.flatMap stringCode := by
    intro items
    induction items with
    | nil => exact fun hash => (List.append_nil hash).symm
    | cons value items ih =>
      intro hash
      rw [List.foldl_cons, ih, hash_string_eq, List.flatMap_cons, List.append_assoc]
  rw [hash_strings, hfold, stringsCode, List.append_assoc]

/-- A `usize` fits into eight bytes. -/
theorem usize_lt (T : Target) {n : ℕ} (hn : n ≤ T.usize_max) : n < 256 ^ 8 := by
  have hmax := T.usize_max_le_u64_max
  unfold u64_max at hmax
  omega

theorem Str.bytes_injective : Function.Injective (Str.bytes : Str T → Bytes) := by
  rintro ⟨a, ha⟩ ⟨b, hb⟩ h
  obtain rfl : a = b := utf8_inj h
  rfl

theorem selfDelimiting_stringCode :
    SelfDelimiting Set.univ (stringCode : Str T → Bytes) :=
  (selfDelimiting_bytes 8).comp (fun value _ => usize_lt T value.len_le) Str.bytes_injective

theorem selfDelimiting_stringsCode :
    SelfDelimiting Set.univ (stringsCode : StrVec T → Bytes) := by
  have hlist := (selfDelimiting_stringCode (T := T)).counted (selfDelimiting_be 8)
  refine hlist.comp (f := StrVec.items) (fun values _ => ?_) ?_
  · exact ⟨usize_lt T values.len_le, fun _ _ => trivial⟩
  · rintro ⟨a, ha⟩ ⟨b, hb⟩ h
    obtain rfl : a = b := h
    rfl

namespace EnvironmentManifest

/-- The preimage, part by part. -/
theorem identity_preimage_eq (self : EnvironmentManifest T) :
    self.identity_preimage = IDENTITY_DOMAIN ++ (be 4 self.schema_version.toNat ++
      (stringCode self.execution_profile ++ (stringCode self.language.name ++
      (stringCode self.language.version ++ (stringCode self.language.implementation ++
      (stringCode self.artifact.format ++ (stringCode self.artifact.path ++
      (stringCode self.artifact.sha256 ++ (stringsCode self.required_wasm_features ++
      (stringCode self.commands.default ++ (stringsCode self.commands.available ++
      (stringsCode self.filesystem.immutable ++ (stringsCode self.filesystem.writable ++
      (stringCode self.build.toolchain_id ++ (stringCode self.build.source_digest ++
      stringCode self.build.lock_digest))))))))))))))) := by
  simp only [identity_preimage, hash_string_eq, hash_strings_eq, List.append_assoc]

/-- Manifests with one preimage agree in every field but `environment_id`. -/
theorem eq_of_identity_preimage {m m' : EnvironmentManifest T}
    (h : m.identity_preimage = m'.identity_preimage) :
    { m with environment_id := m'.environment_id } = m' := by
  have hstring : ∀ a b : Str T, ∀ s t, stringCode a ++ s = stringCode b ++ t → a = b ∧ s = t :=
    fun a b => selfDelimiting_stringCode a trivial b trivial
  have hstrings : ∀ a b : StrVec T, ∀ s t,
      stringsCode a ++ s = stringsCode b ++ t → a = b ∧ s = t :=
    fun a b => selfDelimiting_stringsCode a trivial b trivial
  obtain ⟨schema, id, profile, ⟨name, version, implementation⟩, ⟨format, path, sha256⟩, features,
    ⟨default, available⟩, ⟨immutable, writable⟩, ⟨toolchain, source, lock⟩⟩ := m
  obtain ⟨schema', id', profile', ⟨name', version', implementation'⟩, ⟨format', path', sha256'⟩,
    features', ⟨default', available'⟩, ⟨immutable', writable'⟩,
    ⟨toolchain', source', lock'⟩⟩ := m'
  simp only [identity_preimage_eq] at h
  -- The last part has nothing behind it.
  obtain ⟨hschema, h⟩ := selfDelimiting_be 4 _ schema.toNat_lt _ schema'.toNat_lt _ _
    (List.append_cancel_left h)
  obtain ⟨hprofile, h⟩ := hstring _ _ _ _ h
  obtain ⟨hname, h⟩ := hstring _ _ _ _ h
  obtain ⟨hversion, h⟩ := hstring _ _ _ _ h
  obtain ⟨himplementation, h⟩ := hstring _ _ _ _ h
  obtain ⟨hformat, h⟩ := hstring _ _ _ _ h
  obtain ⟨hpath, h⟩ := hstring _ _ _ _ h
  obtain ⟨hsha256, h⟩ := hstring _ _ _ _ h
  obtain ⟨hfeatures, h⟩ := hstrings _ _ _ _ h
  obtain ⟨hdefault, h⟩ := hstring _ _ _ _ h
  obtain ⟨havailable, h⟩ := hstrings _ _ _ _ h
  obtain ⟨himmutable, h⟩ := hstrings _ _ _ _ h
  obtain ⟨hwritable, h⟩ := hstrings _ _ _ _ h
  obtain ⟨htoolchain, h⟩ := hstring _ _ _ _ h
  obtain ⟨hsource, h⟩ := hstring _ _ _ _ h
  obtain ⟨hlock, -⟩ := hstring lock lock' [] [] (by rw [List.append_nil, List.append_nil]; exact h)
  rw [UInt32.toNat_inj.mp hschema, hprofile, hname, hversion, himplementation, hformat, hpath,
    hsha256, hfeatures, hdefault, havailable, himmutable, hwritable, htoolchain, hsource, hlock]

end EnvironmentManifest

/-! ## The identity of a manifest

Three ways to a manifest, and the identity that each comes with. -/

theorem validate_prefixed_sha256_hexEncode (label : String) {digest : Bytes}
    (hlen : digest.length = 32) :
    validate_prefixed_sha256 label ("sha256:" ++ hexEncode digest) = .ok () := by
  have hstrip : Checkpoint.stripPrefix "sha256:" ("sha256:" ++ hexEncode digest)
      = some (hexEncode digest) := by
    have hdrop : ("sha256:" ++ hexEncode digest).toList.drop "sha256:".length
        = (hexEncode digest).toList := by
      rw [String.toList_append, ← String.length_toList, List.drop_left]
    rw [Checkpoint.stripPrefix, if_pos, hdrop, String.ofList_toList]
    rw [String.toList_append]
    exact List.prefix_append _ _
  obtain ⟨htext, hall⟩ := utf8_hexEncode digest
  rw [validate_prefixed_sha256, hstrip, ofOption_some, ok_bind, validate_hex_sha256,
    reject_eq_ok, htext, hall, hlen]
  rfl

namespace EnvironmentManifest

variable {E : ManifestEnv T} {m m' : EnvironmentManifest T}

theorem calculate_environment_id_eq_ok {id : Str T} :
    m.calculate_environment_id E = .ok id ↔ m.validate_identity_fields E = .ok () ∧
      id = prefixed_sha256 (E.crypto.sha256 m.identity_preimage) (E.crypto.sha256_length _) := by
  rw [calculate_environment_id, bind_eq_ok]
  constructor
  · rintro ⟨_, hvalid, hid⟩
    exact ⟨hvalid, (Exec.ok.inj hid).symm⟩
  · rintro ⟨hvalid, rfl⟩
    exact ⟨(), hvalid, rfl⟩

/-- A manifest is valid when it carries the identity calculated for it. -/
theorem validate_eq_ok {u : Unit} :
    m.validate E = .ok u ↔ m.calculate_environment_id E = .ok m.environment_id := by
  unfold validate
  simp only [bind_eq_ok, reject_eq_ok, bne_eq_false_iff_eq]
  constructor
  · rintro ⟨_, -, _, -, calculated, hcalculated, hsame⟩
    rw [hsame]
    exact hcalculated
  · intro h
    obtain ⟨hvalid, hid⟩ := calculate_environment_id_eq_ok.mp h
    refine ⟨(), hvalid, (), ?_, _, h, rfl⟩
    rw [hid]
    exact validate_prefixed_sha256_hexEncode _ (E.crypto.sha256_length _)

/-- What `with_calculated_environment_id` returns is valid. -/
theorem validate_of_with_calculated {u : Unit}
    (h : m.with_calculated_environment_id E = .ok m') : m'.validate E = .ok u := by
  obtain ⟨id, hid, hm'⟩ := bind_eq_ok.mp h
  cases hm'
  exact validate_eq_ok.mpr hid

/-- What `from_json` returns carries the identity calculated for it. -/
theorem calculated_of_from_json {bytes : Bytes} (h : from_json E bytes = .ok m) :
    m.calculate_environment_id E = .ok m.environment_id := by
  unfold from_json at h
  simp only [bind_eq_ok] at h
  obtain ⟨_, -, _, -, _, -, manifest, -, _, hvalid, hm⟩ := h
  cases hm
  exact validate_eq_ok.mp hvalid

/-- The preimage determines every field but `environment_id`. So manifests with the same
calculated identity are the same environment, if SHA-256 does not take their preimages to one
digest; the identity does not depend on the field that holds it, nor on the texts from which two
manifests that agree in the other fields were read. -/
theorem environment_identity (E : ManifestEnv T) (m m' : EnvironmentManifest T) :
    (m.identity_preimage = m'.identity_preimage →
      { m with environment_id := m'.environment_id } = m') ∧
    ((E.crypto.sha256 m.identity_preimage = E.crypto.sha256 m'.identity_preimage →
        m.identity_preimage = m'.identity_preimage) →
      ∀ id, m.calculate_environment_id E = .ok id → m'.calculate_environment_id E = .ok id →
        { m with environment_id := m'.environment_id } = m') ∧
    (∀ id, { m with environment_id := id }.calculate_environment_id E
      = m.calculate_environment_id E) ∧
    (∀ bytes bytes', from_json E bytes = .ok m → from_json E bytes' = .ok m' →
      { m with environment_id := m'.environment_id } = m' → m = m') := by
  have hfield : ∀ (m : EnvironmentManifest T) id,
      { m with environment_id := id }.calculate_environment_id E
        = m.calculate_environment_id E := fun _ _ => rfl
  refine ⟨eq_of_identity_preimage, fun hseparates id hid hid' => ?_, hfield m,
    fun bytes bytes' hm hm' hagree => ?_⟩
  · obtain ⟨-, hdigest⟩ := calculate_environment_id_eq_ok.mp hid
    obtain ⟨-, hdigest'⟩ := calculate_environment_id_eq_ok.mp hid'
    -- Equal identifiers are equal digests, written in the same way.
    have htext := congrArg Str.value (hdigest.symm.trans hdigest')
    have hhex := (String.append_right_inj "sha256:").mp htext
    exact eq_of_identity_preimage (hseparates (hexEncode_inj hhex))
  · have hid := calculated_of_from_json hm
    have hid' := calculated_of_from_json hm'
    -- A manifest that was read names the identifier that is calculated from its other fields.
    rw [← hagree, hfield, hid] at hid'
    rw [← hagree, ← Exec.ok.inj hid']

end EnvironmentManifest

/-! ## The manifest of the crate's tests

The digest is the one that the tests compare with. -/

/-- A target with a 64-bit `usize`. -/
def sampleHost : Target where
  usize_bits := 64
  little_endian := true
  build_target := "x86_64-unknown-linux-gnu"
  usize_bits_mem := usize_bits_64
  build_target_short := linux_gnu_short

/-- A list of two strings. -/
def samplePair (first second : Str sampleHost) : StrVec sampleHost :=
  ⟨[first, second], show 2 ≤ sampleHost.usize_max by decide⟩

/-- The digest that the tests of the crate hold the identity to. -/
def sampleIdentity : Bytes :=
  be 32 0xe3c767685c231a3e709285b925a234f13303f8736e1684fda2fe2cfb71b1dc83

/-- `valid_manifest`. -/
def sampleManifest : EnvironmentManifest sampleHost where
  schema_version := 1
  environment_id := prefixed_sha256 sampleIdentity (be_length 32 _)
  execution_profile := ⟨"wasix32-v1", by decide⟩
  language := ⟨⟨"rust", by decide⟩, ⟨"1.94.0", by decide⟩, ⟨"rustc", by decide⟩⟩
  artifact := ⟨⟨"webc", by decide⟩, ⟨"environment.webc", by decide⟩,
    ⟨"1111111111111111111111111111111111111111111111111111111111111111", by decide⟩⟩
  required_wasm_features := samplePair ⟨"bulk-memory", by decide⟩ ⟨"simd128", by decide⟩
  commands := ⟨⟨"main", by decide⟩, samplePair ⟨"health", by decide⟩ ⟨"main", by decide⟩⟩
  filesystem := ⟨samplePair ⟨"/bin", by decide⟩ ⟨"/usr/lib", by decide⟩,
    samplePair ⟨"/tmp", by decide⟩ ⟨"/work", by decide⟩⟩
  build := ⟨⟨"wasix-rust-1.94.0", by decide⟩,
    ⟨"sha256:2222222222222222222222222222222222222222222222222222222222222222", by decide⟩,
    ⟨"sha256:3333333333333333333333333333333333333333333333333333333333333333", by decide⟩⟩

/-- SHA-256 at the preimage of the manifest; its value at the empty string stands for everything
else. No text is read. -/
def sampleManifestEnv : ManifestEnv sampleHost where
  crypto :=
    { sha256 := fun bytes => if bytes = sampleManifest.identity_preimage then sampleIdentity
        else be 32 0xe3b0c44298fc1c149afbf4c8996fb92427ae41e4649b934ca495991b7852b855
      hmac_sha256 := fun _ _ => be 32 0
      sha256_length := fun bytes => by split <;> exact be_length 32 _
      hmac_sha256_length := fun _ _ => be_length 32 0 }
  debug value := "\"" ++ value ++ "\""
  from_slice_envelope _ := .error "EOF while parsing a value at line 1 column 0"
  from_slice _ := .error "EOF while parsing a value at line 1 column 0"

theorem sampleManifest_calculated :
    sampleManifest.calculate_environment_id sampleManifestEnv
      = .ok sampleManifest.environment_id := by
  refine EnvironmentManifest.calculate_environment_id_eq_ok.mpr ⟨?_, ?_⟩
  · decide +kernel
  · simp only [sampleManifestEnv, if_true]
    rfl

/-- The manifest as the tests build it, before its identity is calculated. -/
def sampleUnidentified : EnvironmentManifest sampleHost :=
  { sampleManifest with environment_id := ⟨"", by decide⟩ }

/-- The two have one identity and are one environment. -/
theorem environment_identity_sample :
    sampleUnidentified.calculate_environment_id sampleManifestEnv
        = .ok sampleManifest.environment_id ∧
      { sampleManifest with environment_id := sampleUnidentified.environment_id }
        = sampleUnidentified := by
  obtain ⟨-, hsame, hfield, -⟩ := EnvironmentManifest.environment_identity sampleManifestEnv
    sampleManifest sampleUnidentified
  have hblank : sampleUnidentified.calculate_environment_id sampleManifestEnv
      = .ok sampleManifest.environment_id := (hfield _).trans sampleManifest_calculated
  exact ⟨hblank, hsame (fun _ => rfl) _ sampleManifest_calculated hblank⟩

end WasmRuntime.Environment
