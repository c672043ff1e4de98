/-
The canonical form of a manifest: what the crate writes, the crate reads back.

A limit on the size stands at two places, on two texts. `from_json` measures the text it is given;
`validate_identity_fields` measures the text that the manifest would have with an identity of zeros.
Any text can be longer than the manifest's own (white space, escapes that need not be), so the first
says nothing about the second.
-/
import WasmRuntime.Environment

set_option autoImplicit false

namespace WasmRuntime.Environment

open ByteCodec Exec

variable {T : Target}

/-! ## The length of an identity

An identity that has been calculated is as long as the one of zeros, and neither has a character
that JSON escapes. -/

/-- A byte that is written as it is. -/
def plain (byte : UInt8) : Bool := decide (35 ≤ byte) && byte != 92

theorem escapeByte_plain {byte : UInt8} (h : plain byte = true) :
    Json.escapeByte byte = [byte] := by
  unfold plain at h
  rw [Bool.and_eq_true, decide_eq_true_eq, bne_iff_ne] at h
  obtain ⟨hge, hbackslash⟩ := h
  have hnat : 35 ≤ byte.toNat := hge
  have hne : ∀ other : UInt8, other.toNat < 35 → byte ≠ other := by
    rintro other hlt rfl
    omega
  have hcontrol : ¬ byte < 32 := by
    intro hlt
    have hlt' : byte.toNat < 32 := hlt
    omega
  unfold Json.escapeByte
  rw [if_neg (hne 34 (by decide)), if_neg hbackslash, if_neg (hne 8 (by decide)),
    if_neg (hne 9 (by decide)), if_neg (hne 10 (by decide)), if_neg (hne 12 (by decide)),
    if_neg (hne 13 (by decide)), if_neg hcontrol]

/-- A string of such bytes is as long as its text between the quotes. -/
theorem size_str_plain {s : String} (h : ∀ byte ∈ utf8 s, plain byte = true) :
    Json.size (Json.str s) = (utf8 s).length + 2 := by
  have hflat : ∀ bytes : Bytes, (∀ byte ∈ bytes, plain byte = true) →
      bytes.flatMap Json.escapeByte = bytes := by
    intro bytes
    induction bytes with
    | nil => exact fun _ => rfl
    | cons byte rest ih =>
      intro hbytes
      rw [List.flatMap_cons, escapeByte_plain (hbytes byte List.mem_cons_self),
        ih fun b hb => hbytes b (List.mem_cons_of_mem _ hb), List.singleton_append]
  rw [Json.str, Json.size_cons, Json.size_cons, Json.size_cons, Json.size_nil, hflat _ h]
  simp only [List.length_singleton]
  omega

theorem plain_of_isHexByte {byte : UInt8} (h : isHexByte byte = true) : plain byte = true := by
  unfold isHexByte at h
  simp only [Bool.or_eq_true, Bool.and_eq_true, decide_eq_true_eq, UInt8.le_iff_toNat_le] at h
  unfold plain
  rw [Bool.and_eq_true, decide_eq_true_eq, bne_iff_ne, UInt8.le_iff_toNat_le]
  have hbackslash : (92 : UInt8).toNat = 92 := rfl
  constructor
  · have hmin : (35 : UInt8).toNat = 35 := rfl
    rcases h with ⟨hlow, -⟩ | ⟨hlow, -⟩
    · exact hmin ▸ Nat.le_trans (by decide) hlow
    · exact hmin ▸ Nat.le_trans (by decide) hlow
  · rintro rfl
    revert h
    decide

/-- Every identity is written in 73 bytes. -/
theorem size_prefixed_sha256 (digest : Bytes) (hlen : digest.length = 32) :
    Json.size (Json.str (prefixed_sha256 (T := T) digest hlen).value) = 73 := by
  have hvalue : (prefixed_sha256 (T := T) digest hlen).value = "sha256:" ++ hexEncode digest := rfl
  have hstart : ∀ byte ∈ utf8 "sha256:", plain byte = true := by decide +kernel
  obtain ⟨hlength, hhex⟩ := utf8_hexEncode digest
  have hplain : ∀ byte ∈ utf8 ("sha256:" ++ hexEncode digest), plain byte = true := by
    intro byte hbyte
    rw [utf8_append] at hbyte
    rcases List.mem_append.mp hbyte with hbyte | hbyte
    · exact hstart byte hbyte
    · exact plain_of_isHexByte (List.all_eq_true.mp hhex byte hbyte)
  rw [hvalue, size_str_plain hplain, utf8_append, List.length_append, hlength, hlen]
  rfl

/-! ## The text of a manifest

The text that is measured is the one that is written. `serde_json` is assumed to decode what it
encodes, for the manifest in question and for its envelope. -/

namespace EnvironmentManifest

/-- `serde_json::to_vec`. -/
def to_vec (self : EnvironmentManifest T) : Bytes := Json.render self.to_json

/-- Identities that are written in as many bytes make texts of one length. -/
theorem size_with_id (m : EnvironmentManifest T) {id : Str T}
    (h : Json.size (Json.str id.value) = Json.size (Json.str m.environment_id.value)) :
    Json.size { m with environment_id := id }.to_json = Json.size m.to_json := by
  simp only [to_json, Json.obj, Json.moreMembers, Json.member, Json.size_cons, Json.size_append, h]

/-- A manifest that carries the identity calculated for it is written within the limit. -/
theorem to_vec_length_le {E : ManifestEnv T} {m : EnvironmentManifest T}
    (h : m.calculate_environment_id E = .ok m.environment_id) :
    m.to_vec.length ≤ MAX_MANIFEST_BYTES := by
  obtain ⟨hvalid, hid⟩ := calculate_environment_id_eq_ok.mp h
  have hsize : Json.size m.round_trip.to_json ≤ MAX_MANIFEST_BYTES := by
    -- The last of the checks.
    unfold validate_identity_fields at hvalid
    simp only [bind_eq_ok] at hvalid
    obtain ⟨_, -, _, -, _, -, _, -, _, -, _, -, _, -, _, -, _, -, _, -, _, -, _, -, _, -, _, -,
      _, -, _, -, _, -, _, -, hlast⟩ := hvalid
    rw [reject_eq_ok, decide_eq_false_iff_not, gt_iff_lt, not_lt] at hlast
    exact hlast
  have hsame : Json.size m.round_trip.to_json = Json.size m.to_json := by
    apply size_with_id
    rw [size_prefixed_sha256, hid, size_prefixed_sha256]
  rw [hsame] at hsize
  exact hsize

/-- `serde_json` decodes what it encodes: the manifest, and its envelope. -/
structure Decodes (E : ManifestEnv T) (m : EnvironmentManifest T) : Prop where
  envelope : E.from_slice_envelope m.to_vec = .ok m.schema_version
  manifest : E.from_slice m.to_vec = .ok m

/-- A manifest that carries the identity calculated for it is read back from its text. -/
theorem from_json_to_vec {E : ManifestEnv T} {m : EnvironmentManifest T} (hserde : Decodes E m)
    (h : m.calculate_environment_id E = .ok m.environment_id) :
    from_json E m.to_vec = .ok m := by
  have hvalid : m.validate E = .ok () := validate_eq_ok.mpr h
  have hschema : (m.schema_version != 1) = false := by
    have hfields := (calculate_environment_id_eq_ok.mp h).1
    unfold validate_identity_fields at hfields
    obtain ⟨_, hfirst, -⟩ := bind_eq_ok.mp hfields
    exact reject_eq_ok.mp hfirst
  have hlength : decide (m.to_vec.length > MAX_MANIFEST_BYTES) = false := by
    rw [decide_eq_false_iff_not, gt_iff_lt, not_lt]
    exact to_vec_length_le h
  unfold from_json
  rw [hlength, reject_false, ok_bind, hserde.envelope, ofExcept_ok, ok_bind,
    hschema, reject_false, ok_bind, hserde.manifest, ofExcept_ok, ok_bind,
    hvalid, ok_bind]
  rfl

/-- The canonical form is stable. A manifest that was given its calculated identity is valid, is
written within the limit, is read back as it is, and has the identity that would be calculated
again. A manifest that was read from whatever text is read back from its own. -/
theorem canonical_form_stable (E : ManifestEnv T) (m : EnvironmentManifest T)
    (hserde : Decodes E m) :
    (∀ original : EnvironmentManifest T, original.with_calculated_environment_id E = .ok m →
      m.validate E = .ok () ∧ m.to_vec.length ≤ MAX_MANIFEST_BYTES ∧
        from_json E m.to_vec = .ok m ∧ m.with_calculated_environment_id E = .ok m) ∧
    (∀ bytes, from_json E bytes = .ok m → from_json E m.to_vec = .ok m) := by
  constructor
  · intro original hcalculated
    have hvalid : m.validate E = .ok () := validate_of_with_calculated hcalculated
    have hid := validate_eq_ok.mp hvalid
    refine ⟨hvalid, to_vec_length_le hid, from_json_to_vec hserde hid, ?_⟩
    rw [with_calculated_environment_id, hid, ok_bind]
    rfl
  · intro bytes hread
    exact from_json_to_vec hserde (calculated_of_from_json hread)

end EnvironmentManifest

/-- `serde_json` at the text of the sample manifest. -/
def sampleSerdeEnv : ManifestEnv sampleHost :=
  { sampleManifestEnv with
    from_slice_envelope := fun bytes =>
      if bytes = sampleManifest.to_vec then .ok 1
      else .error "EOF while parsing a value at line 1 column 0"
    from_slice := fun bytes =>
      if bytes = sampleManifest.to_vec then .ok sampleManifest
      else .error "EOF while parsing a value at line 1 column 0" }

/-- The manifest of the tests is given its identity, written, and read back. -/
theorem canonical_form_stable_sample :
    sampleUnidentified.with_calculated_environment_id sampleSerdeEnv = .ok sampleManifest ∧
      EnvironmentManifest.from_json sampleSerdeEnv sampleManifest.to_vec = .ok sampleManifest := by
  have hserde : EnvironmentManifest.Decodes sampleSerdeEnv sampleManifest := by
    constructor
    · simp only [sampleSerdeEnv, if_true]
      rfl
    · simp only [sampleSerdeEnv, if_true]
  have hcalculated : sampleUnidentified.with_calculated_environment_id sampleSerdeEnv
      = .ok sampleManifest := by
    have hid : sampleUnidentified.calculate_environment_id sampleSerdeEnv
        = .ok sampleManifest.environment_id := sampleManifest_calculated
    rw [EnvironmentManifest.with_calculated_environment_id, hid, ok_bind]
    rfl
  have hstable := (EnvironmentManifest.canonical_form_stable sampleSerdeEnv sampleManifest
    hserde).1 sampleUnidentified hcalculated
  exact ⟨hcalculated, hstable.2.2.1⟩

end WasmRuntime.Environment
