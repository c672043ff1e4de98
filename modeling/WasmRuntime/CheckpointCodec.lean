/-
`checkpoint.rs`, the codec: sealing a captured journal into an artifact, and the two readers that
work on an artifact in memory.

An artifact is a 22-byte header, the JSON metadata, the journal and a 32-byte tag over everything
before it. The reader's checks are spread over a dozen early returns, some on lengths before
anything is trusted and some on contents after the tag has been verified.
-/
import WasmRuntime.Journal
import WasmRuntime.CheckpointMetadata

set_option autoImplicit false

namespace WasmRuntime.Checkpoint

open ByteCodec Journal Exec

/-! ## Constants

The magic, the version and the sizes of the fixed parts. -/

def CHECKPOINT_MAGIC : Bytes := [0x52, 0x54, 0x57, 0x43, 0x50, 0x4b, 0x54, 0x00]

def CHECKPOINT_FORMAT_VERSION : ℕ := 2

def CHECKPOINT_DOMAIN : Bytes := utf8 "runtrue-wasm-runtime.wasix-checkpoint.v2" ++ [0]

def CHECKPOINT_HEADER_BYTES : ℕ := 8 + 2 + 4 + 8

def CHECKPOINT_TAG_BYTES : ℕ := 32

/-! ## What the codec takes from outside

What the crate takes from outside is in `Env`: the target, the two primitives, `serde_json`'s
decoder for the metadata record and the allocator. The encoder is not among them; it is written out
in `CheckpointMetadata.lean`, because whether sealing can fail depends on how long its output
gets. -/

/-- The environment of the codec. `from_slice` is `serde_json::from_slice` at
`CheckpointMetadata`, and `try_reserve_exact` is the allocator's answer to a request
for so many bytes; both report a failure by its message. -/
structure Env where
  target : Target
  crypto : Crypto
  from_slice : Bytes → Except String CheckpointMetadata
  try_reserve_exact : ℕ → Except String Unit

/-- The allocator grants every request of at most `n` bytes. -/
def Env.Grants (E : Env) (n : ℕ) : Prop := ∀ k ≤ n, E.try_reserve_exact k = .ok ()

/-- `Write::write_all` of a writer with state `W`: the writer afterwards, and whether
the call succeeded. -/
structure Write (W : Type) where
  write_all : W → Bytes → W × Except String Unit

/-- `impl Write for Vec<u8>`. -/
def Write.vec : Write Bytes := ⟨fun vec bytes => (vec ++ bytes, .ok ())⟩

/-- `serde_json::to_writer`: the writes of a text, up to the first that fails. -/
def to_writer {W : Type} (w : Write W) : W → Json.Text → W × Except String Unit
  | writer, [] => (writer, .ok ())
  | writer, bytes :: rest =>
    match w.write_all writer bytes with
    | (writer, .ok ()) => to_writer w writer rest
    | (writer, .error error) => (writer, .error error)

structure FallibleBoundedVec where
  bytes : Bytes
  maximum_bytes : ℕ
  deriving DecidableEq, Repr

/-- `FallibleBoundedVec::new`. -/
def FallibleBoundedVec.new (maximum_bytes : ℕ) : FallibleBoundedVec := ⟨[], maximum_bytes⟩

/-- `FallibleBoundedVec::into_inner`. -/
def FallibleBoundedVec.into_inner (self : FallibleBoundedVec) : Bytes := self.bytes

/-- `impl Write for FallibleBoundedVec`. A `write` takes all of its argument or none,
so `write_all` is one `write`. -/
def FallibleBoundedVec.write (E : Env) : Write FallibleBoundedVec where
  write_all self bytes :=
    match checkedAdd E.target.usize_max self.bytes.length bytes.length with
    | none => (self, .error "metadata length overflows usize")
    | some new_len =>
      if new_len > self.maximum_bytes then
        (self, .error "metadata exceeds the checkpoint format limit")
      else
        match E.try_reserve_exact bytes.length with
        | .error error => (self, .error ("metadata allocation failed: " ++ error))
        | .ok () => ({ self with bytes := self.bytes ++ bytes }, .ok ())

/-! ## The codec's types

The key and the codec that holds it. -/

structure CheckpointAuthenticationKey where
  bytes : Bytes
  length_eq : bytes.length = 32

structure WasixCheckpointCodec where
  authentication_key : CheckpointAuthenticationKey
  max_journal_bytes : ℕ

/-- `WasixCheckpointCodec::new`. -/
def WasixCheckpointCodec.new (authentication_key : CheckpointAuthenticationKey) :
    WasixCheckpointCodec := ⟨authentication_key, 512 * 1024 * 1024⟩

/-- `WasixCheckpointCodec::with_max_journal_bytes`. -/
def WasixCheckpointCodec.with_max_journal_bytes (self : WasixCheckpointCodec)
    (max_journal_bytes : ℕ) : WasixCheckpointCodec := { self with max_journal_bytes }

structure CapturedWasixJournal where
  bytes : Bytes
  binding : WasixCheckpointBinding
  worker_build_sha256 : String
  explicit_snapshot : Bool
  deriving DecidableEq, Repr

/-- `CapturedWasixJournal::from_attested_worker_capture`, the only constructor. -/
def CapturedWasixJournal.from_attested_worker_capture (E : Env) (bytes : Bytes)
    (binding : WasixCheckpointBinding) (worker_build_sha256 : String) :
    Exec Error CapturedWasixJournal := do
  binding.validate
  validate_sha256 "captured worker build digest" worker_build_sha256
  scan_journal E.target bytes
  pure ⟨bytes, binding, worker_build_sha256, true⟩

structure PreparedCheckpoint where
  header : Bytes
  metadata : Bytes
  journal : Bytes
  artifact_len : ℕ
  deriving DecidableEq, Repr

structure CheckpointArtifactLayout where
  metadata_end : ℕ
  authenticated_len : ℕ
  artifact_len : ℕ
  deriving DecidableEq, Repr

/-- `VerifiedCheckpointParts`; a `Range<usize>` is the pair of its ends. -/
structure VerifiedCheckpointParts where
  binding : WasixCheckpointBinding
  journal : ℕ × ℕ
  artifact_sha256 : String
  worker_build_sha256 : String
  deriving DecidableEq, Repr

structure VerifiedWasixCheckpoint where
  binding : WasixCheckpointBinding
  bytes : Bytes
  journal_range : ℕ × ℕ
  artifact_sha256 : String
  worker_build_sha256 : String
  deriving DecidableEq, Repr

structure VerifiedWasixCheckpointView where
  binding : WasixCheckpointBinding
  journal : Bytes
  artifact_sha256 : String
  worker_build_sha256 : String
  deriving DecidableEq, Repr

/-! ## Authentication

A MAC is a key and what it has been fed, so the tag does not depend on how the chunks are cut. -/

/-- `Hmac<Sha256>`: the key and what it has been fed. -/
structure HmacSha256 where
  key : Bytes
  fed : Bytes

/-- `Mac::update`. -/
def HmacSha256.update (mac : HmacSha256) (bytes : Bytes) : HmacSha256 :=
  { mac with fed := mac.fed ++ bytes }

/-- `Mac::finalize().into_bytes()`. -/
def HmacSha256.finalize (C : Crypto) (mac : HmacSha256) : Bytes := C.hmac_sha256 mac.key mac.fed

/-- `Mac::verify_slice`. -/
def HmacSha256.verify_slice (C : Crypto) (mac : HmacSha256) (tag : Bytes) : Bool :=
  tag == mac.finalize C

namespace WasixCheckpointCodec

variable (E : Env) (self : WasixCheckpointCodec)

/-- `authentication_state`. `Hmac::new_from_slice` takes keys of every length, so the
error arm of the source is never entered. -/
def authentication_state : HmacSha256 :=
  (⟨self.authentication_key.bytes, []⟩ : HmacSha256).update CHECKPOINT_DOMAIN

def authentication_tag (bytes : Bytes) : HmacSha256 := self.authentication_state.update bytes

/-! ## Limits

Both are checked before anything is read or written. -/

def maximum_artifact_bytes : Exec Error ℕ :=
  ofOption (.Checkpoint "checkpoint length overflows usize")
    ((checkedAdd E.target.usize_max CHECKPOINT_HEADER_BYTES MAX_CHECKPOINT_METADATA_BYTES).bind
      fun length => (checkedAdd E.target.usize_max length self.max_journal_bytes).bind
      fun length => checkedAdd E.target.usize_max length CHECKPOINT_TAG_BYTES)

def validate_limit : Exec Error Unit :=
  reject (self.max_journal_bytes == 0)
    (.Configuration "checkpoint journal limit must be positive")

def validate_journal_length (length : ℕ) : Exec Error Unit := do
  reject (length == 0) (.Checkpoint "checkpoint journal must not be empty")
  reject (length > self.max_journal_bytes)
    (.Checkpoint "checkpoint journal exceeds the configured limit")

/-! ## Sealing

The metadata is written first, because its length goes into the header; then all parts go to the
writer and the MAC alike. -/

/-- The header array that `prepare_seal` fills in. -/
def header (metadata_len journal_len : ℕ) : Bytes :=
  CHECKPOINT_MAGIC ++ (be 2 CHECKPOINT_FORMAT_VERSION ++ (be 4 metadata_len ++ be 8 journal_len))

def prepare_seal (binding : WasixCheckpointBinding) (journal : CapturedWasixJournal) :
    Exec Error PreparedCheckpoint := do
  self.validate_limit
  binding.validate
  reject (binding != journal.binding || !journal.explicit_snapshot)
    (.Checkpoint "captured journal does not match the checkpoint binding")
  self.validate_journal_length journal.bytes.length
  scan_journal E.target journal.bytes
  let metadata := CheckpointMetadata.current E.target E.crypto binding
    journal.worker_build_sha256 journal.bytes
  let (metadata_writer, written) := to_writer (FallibleBoundedVec.write E)
    (FallibleBoundedVec.new MAX_CHECKPOINT_METADATA_BYTES) metadata.to_json
  ofExcept (fun error => .Checkpoint ("checkpoint metadata encoding failed: " ++ error))
    written
  let metadata := metadata_writer.into_inner
  reject (metadata.isEmpty || metadata.length > MAX_CHECKPOINT_METADATA_BYTES)
    (.Checkpoint "checkpoint metadata exceeds the format limit")
  let capacity ← ofOption (.Checkpoint "checkpoint length overflows usize")
    ((checkedAdd E.target.usize_max CHECKPOINT_HEADER_BYTES metadata.length).bind
      fun length => (checkedAdd E.target.usize_max length journal.bytes.length).bind
      fun length => checkedAdd E.target.usize_max length CHECKPOINT_TAG_BYTES)
  let metadata_len ← ofOption (.Checkpoint "checkpoint metadata length overflows u32")
    (tryFrom u32_max metadata.length)
  let journal_len ← ofOption (.Checkpoint "checkpoint journal length overflows u64")
    (tryFrom u64_max journal.bytes.length)
  pure ⟨header metadata_len journal_len, metadata, journal.bytes, capacity⟩

def write_authenticated_chunk {W : Type} (w : Write W) (writer : W) (mac : HmacSha256)
    (bytes : Bytes) (phase : String) : W × Exec Error HmacSha256 :=
  match w.write_all writer bytes with
  | (writer, .error error) => (writer, .err (.Checkpoint
      ("checkpoint artifact " ++ phase ++ " write failed: " ++ error)))
  | (writer, .ok ()) => (writer, .ok (mac.update bytes))

/-- `write_prepared_checkpoint`: the writer afterwards, and the result. -/
def write_prepared_checkpoint {W : Type} (w : Write W) (prepared : PreparedCheckpoint)
    (writer : W) : W × Exec Error Unit :=
  match write_authenticated_chunk w writer self.authentication_state prepared.header "header" with
  | (writer, .ok mac) =>
    match write_authenticated_chunk w writer mac prepared.metadata "metadata" with
    | (writer, .ok mac) =>
      match write_authenticated_chunk w writer mac prepared.journal "journal" with
      | (writer, .ok mac) =>
        match w.write_all writer (mac.finalize E.crypto) with
        | (writer, .error error) => (writer, .err (.Checkpoint
            ("checkpoint artifact tag write failed: " ++ error)))
        | (writer, .ok ()) => (writer, .ok ())
      | (writer, r) => (writer, r >>= fun _ => .ok ())
    | (writer, r) => (writer, r >>= fun _ => .ok ())
  | (writer, r) => (writer, r >>= fun _ => .ok ())

def seal_bound_capture (binding : WasixCheckpointBinding) (journal : CapturedWasixJournal) :
    Exec Error Bytes := do
  let prepared ← self.prepare_seal E binding journal
  ofExcept
    (fun error => .Checkpoint ("checkpoint artifact allocation failed during seal: " ++ error))
    (E.try_reserve_exact prepared.artifact_len)
  let (artifact, written) := self.write_prepared_checkpoint E Write.vec prepared []
  written
  pure artifact

def seal_capture (journal : CapturedWasixJournal) : Exec Error Bytes :=
  self.seal_bound_capture E journal.binding journal

/-- `seal`; the trailing underscore, here and in `open_`, steps around a keyword. -/
def seal_ (binding : WasixCheckpointBinding) (journal : CapturedWasixJournal) :
    Exec Error Bytes := do
  binding.validate
  reject (binding != journal.binding)
    (.Checkpoint "captured journal binding does not match the checkpoint binding")
  self.seal_bound_capture E binding journal

/-! ## Opening

Lengths first, the tag next, the contents last. `open` and `verify` differ in whether the journal is
copied. -/

/-- `validate_header`, over the 22 bytes of a header array. -/
def validate_header (header : Bytes) : Exec Error CheckpointArtifactLayout := do
  let magic ← slice header 0 CHECKPOINT_MAGIC.length
  reject (magic != CHECKPOINT_MAGIC) (.Checkpoint "checkpoint artifact magic is invalid")
  let version := beVal (← slice header 8 10)
  reject (version != CHECKPOINT_FORMAT_VERSION)
    (.Checkpoint ("checkpoint format " ++ Nat.repr version ++ " is unsupported"))
  let metadata_len_u32 := beVal (← slice header 10 14)
  let metadata_len := (tryFrom E.target.usize_max metadata_len_u32).getD E.target.usize_max
  reject (metadata_len == 0 || metadata_len > MAX_CHECKPOINT_METADATA_BYTES)
    (.Checkpoint "checkpoint metadata length is invalid")
  let journal_len_u64 := beVal (← slice header 14 22)
  let journal_len ← ofOption (.Checkpoint "checkpoint journal length overflows usize")
    (tryFrom E.target.usize_max journal_len_u64)
  self.validate_journal_length journal_len
  let metadata_end ← ofOption (.Checkpoint "checkpoint length overflows usize")
    (checkedAdd E.target.usize_max CHECKPOINT_HEADER_BYTES metadata_len)
  let authenticated_len ← ofOption (.Checkpoint "checkpoint length overflows usize")
    (checkedAdd E.target.usize_max metadata_end journal_len)
  let artifact_len ← ofOption (.Checkpoint "checkpoint length overflows usize")
    (checkedAdd E.target.usize_max authenticated_len CHECKPOINT_TAG_BYTES)
  pure ⟨metadata_end, authenticated_len, artifact_len⟩

def verify_parts (expected_binding : WasixCheckpointBinding) (artifact : Bytes) :
    Exec Error VerifiedCheckpointParts := do
  self.validate_limit
  expected_binding.validate
  let maximum_artifact_bytes ← self.maximum_artifact_bytes E
  reject (artifact.length > maximum_artifact_bytes)
    (.Checkpoint "checkpoint artifact exceeds the configured limit")
  reject (artifact.length < CHECKPOINT_HEADER_BYTES + CHECKPOINT_TAG_BYTES)
    (.Checkpoint "checkpoint artifact is truncated")
  let header ← slice artifact 0 CHECKPOINT_HEADER_BYTES
  let layout ← self.validate_header E header
  reject (artifact.length != layout.artifact_len)
    (.Checkpoint "checkpoint artifact length does not match its header")
  let supplied_tag ← slice artifact layout.authenticated_len artifact.length
  let authenticated ← slice artifact 0 layout.authenticated_len
  reject (!(self.authentication_tag authenticated).verify_slice E.crypto supplied_tag)
    (.Checkpoint "checkpoint authentication failed")
  let metadata_bytes ← slice artifact CHECKPOINT_HEADER_BYTES layout.metadata_end
  let metadata ← ofExcept
    (fun error => .Checkpoint ("checkpoint metadata is malformed: " ++ error))
    (E.from_slice metadata_bytes)
  metadata.validate E.target E.crypto expected_binding
  let journal ← slice artifact layout.metadata_end layout.authenticated_len
  reject (metadata.journal_sha256 != E.crypto.sha256_hex journal)
    (.Checkpoint "checkpoint journal digest is invalid")
  scan_journal E.target journal
  pure ⟨metadata.binding, (layout.metadata_end, layout.authenticated_len),
    E.crypto.sha256_hex artifact, metadata.worker_build_sha256⟩

/-- `open`. -/
def open_ (expected_binding : WasixCheckpointBinding) (artifact : Bytes) :
    Exec Error VerifiedWasixCheckpoint := do
  let parts ← self.verify_parts E expected_binding artifact
  let journal ← slice artifact parts.journal.1 parts.journal.2
  ofExcept
    (fun error => .Checkpoint ("checkpoint journal allocation failed during open: " ++ error))
    (E.try_reserve_exact journal.length)
  pure ⟨parts.binding, journal, (0, journal.length), parts.artifact_sha256,
    parts.worker_build_sha256⟩

def verify (expected_binding : WasixCheckpointBinding) (artifact : Bytes) :
    Exec Error VerifiedWasixCheckpointView := do
  let parts ← self.verify_parts E expected_binding artifact
  let journal ← slice artifact parts.journal.1 parts.journal.2
  pure ⟨parts.binding, journal, parts.artifact_sha256, parts.worker_build_sha256⟩

end WasixCheckpointCodec

/-- `VerifiedWasixCheckpoint::journal`. -/
def VerifiedWasixCheckpoint.journal (self : VerifiedWasixCheckpoint) : Exec Error Bytes :=
  slice self.bytes self.journal_range.1 self.journal_range.2

/-! ## What the header accepts

The sums of the two lengths are made with overflow checks, and `HeaderOk` is what is left of all of
them. -/

namespace WasixCheckpointCodec

/-- As `CHECKPOINT_HEADER_BYTES` says. -/
theorem header_length (metadata_len journal_len : ℕ) :
    (header metadata_len journal_len).length = 22 := by
  simp only [header, List.length_append, be_length]
  rfl

/-- A header array falls into its four fields. -/
theorem header_fields {hdr : Bytes} (h : hdr.length = 22) :
    ∃ magic version metadata_len journal_len : Bytes,
      hdr = magic ++ (version ++ (metadata_len ++ journal_len)) ∧ magic.length = 8 ∧
        version.length = 2 ∧ metadata_len.length = 4 ∧ journal_len.length = 8 := by
  refine ⟨hdr.take 8, (hdr.drop 8).take 2, ((hdr.drop 8).drop 2).take 4,
    ((hdr.drop 8).drop 2).drop 4, ?_, ?_, ?_, ?_, ?_⟩
  · rw [List.take_append_drop, List.take_append_drop, List.take_append_drop]
  all_goals simp [h]

/-- The range check on a metadata length. A length that does not fit `usize` is read
as `usize::MAX`, which is past the bound as well. -/
theorem metadata_len_check (T : Target) (n : ℕ) :
    (((tryFrom T.usize_max n).getD T.usize_max == 0) = false ∧
      ¬ (tryFrom T.usize_max n).getD T.usize_max > MAX_CHECKPOINT_METADATA_BYTES) ↔
      1 ≤ n ∧ n ≤ MAX_CHECKPOINT_METADATA_BYTES := by
  have hmax := T.u16_max_le_usize_max
  unfold MAX_CHECKPOINT_METADATA_BYTES
  by_cases hn : n ≤ T.usize_max
  · rw [tryFrom_of_le hn, Option.getD_some, beq_eq_false_iff_ne]
    omega
  · have hnone : tryFrom T.usize_max n = none := if_neg hn
    rw [hnone, Option.getD_none, beq_eq_false_iff_ne]
    omega

theorem metadata_len_of_check {T : Target} {n : ℕ} (h : n ≤ MAX_CHECKPOINT_METADATA_BYTES) :
    (tryFrom T.usize_max n).getD T.usize_max = n := by
  have hmax := T.u16_max_le_usize_max
  unfold MAX_CHECKPOINT_METADATA_BYTES at h
  rw [tryFrom_of_le (by omega), Option.getD_some]

/-- A journal is not empty and within the limit. -/
theorem validate_journal_length_eq_ok {self : WasixCheckpointCodec} {n : ℕ} {u : Unit} :
    self.validate_journal_length n = .ok u ↔ 1 ≤ n ∧ n ≤ self.max_journal_bytes := by
  rw [validate_journal_length, bind_eq_ok]
  simp only [reject_eq_ok, beq_eq_false_iff_ne, decide_eq_false_iff_not]
  refine ⟨?_, fun h => ⟨(), by omega, by omega⟩⟩
  rintro ⟨_, h0, h1⟩
  omega

/-- The layout of an artifact with so many bytes of metadata and journal. -/
def layout_of (metadata_len journal_len : ℕ) : CheckpointArtifactLayout :=
  ⟨CHECKPOINT_HEADER_BYTES + metadata_len, CHECKPOINT_HEADER_BYTES + metadata_len + journal_len,
    CHECKPOINT_HEADER_BYTES + metadata_len + journal_len + CHECKPOINT_TAG_BYTES⟩

/-- What `validate_header` lets through: lengths in range whose sum is a `usize`. -/
structure HeaderOk (E : Env) (codec : WasixCheckpointCodec) (metadata_len journal_len : ℕ) :
    Prop where
  metadata_pos : 1 ≤ metadata_len
  metadata_le : metadata_len ≤ MAX_CHECKPOINT_METADATA_BYTES
  journal_pos : 1 ≤ journal_len
  journal_le : journal_len ≤ codec.max_journal_bytes
  fits : (layout_of metadata_len journal_len).artifact_len ≤ E.target.usize_max

variable {E : Env} {codec : WasixCheckpointCodec} {metadata_len journal_len : ℕ}

/-- The lengths of an artifact that a header allows are within the codec's own bound. -/
theorem HeaderOk.artifact_le (h : HeaderOk E codec metadata_len journal_len) :
    (layout_of metadata_len journal_len).artifact_len
      ≤ CHECKPOINT_HEADER_BYTES + MAX_CHECKPOINT_METADATA_BYTES + codec.max_journal_bytes
        + CHECKPOINT_TAG_BYTES := by
  have hmetadata := h.metadata_le
  have hjournal := h.journal_le
  simp only [layout_of]
  omega

theorem le_artifact_len (metadata_len journal_len : ℕ) :
    CHECKPOINT_HEADER_BYTES + CHECKPOINT_TAG_BYTES
      ≤ (layout_of metadata_len journal_len).artifact_len := by
  simp only [layout_of]
  omega

/-- The length of the metadata has room in its field of four bytes. -/
theorem HeaderOk.metadata_lt (h : HeaderOk E codec metadata_len journal_len) :
    metadata_len < 256 ^ 4 := by
  have hle := h.metadata_le
  unfold MAX_CHECKPOINT_METADATA_BYTES at hle
  omega

/-- The length of the journal is a `usize`, and has room in its field of eight bytes. -/
theorem HeaderOk.journal_lt (h : HeaderOk E codec metadata_len journal_len) :
    journal_len < 256 ^ 8 := by
  have hfits := h.fits
  have hmax := E.target.usize_max_le_u64_max
  unfold u64_max at hmax
  simp only [layout_of] at hfits
  omega

/-- A header is accepted exactly when it is the header of two admissible lengths. -/
theorem validate_header_ok_iff {self : WasixCheckpointCodec} {hdr : Bytes} (h : hdr.length = 22)
    {layout : CheckpointArtifactLayout} :
    self.validate_header E hdr = .ok layout ↔
      ∃ metadata_len journal_len, hdr = header metadata_len journal_len ∧
        HeaderOk E self metadata_len journal_len ∧
        layout = layout_of metadata_len journal_len := by
  obtain ⟨magic, version, mlen, jlen, rfl, hm, hv, hml, hjl⟩ := header_fields h
  have hs1 : (slice (magic ++ (version ++ (mlen ++ jlen))) 0 CHECKPOINT_MAGIC.length :
      Exec Error Bytes) = .ok magic := by
    rw [← List.nil_append (magic ++ _)]
    exact slice_append rfl (by rw [hm]; rfl)
  have hs2 : (slice (magic ++ (version ++ (mlen ++ jlen))) 8 10 : Exec Error Bytes)
      = .ok version := slice_append hm.symm (by rw [hm, hv])
  have hs3 : (slice (magic ++ (version ++ (mlen ++ jlen))) 10 14 : Exec Error Bytes)
      = .ok mlen := by
    rw [← List.append_assoc]
    exact slice_append (by rw [List.length_append, hm, hv])
      (by rw [List.length_append, hm, hv, hml])
  have hs4 : (slice (magic ++ (version ++ (mlen ++ jlen))) 14 22 : Exec Error Bytes)
      = .ok jlen := by
    have hsplit : magic ++ (version ++ (mlen ++ jlen))
        = (magic ++ version ++ mlen) ++ (jlen ++ []) := by simp
    rw [hsplit]
    exact slice_append (by simp [hm, hv, hml]) (by simp [hm, hv, hml, hjl])
  rw [validate_header, hs1, hs2, hs3, hs4]
  simp only [ok_bind]
  constructor
  · intro hok
    obtain ⟨_, hmagic, hok⟩ := bind_eq_ok.mp hok
    obtain ⟨_, hversion, hok⟩ := bind_eq_ok.mp hok
    obtain ⟨_, hmeta, hok⟩ := bind_eq_ok.mp hok
    obtain ⟨n, hn, hok⟩ := bind_eq_ok.mp hok
    obtain ⟨_, hjournal, hok⟩ := bind_eq_ok.mp hok
    obtain ⟨e1, he1, hok⟩ := bind_eq_ok.mp hok
    obtain ⟨e2, he2, hok⟩ := bind_eq_ok.mp hok
    obtain ⟨e3, he3, hok⟩ := bind_eq_ok.mp hok
    rw [reject_eq_ok, bne_eq_false_iff_eq] at hmagic hversion
    rw [reject_eq_ok, Bool.or_eq_false_iff, decide_eq_false_iff_not,
      metadata_len_check] at hmeta
    rw [ofOption_eq_ok, tryFrom_eq_some] at hn
    rw [validate_journal_length_eq_ok] at hjournal
    rw [ofOption_eq_ok, checkedAdd_eq_some, metadata_len_of_check hmeta.2] at he1
    rw [ofOption_eq_ok, checkedAdd_eq_some] at he2 he3
    rw [pure_eq, Exec.ok.injEq] at hok
    obtain ⟨-, rfl⟩ := hn
    obtain ⟨-, rfl⟩ := he1
    obtain ⟨-, rfl⟩ := he2
    obtain ⟨hfits, rfl⟩ := he3
    refine ⟨beVal mlen, beVal jlen, ?_, ⟨hmeta.1, hmeta.2, hjournal.1, hjournal.2, hfits⟩,
      hok.symm⟩
    -- Each field is the encoding of its value, at its own width.
    rw [header, hmagic, ← hversion, ← hv, val_be, ← hml, val_be, ← hjl, val_be]
  · rintro ⟨a, b, hhdr, hok, rfl⟩
    obtain ⟨hmagic, hhdr⟩ := List.append_inj hhdr (by rw [hm]; rfl)
    obtain ⟨hversion, hhdr⟩ := List.append_inj hhdr (by rw [hv, be_length])
    obtain ⟨hmlen, hjlen⟩ := List.append_inj hhdr (by rw [hml, be_length])
    have hfits := hok.fits
    simp only [layout_of] at hfits
    have ha : beVal mlen = a := by rw [hmlen, be_val 4 a hok.metadata_lt]
    have hb : beVal jlen = b := by rw [hjlen, be_val 8 b hok.journal_lt]
    have hversion' : beVal version = CHECKPOINT_FORMAT_VERSION := by
      rw [hversion, be_val 2 _ (by decide)]
    have hcheck := (metadata_len_check E.target a).mpr ⟨hok.metadata_pos, hok.metadata_le⟩
    have hbad : ((tryFrom E.target.usize_max a).getD E.target.usize_max == 0
        || decide ((tryFrom E.target.usize_max a).getD E.target.usize_max
          > MAX_CHECKPOINT_METADATA_BYTES)) = false := by
      rw [hcheck.1, decide_eq_false hcheck.2]
      rfl
    have hjournal : self.validate_journal_length b = .ok () :=
      validate_journal_length_eq_ok.mpr ⟨hok.journal_pos, hok.journal_le⟩
    rw [ha, hb, hversion', hmagic, bne_self_eq_false, bne_self_eq_false, hbad,
      tryFrom_of_le (show b ≤ E.target.usize_max by omega),
      metadata_len_of_check hok.metadata_le]
    simp only [reject_false, ok_bind, ofOption_some, hjournal]
    rw [checkedAdd_of_le (by omega), ofOption_some, ok_bind,
      checkedAdd_of_le (by omega), ofOption_some, ok_bind,
      checkedAdd_of_le (by omega), ofOption_some, ok_bind]
    rfl

/-! ## Exact acceptance

`verify_parts_ok_iff` collects the checks: the reader accepts a byte string exactly when it is the
sealed form of some metadata and journal, and it then returns the two ranges of that one
decomposition. The header fixes both lengths and the total length is compared with them, so no other
decomposition exists. -/

/-- The largest artifact of the codec is a `usize`. -/
def Representable (E : Env) (self : WasixCheckpointCodec) : Prop :=
  CHECKPOINT_HEADER_BYTES + MAX_CHECKPOINT_METADATA_BYTES + self.max_journal_bytes
    + CHECKPOINT_TAG_BYTES ≤ E.target.usize_max

/-- The largest artifact, if it is a `usize`. -/
theorem maximum_artifact_bytes_eq_ok {E : Env} {self : WasixCheckpointCodec} {n : ℕ} :
    self.maximum_artifact_bytes E = .ok n ↔
      Representable E self ∧
        n = CHECKPOINT_HEADER_BYTES + MAX_CHECKPOINT_METADATA_BYTES + self.max_journal_bytes
          + CHECKPOINT_TAG_BYTES := by
  rw [maximum_artifact_bytes, ofOption_eq_ok]
  simp only [Option.bind_eq_some_iff, checkedAdd_eq_some, Representable]
  constructor
  · rintro ⟨a, ⟨-, rfl⟩, b, ⟨-, rfl⟩, hfits, rfl⟩
    exact ⟨hfits, rfl⟩
  · rintro ⟨hfits, rfl⟩
    exact ⟨_, ⟨by omega, rfl⟩, _, ⟨by omega, rfl⟩, hfits, rfl⟩

theorem validate_limit_eq_ok {self : WasixCheckpointCodec} {u : Unit} :
    self.validate_limit = .ok u ↔ 1 ≤ self.max_journal_bytes := by
  rw [validate_limit, reject_eq_ok, beq_eq_false_iff_ne]
  omega

/-- Everything the tag covers. -/
def authenticated (m j : Bytes) : Bytes := header m.length j.length ++ (m ++ j)

/-- The tag of an artifact. -/
def tag (E : Env) (self : WasixCheckpointCodec) (m j : Bytes) : Bytes :=
  E.crypto.hmac_sha256 self.authentication_key.bytes (CHECKPOINT_DOMAIN ++ authenticated m j)

/-- The sealed form of a metadata text and a journal. -/
def sealedForm (E : Env) (self : WasixCheckpointCodec) (m j : Bytes) : Bytes :=
  header m.length j.length ++ (m ++ (j ++ tag E self m j))

theorem tag_eq_finalize (E : Env) (self : WasixCheckpointCodec) (m j : Bytes) :
    (self.authentication_tag (authenticated m j)).finalize E.crypto = tag E self m j := by
  simp only [authentication_tag, authentication_state, HmacSha256.update, HmacSha256.finalize,
    tag, List.nil_append]

/-- A tag has 32 bytes. -/
theorem tag_length (E : Env) (self : WasixCheckpointCodec) (m j : Bytes) :
    (tag E self m j).length = CHECKPOINT_TAG_BYTES := E.crypto.hmac_sha256_length _ _

/-- The parts add up to the layout. -/
theorem parts_length {m j t : Bytes} (ht : t.length = CHECKPOINT_TAG_BYTES) :
    (header m.length j.length ++ (m ++ (j ++ t))).length
      = (layout_of m.length j.length).artifact_len := by
  simp only [List.length_append, header_length, ht, layout_of, CHECKPOINT_HEADER_BYTES]
  omega

/-- The length that the layout gives. -/
theorem sealedForm_length (E : Env) (self : WasixCheckpointCodec) (m j : Bytes) :
    (sealedForm E self m j).length = (layout_of m.length j.length).artifact_len := by
  rw [sealedForm]
  exact parts_length (tag_length E self m j)

/-- `a` is the sealed form of the metadata text `m` and the journal `j`, and `m` is
the current record of the binding `b`, the build `build` and that journal. -/
structure Accepts (E : Env) (codec : WasixCheckpointCodec) (b : WasixCheckpointBinding)
    (a m j : Bytes) (build : String) : Prop where
  artifact : a = sealedForm E codec m j
  header : HeaderOk E codec m.length j.length
  canonical : isCanonicalSha256 build = true
  metadata : E.from_slice m = .ok (CheckpointMetadata.current E.target E.crypto b build j)
  journal : scan_journal E.target j = .ok ()

/-- The parts `verify_parts` returns for an accepted artifact. -/
def parts_of (E : Env) (b : WasixCheckpointBinding) (a m j : Bytes) (build : String) :
    VerifiedCheckpointParts :=
  ⟨b, (CHECKPOINT_HEADER_BYTES + m.length, CHECKPOINT_HEADER_BYTES + m.length + j.length),
    E.crypto.sha256_hex a, build⟩

/-- A string of the length its header declares falls into its four parts. -/
theorem artifact_fields {a : Bytes} {mlen jlen : ℕ}
    (h : a.length = (layout_of mlen jlen).artifact_len) :
    ∃ hdr m j t : Bytes, a = hdr ++ (m ++ (j ++ t)) ∧ hdr.length = CHECKPOINT_HEADER_BYTES ∧
      m.length = mlen ∧ j.length = jlen ∧ t.length = CHECKPOINT_TAG_BYTES := by
  simp only [layout_of] at h
  refine ⟨a.take CHECKPOINT_HEADER_BYTES, (a.drop CHECKPOINT_HEADER_BYTES).take mlen,
    ((a.drop CHECKPOINT_HEADER_BYTES).drop mlen).take jlen,
    ((a.drop CHECKPOINT_HEADER_BYTES).drop mlen).drop jlen, ?_, ?_, ?_, ?_, ?_⟩
  · rw [List.take_append_drop, List.take_append_drop, List.take_append_drop]
  all_goals simp only [List.length_take, List.length_drop, h]
  all_goals omega

/-! ### The slices of an artifact in four parts

Every range that a reader takes is one of the parts, or some that adjoin. -/

section Slices

variable (m j t : Bytes)

theorem slice_header :
    (slice (header m.length j.length ++ (m ++ (j ++ t))) 0
      CHECKPOINT_HEADER_BYTES : Exec Error Bytes) = .ok (header m.length j.length) :=
  slice_append (p := []) rfl (by rw [header_length m.length j.length])

/-- The four parts are the ranges of the layout. -/
theorem slice_tag :
    (slice (header m.length j.length ++ (m ++ (j ++ t)))
      (layout_of m.length j.length).authenticated_len
      (header m.length j.length ++ (m ++ (j ++ t))).length : Exec Error Bytes) = .ok t := by
  have hsplit : header m.length j.length ++ (m ++ (j ++ t))
      = (header m.length j.length ++ m ++ j) ++ (t ++ []) := by simp
  rw [hsplit]
  exact slice_append
    (by simp only [List.length_append, header_length, layout_of, CHECKPOINT_HEADER_BYTES])
    (by simp only [List.length_append, List.append_nil])

theorem slice_authenticated :
    (slice (header m.length j.length ++ (m ++ (j ++ t))) 0
      (layout_of m.length j.length).authenticated_len : Exec Error Bytes)
        = .ok (authenticated m j) := by
  have hsplit : header m.length j.length ++ (m ++ (j ++ t))
      = [] ++ (authenticated m j ++ t) := by simp [authenticated]
  rw [hsplit]
  exact slice_append rfl (by
    simp only [authenticated, List.length_append, List.length_nil, header_length, layout_of,
      CHECKPOINT_HEADER_BYTES]
    omega)

theorem slice_metadata :
    (slice (header m.length j.length ++ (m ++ (j ++ t))) CHECKPOINT_HEADER_BYTES
      (layout_of m.length j.length).metadata_end : Exec Error Bytes) = .ok m :=
  slice_append (header_length _ _).symm (by rw [header_length]; rfl)

theorem slice_journal :
    (slice (header m.length j.length ++ (m ++ (j ++ t)))
      (layout_of m.length j.length).metadata_end
      (layout_of m.length j.length).authenticated_len : Exec Error Bytes) = .ok j := by
  rw [← List.append_assoc]
  exact slice_append
    (by simp only [List.length_append, header_length, layout_of, CHECKPOINT_HEADER_BYTES])
    (by simp only [List.length_append, header_length, layout_of, CHECKPOINT_HEADER_BYTES])

end Slices

/-- Once the header has been read and the total length compared, what is left is the
tag, the metadata and the journal; every slice is in range. -/
theorem verify_parts_fields {E : Env} {self : WasixCheckpointCodec}
    {b : WasixCheckpointBinding} {m j t : Bytes} (hmax : Representable E self)
    (hb : b.validate = .ok ()) (hok : HeaderOk E self m.length j.length)
    (ht : t.length = CHECKPOINT_TAG_BYTES) :
    self.verify_parts E b (header m.length j.length ++ (m ++ (j ++ t))) = (do
      reject (t != tag E self m j) (.Checkpoint "checkpoint authentication failed")
      let metadata ← ofExcept
        (fun error => .Checkpoint ("checkpoint metadata is malformed: " ++ error))
        (E.from_slice m)
      metadata.validate E.target E.crypto b
      reject (metadata.journal_sha256 != E.crypto.sha256_hex j)
        (.Checkpoint "checkpoint journal digest is invalid")
      scan_journal E.target j
      pure ⟨metadata.binding, (CHECKPOINT_HEADER_BYTES + m.length,
        CHECKPOINT_HEADER_BYTES + m.length + j.length),
        E.crypto.sha256_hex (header m.length j.length ++ (m ++ (j ++ t))),
        metadata.worker_build_sha256⟩) := by
  have hlen : (header m.length j.length ++ (m ++ (j ++ t))).length
      = (layout_of m.length j.length).artifact_len := parts_length ht
  have hlimit : self.validate_limit = .ok () :=
    validate_limit_eq_ok.mpr (hok.journal_pos.trans hok.journal_le)
  have hsize := maximum_artifact_bytes_eq_ok.mpr ⟨hmax, rfl⟩
  have hover : decide ((header m.length j.length ++ (m ++ (j ++ t))).length
      > CHECKPOINT_HEADER_BYTES + MAX_CHECKPOINT_METADATA_BYTES + self.max_journal_bytes
        + CHECKPOINT_TAG_BYTES) = false := by
    rw [hlen, decide_eq_false_iff_not]
    exact not_lt.mpr hok.artifact_le
  have hunder : decide ((header m.length j.length ++ (m ++ (j ++ t))).length
      < CHECKPOINT_HEADER_BYTES + CHECKPOINT_TAG_BYTES) = false := by
    rw [hlen, decide_eq_false_iff_not]
    exact not_lt.mpr (le_artifact_len _ _)
  have hhdr : self.validate_header E (header m.length j.length)
      = .ok (layout_of m.length j.length) :=
    (validate_header_ok_iff (header_length _ _)).mpr ⟨_, _, rfl, hok, rfl⟩
  -- The keyed hash of the slice in front of the tag is the tag of `m` and `j`.
  have htag : (!(self.authentication_tag (authenticated m j)).verify_slice E.crypto t)
      = (t != tag E self m j) := by
    rw [HmacSha256.verify_slice, tag_eq_finalize]
    rfl
  rw [verify_parts, hlimit, ok_bind, hb, ok_bind, hsize, ok_bind, hover,
    reject_false, ok_bind, hunder, reject_false, ok_bind, slice_header,
    ok_bind, hhdr, ok_bind, ← hlen, bne_self_eq_false, reject_false,
    ok_bind, slice_tag, ok_bind, slice_authenticated, ok_bind, htag,
    slice_metadata, ok_bind]
  simp only [slice_journal, ok_bind]
  rfl

variable {self : WasixCheckpointCodec} {b : WasixCheckpointBinding}

/-- Whatever `verify_parts` accepts passed its checks on the arguments, and its header
and length agree with a layout. -/
theorem verify_parts_layout {a : Bytes} {p : VerifiedCheckpointParts}
    (h : self.verify_parts E b a = .ok p) :
    Representable E self ∧ b.validate = .ok () ∧ ∃ m j t : Bytes,
      a = header m.length j.length ++ (m ++ (j ++ t)) ∧ HeaderOk E self m.length j.length ∧
        t.length = CHECKPOINT_TAG_BYTES := by
  obtain ⟨_, -, h⟩ := bind_eq_ok.mp h
  obtain ⟨_, hb, h⟩ := bind_eq_ok.mp h
  obtain ⟨_, hmax, h⟩ := bind_eq_ok.mp h
  obtain ⟨_, -, h⟩ := bind_eq_ok.mp h
  obtain ⟨_, hlong, h⟩ := bind_eq_ok.mp h
  obtain ⟨hdr, hslice, h⟩ := bind_eq_ok.mp h
  obtain ⟨layout, hlayout, h⟩ := bind_eq_ok.mp h
  obtain ⟨_, hlen, -⟩ := bind_eq_ok.mp h
  rw [reject_eq_ok, decide_eq_false_iff_not] at hlong
  rw [reject_eq_ok, bne_eq_false_iff_eq] at hlen
  rw [slice_of_le (Nat.zero_le _) (by omega), Exec.ok.injEq, List.drop_zero,
    Nat.sub_zero] at hslice
  have hhdr : hdr.length = 22 := by
    rw [← hslice, List.length_take, Nat.min_eq_left (by omega)]
    rfl
  obtain ⟨mlen, jlen, hheader, hok, rfl⟩ := (validate_header_ok_iff hhdr).mp hlayout
  obtain ⟨hdr', m, j, t, rfl, hl, rfl, rfl, ht⟩ := artifact_fields hlen
  refine ⟨(maximum_artifact_bytes_eq_ok.mp hmax).1, hb, m, j, t, ?_, hok, ht⟩
  -- The header slice is the first of the four parts.
  rw [← hl, List.take_left, hheader] at hslice
  rw [hslice]

/-- The shared checks of all readers, as one condition on the artifact. -/
theorem verify_parts_ok_iff {a : Bytes} {p : VerifiedCheckpointParts} :
    self.verify_parts E b a = .ok p ↔
      Representable E self ∧ b.validate = .ok () ∧
        ∃ m j build, Accepts E self b a m j build ∧ p = parts_of E b a m j build := by
  constructor
  · intro h
    obtain ⟨hmax, hb, m, j, t, rfl, hok, ht⟩ := verify_parts_layout h
    refine ⟨hmax, hb, m, j, p.worker_build_sha256, ?_⟩
    rw [verify_parts_fields hmax hb hok ht] at h
    obtain ⟨_, htag, h⟩ := bind_eq_ok.mp h
    obtain ⟨md, hmd, h⟩ := bind_eq_ok.mp h
    obtain ⟨_, hvalid, h⟩ := bind_eq_ok.mp h
    obtain ⟨_, hdigest, h⟩ := bind_eq_ok.mp h
    obtain ⟨_, hscan, h⟩ := bind_eq_ok.mp h
    rw [reject_eq_ok, bne_eq_false_iff_eq] at htag hdigest
    rw [ofExcept_eq_ok] at hmd
    rw [pure_eq, Exec.ok.injEq] at h
    obtain ⟨hcanonical, hcurrent⟩ :=
      (CheckpointMetadata.validate_journal_iff hb).mp ⟨hvalid, hdigest⟩
    have hbinding : md.binding = b := by rw [hcurrent]; rfl
    rw [← h]
    refine ⟨⟨?_, hok, hcanonical, ?_, hscan⟩, ?_⟩
    · rw [htag, sealedForm]
    · rw [hmd, ← hcurrent]
    · rw [hbinding, parts_of]
  · rintro ⟨hmax, hb, m, j, build, hacc, rfl⟩
    have hpass : (CheckpointMetadata.current E.target E.crypto b build j).validate E.target
          E.crypto b = .ok () ∧
        (CheckpointMetadata.current E.target E.crypto b build j).journal_sha256
          = E.crypto.sha256_hex j :=
      (CheckpointMetadata.validate_journal_iff hb).mpr ⟨hacc.canonical, rfl⟩
    obtain ⟨hvalid, hdigest⟩ := hpass
    rw [hacc.artifact, sealedForm, verify_parts_fields hmax hb hacc.header (tag_length E self m j),
      bne_self_eq_false, reject_false, ok_bind, hacc.metadata, ofExcept_ok,
      ok_bind, hvalid, ok_bind, hdigest, bne_self_eq_false, reject_false,
      ok_bind, hacc.journal, ok_bind]
    rfl

/-- The journal of an accepted artifact is the range the parts name. -/
theorem slice_sealedForm (E : Env) (self : WasixCheckpointCodec) (m j : Bytes) :
    (slice (sealedForm E self m j) (CHECKPOINT_HEADER_BYTES + m.length)
      (CHECKPOINT_HEADER_BYTES + m.length + j.length) : Exec Error Bytes) = .ok j := by
  rw [sealedForm]
  exact slice_journal m j _

/-- An artifact has one decomposition. -/
theorem sealedForm_inj {m m' j j' : Bytes} (hok : HeaderOk E self m.length j.length)
    (hok' : HeaderOk E self m'.length j'.length)
    (h : sealedForm E self m j = sealedForm E self m' j') : m = m' ∧ j = j' := by
  obtain ⟨hhdr, hrest⟩ := List.append_inj h (by rw [header_length, header_length])
  obtain ⟨-, hhdr⟩ := List.append_inj hhdr rfl
  obtain ⟨-, hhdr⟩ := List.append_inj hhdr rfl
  obtain ⟨hmlen, -⟩ := List.append_inj hhdr (by rw [be_length, be_length])
  obtain ⟨rfl, hrest⟩ := List.append_inj hrest (be_inj hok.metadata_lt hok'.metadata_lt hmlen)
  exact ⟨rfl, (List.append_inj' hrest (by rw [tag_length, tag_length])).1⟩

/-- An accepted artifact names its metadata, its journal and its build. -/
theorem Accepts.unique {a m m' j j' : Bytes} {build build' : String}
    (h : Accepts E self b a m j build) (h' : Accepts E self b a m' j' build') :
    m = m' ∧ j = j' ∧ build = build' := by
  obtain ⟨rfl, rfl⟩ := sealedForm_inj h.header h'.header (h.artifact.symm.trans h'.artifact)
  have hsame := Except.ok.inj (h.metadata.symm.trans h'.metadata)
  exact ⟨rfl, rfl, congrArg CheckpointMetadata.worker_build_sha256 hsame⟩

theorem Accepts.journal_length_le {a m j : Bytes} {build : String}
    (h : Accepts E self b a m j build) : j.length ≤ a.length := by
  rw [h.artifact, sealedForm]
  simp only [List.length_append]
  omega

/-- `verify`, exactly. -/
theorem verify_ok_iff {a : Bytes} {v : VerifiedWasixCheckpointView} :
    self.verify E b a = .ok v ↔
      Representable E self ∧ b.validate = .ok () ∧ ∃ m j build,
        Accepts E self b a m j build ∧ v = ⟨b, j, E.crypto.sha256_hex a, build⟩ := by
  rw [verify, bind_eq_ok]
  simp only [verify_parts_ok_iff]
  constructor
  · rintro ⟨p, ⟨hmax, hb, m, j, build, hacc, rfl⟩, h⟩
    refine ⟨hmax, hb, m, j, build, hacc, ?_⟩
    rw [parts_of, hacc.artifact, slice_sealedForm, ok_bind, pure_eq,
      Exec.ok.injEq] at h
    rw [hacc.artifact]
    exact h.symm
  · rintro ⟨hmax, hb, m, j, build, hacc, rfl⟩
    refine ⟨_, ⟨hmax, hb, m, j, build, hacc, rfl⟩, ?_⟩
    rw [parts_of, hacc.artifact, slice_sealedForm, ok_bind, pure_eq]

/-- `open`, exactly; it differs from `verify` in the copy it allocates. -/
theorem open_ok_iff {a : Bytes} {v : VerifiedWasixCheckpoint} :
    self.open_ E b a = .ok v ↔
      Representable E self ∧ b.validate = .ok () ∧ ∃ m j build,
        Accepts E self b a m j build ∧ E.try_reserve_exact j.length = .ok () ∧
          v = ⟨b, j, (0, j.length), E.crypto.sha256_hex a, build⟩ := by
  rw [open_, bind_eq_ok]
  simp only [verify_parts_ok_iff]
  constructor
  · rintro ⟨p, ⟨hmax, hb, m, j, build, hacc, rfl⟩, h⟩
    rw [parts_of, hacc.artifact, slice_sealedForm, ok_bind] at h
    obtain ⟨u, halloc, h⟩ := bind_eq_ok.mp h
    rw [ofExcept_eq_ok] at halloc
    rw [pure_eq, Exec.ok.injEq] at h
    refine ⟨hmax, hb, m, j, build, hacc, halloc, ?_⟩
    rw [hacc.artifact]
    exact h.symm
  · rintro ⟨hmax, hb, m, j, build, hacc, halloc, rfl⟩
    refine ⟨_, ⟨hmax, hb, m, j, build, hacc, rfl⟩, ?_⟩
    rw [parts_of, hacc.artifact, slice_sealedForm, ok_bind, halloc, ofExcept_ok,
      ok_bind, pure_eq]

/-- What `open` accepts and returns, over all byte strings; and a byte string that
opens under one binding opens under no other. -/
theorem open_accepts_exactly (E : Env) (codec : WasixCheckpointCodec)
    (hmax : CHECKPOINT_HEADER_BYTES + MAX_CHECKPOINT_METADATA_BYTES + codec.max_journal_bytes
      + CHECKPOINT_TAG_BYTES ≤ E.target.usize_max)
    (b : WasixCheckpointBinding) (hb : b.validate = .ok ()) (a : Bytes)
    (halloc : E.Grants a.length) :
    (∀ v, codec.open_ E b a = .ok v ↔ ∃ (m j t : Bytes) (md : CheckpointMetadata),
      a = CHECKPOINT_MAGIC ++ be 2 2 ++ be 4 m.length ++ be 8 j.length ++ m ++ j ++ t ∧
      1 ≤ m.length ∧ m.length ≤ 16384 ∧
      1 ≤ j.length ∧ j.length ≤ codec.max_journal_bytes ∧
      t = E.crypto.hmac_sha256 codec.authentication_key.bytes (CHECKPOINT_DOMAIN ++
        (CHECKPOINT_MAGIC ++ be 2 2 ++ be 4 m.length ++ be 8 j.length ++ m ++ j)) ∧
      E.from_slice m = .ok md ∧
      md.binding = b ∧
      isCanonicalSha256 md.worker_build_sha256 = true ∧
      md.runtime_version = CARGO_PKG_VERSION ∧
      md.worker_protocol_version = WASIX_WORKER_PROTOCOL_VERSION ∧
      md.cohort_id = WASIX_COHORT_ID ∧
      md.engine_profile = CHECKPOINT_ENGINE_PROFILE ∧
      md.platform = checkpoint_platform E.target ∧
      md.journal_format = CHECKPOINT_JOURNAL_FORMAT ∧
      md.execution_abi = CHECKPOINT_EXECUTION_ABI ∧
      md.isolation_policy = CHECKPOINT_ISOLATION_POLICY ∧
      md.snapshot_trigger = CHECKPOINT_SNAPSHOT_TRIGGER ∧
      md.journal_sha256 = hexEncode (E.crypto.sha256 j) ∧
      scan_journal E.target j = .ok () ∧
      v = ⟨b, j, (0, j.length), hexEncode (E.crypto.sha256 a), md.worker_build_sha256⟩) ∧
    (∀ b' v v', codec.open_ E b a = .ok v → codec.open_ E b' a = .ok v' → b' = b) := by
  have hform : ∀ m j t : Bytes, CHECKPOINT_MAGIC ++ be 2 2 ++ be 4 m.length ++ be 8 j.length
      ++ m ++ j ++ t = header m.length j.length ++ (m ++ (j ++ t)) := by
    intro m j t
    simp only [header, CHECKPOINT_FORMAT_VERSION, List.append_assoc]
  have hauth : ∀ m j : Bytes, CHECKPOINT_MAGIC ++ be 2 2 ++ be 4 m.length ++ be 8 j.length
      ++ m ++ j = authenticated m j := by
    intro m j
    simp only [authenticated, header, CHECKPOINT_FORMAT_VERSION, List.append_assoc]
  refine ⟨fun v => ?_, fun b' v v' h h' => ?_⟩
  · rw [open_ok_iff]
    constructor
    · rintro ⟨-, -, m, j, build, hacc, -, rfl⟩
      have hok := hacc.header
      refine ⟨m, j, tag E codec m j, _, ?_, hok.metadata_pos, hok.metadata_le, hok.journal_pos,
        hok.journal_le, ?_, hacc.metadata, rfl, hacc.canonical, rfl, rfl, rfl, rfl, rfl, rfl,
        rfl, rfl, rfl, rfl, hacc.journal, rfl⟩
      · rw [hform]
        exact hacc.artifact
      · rw [hauth, tag]
    · rintro ⟨m, j, t, md, ha, hm, hm', hj, hj', ht, hmd, h1, hbuild, h2, h3, h4, h5, h6, h7,
        h8, h9, h10, h11, hscan, rfl⟩
      rw [hform] at ha
      rw [hauth] at ht
      -- The ten compared fields and the two digests make up the current record.
      have hcurrent : md = CheckpointMetadata.current E.target E.crypto b
          md.worker_build_sha256 j := CheckpointMetadata.ext h1 h2 h3 h4 rfl h5 h6 h7 h8 h9 h10 h11
      have hok : HeaderOk E codec m.length j.length := by
        refine ⟨hm, hm', hj, hj', ?_⟩
        simp only [layout_of, MAX_CHECKPOINT_METADATA_BYTES] at hmax ⊢
        omega
      refine ⟨hmax, hb, m, j, md.worker_build_sha256, ⟨?_, hok, hbuild, ?_, hscan⟩, ?_, rfl⟩
      · rw [ha, ht, sealedForm, tag]
      · rw [hmd, ← hcurrent]
      · refine halloc _ ?_
        rw [ha]
        simp only [List.length_append]
        omega
  · obtain ⟨-, -, m, j, build, hacc, -⟩ := open_ok_iff.mp h
    obtain ⟨-, -, m', j', build', hacc', -⟩ := open_ok_iff.mp h'
    obtain ⟨rfl, rfl⟩ := sealedForm_inj hacc.header hacc'.header
      (hacc.artifact.symm.trans hacc'.artifact)
    -- The same metadata text decodes to one record, and the record names its binding.
    have hsame := Except.ok.inj (hacc.metadata.symm.trans hacc'.metadata)
    exact (congrArg CheckpointMetadata.binding hsame).symm

end WasixCheckpointCodec

/-! A journal of three records, sealed under the key `00 01 .. 1f` on a 64-bit
little-endian Linux build. The digests and the tag are the ones SHA-256 and
HMAC-SHA256 have on these very inputs. -/

/-- The build of the example. -/
def sampleTarget : Target where
  usize_bits := 64
  little_endian := true
  build_target := "x86_64-unknown-linux-gnu"
  usize_bits_mem := usize_bits_64
  build_target_short := linux_gnu_short

/-- A module record, a thread record and a snapshot, of one byte each. -/
def sampleJournal : Bytes :=
  JOURNAL_MAGIC ++
    [0, 1, 0, 0, 0, 0, 0, 1, 7, 0, 3, 0, 0, 0, 0, 0, 1, 1, 0, 59, 0, 0, 0, 0, 0, 1, 2]

/-- SHA-256 of `sampleJournal`. -/
def sampleJournalSha : Bytes :=
  be 32 0x6dc4782e7c80a90c34c5833fa36f60ccd3e760ca2263128adba3086eacb69c01

/-- The binding of the example. -/
def sampleBinding : WasixCheckpointBinding where
  environment_id := "sha256:aaaaaaaaaaaaaaaaaaaaaaaaaaaaaaaaaaaaaaaaaaaaaaaaaaaaaaaaaaaaaaaa"
  module_sha256 := "bbbbbbbbbbbbbbbbbbbbbbbbbbbbbbbbbbbbbbbbbbbbbbbbbbbbbbbbbbbbbbbb"
  command := "run"
  instance_id := "i-1"
  generation := 1

/-- The worker build of the example. -/
def sampleBuild : String := "cccccccccccccccccccccccccccccccccccccccccccccccccccccccccccccccc"

/-- The metadata record of the example. -/
def sampleMetadata : CheckpointMetadata where
  binding := sampleBinding
  runtime_version := CARGO_PKG_VERSION
  worker_protocol_version := WASIX_WORKER_PROTOCOL_VERSION
  cohort_id := WASIX_COHORT_ID
  worker_build_sha256 := sampleBuild
  engine_profile := CHECKPOINT_ENGINE_PROFILE
  platform := checkpoint_platform sampleTarget
  journal_format := CHECKPOINT_JOURNAL_FORMAT
  execution_abi := CHECKPOINT_EXECUTION_ABI
  isolation_policy := CHECKPOINT_ISOLATION_POLICY
  snapshot_trigger := CHECKPOINT_SNAPSHOT_TRIGGER
  journal_sha256 := hexEncode sampleJournalSha

/-- The metadata text, 771 bytes of it. -/
def sampleText : Bytes := Json.render sampleMetadata.to_json

/-- The key of the example. -/
def sampleKey : CheckpointAuthenticationKey :=
  ⟨be 32 0x000102030405060708090a0b0c0d0e0f101112131415161718191a1b1c1d1e1f, be_length 32 _⟩

/-- HMAC-SHA256 over the domain and everything before the tag. -/
def sampleTag : Bytes :=
  be 32 0x036412f6c73de9826c52695f3e0f38185265db47566765d42546b512568baa24

/-- The artifact of the example, 860 bytes. -/
def sampleArtifact : Bytes :=
  WasixCheckpointCodec.authenticated sampleText sampleJournal ++ sampleTag

/-- The two primitives at the inputs the example feeds them; SHA-256 of the empty
string stands for everything else. -/
def sampleCrypto : Crypto where
  sha256 bytes :=
    if bytes = sampleJournal then sampleJournalSha
    else if bytes = sampleArtifact then
      be 32 0xca4b97e05733d7568867dde88a075026106d6f9fc7e36449ed6fc872bcd6420a
    else be 32 0xe3b0c44298fc1c149afbf4c8996fb92427ae41e4649b934ca495991b7852b855
  hmac_sha256 key bytes :=
    if key = sampleKey.bytes ∧ bytes = CHECKPOINT_DOMAIN ++
        WasixCheckpointCodec.authenticated sampleText sampleJournal then sampleTag
    else be 32 0
  sha256_length bytes := by
    split_ifs <;> exact be_length 32 _
  hmac_sha256_length key bytes := by
    split_ifs <;> exact be_length 32 _

/-- An environment with memory to spare whose decoder reads the example's text. -/
def sampleEnv : Env where
  target := sampleTarget
  crypto := sampleCrypto
  from_slice bytes := if bytes = sampleText then .ok sampleMetadata else .error "expected value"
  try_reserve_exact _ := .ok ()

/-- The codec of the example, with the default limit. -/
def sampleCodec : WasixCheckpointCodec := WasixCheckpointCodec.new sampleKey

theorem sampleCodec_representable : WasixCheckpointCodec.Representable sampleEnv sampleCodec := by
  unfold WasixCheckpointCodec.Representable
  decide

theorem sampleBinding_valid : sampleBinding.validate = .ok () := by decide

theorem sampleJournal_scans : scan_journal sampleTarget sampleJournal = .ok () := by decide

theorem sampleText_length : sampleText.length = 771 := by decide +kernel

theorem sampleCrypto_journal : sampleCrypto.sha256 sampleJournal = sampleJournalSha := by
  simp only [sampleCrypto, if_true]

theorem sampleCrypto_tag : sampleCrypto.hmac_sha256 sampleKey.bytes
    (CHECKPOINT_DOMAIN ++ WasixCheckpointCodec.authenticated sampleText sampleJournal)
      = sampleTag := by
  simp only [sampleCrypto, and_self, if_true]

theorem sampleEnv_decodes : sampleEnv.from_slice sampleText = .ok sampleMetadata := by
  simp only [sampleEnv, if_true]

/-- The record that sealing writes for the example is `sampleMetadata`. -/
theorem sampleMetadata_current :
    CheckpointMetadata.current sampleTarget sampleCrypto sampleBinding sampleBuild sampleJournal
      = sampleMetadata := by
  rw [CheckpointMetadata.current, Crypto.sha256_hex, sampleCrypto_journal]
  rfl

/-- The example artifact is an accepted one. -/
theorem sampleArtifact_accepts : WasixCheckpointCodec.Accepts sampleEnv sampleCodec sampleBinding
    sampleArtifact sampleText sampleJournal sampleBuild := by
  refine ⟨?_, ⟨?_, ?_, by decide, by decide, ?_⟩, by decide, ?_, sampleJournal_scans⟩
  · rw [WasixCheckpointCodec.sealedForm, WasixCheckpointCodec.tag]
    rw [show sampleEnv.crypto.hmac_sha256 sampleCodec.authentication_key.bytes
      (CHECKPOINT_DOMAIN ++ WasixCheckpointCodec.authenticated sampleText sampleJournal)
        = sampleTag from sampleCrypto_tag]
    simp only [sampleArtifact, WasixCheckpointCodec.authenticated, List.append_assoc]
  · rw [sampleText_length]
    decide
  · rw [sampleText_length]
    decide
  · rw [sampleText_length]
    decide
  · rw [sampleEnv_decodes]
    exact congrArg Except.ok sampleMetadata_current.symm

theorem open_accepts_exactly_sample :
    ∃ v, sampleCodec.open_ sampleEnv sampleBinding sampleArtifact = .ok v ∧
      v.bytes = sampleJournal := by
  have hform : sampleArtifact = CHECKPOINT_MAGIC ++ be 2 2 ++ be 4 sampleText.length
      ++ be 8 sampleJournal.length ++ sampleText ++ sampleJournal ++ sampleTag := by
    simp only [sampleArtifact, WasixCheckpointCodec.authenticated, WasixCheckpointCodec.header,
      CHECKPOINT_FORMAT_VERSION, List.append_assoc]
  have htag : sampleTag = sampleEnv.crypto.hmac_sha256 sampleCodec.authentication_key.bytes
      (CHECKPOINT_DOMAIN ++ (CHECKPOINT_MAGIC ++ be 2 2 ++ be 4 sampleText.length
        ++ be 8 sampleJournal.length ++ sampleText ++ sampleJournal)) := by
    have hauth : CHECKPOINT_MAGIC ++ be 2 2 ++ be 4 sampleText.length
        ++ be 8 sampleJournal.length ++ sampleText ++ sampleJournal
        = WasixCheckpointCodec.authenticated sampleText sampleJournal := by
      simp only [WasixCheckpointCodec.authenticated, WasixCheckpointCodec.header,
        CHECKPOINT_FORMAT_VERSION, List.append_assoc]
    rw [hauth]
    exact sampleCrypto_tag.symm
  have hdigest : sampleMetadata.journal_sha256
      = hexEncode (sampleEnv.crypto.sha256 sampleJournal) :=
    congrArg hexEncode sampleCrypto_journal.symm
  refine ⟨_, ((WasixCheckpointCodec.open_accepts_exactly sampleEnv sampleCodec
    sampleCodec_representable sampleBinding sampleBinding_valid sampleArtifact
    (fun _ _ => rfl)).1 _).mpr ⟨sampleText, sampleJournal, sampleTag, sampleMetadata, hform, ?_,
      ?_, by decide, by decide,
      htag, sampleEnv_decodes, rfl, by decide, rfl, rfl, rfl, rfl, rfl, rfl, rfl, rfl, rfl,
      hdigest, sampleJournal_scans, rfl⟩, rfl⟩
  · rw [sampleText_length]
    decide
  · rw [sampleText_length]
    decide

end WasmRuntime.Checkpoint
