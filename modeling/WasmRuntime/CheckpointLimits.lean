/-
The sizes that the checkpoint codec accepts: those it seals, and those it opens.

`prepare_seal` adds up the lengths it has. The readers add up the largest lengths there could be,
before they look at anything else, and then the lengths of the header. Three sums, of which two are
of the same numbers.
-/
import WasmRuntime.StreamingSeal

set_option autoImplicit false

namespace WasmRuntime.Checkpoint

open ByteCodec Journal ByteStream ByteSink Exec

namespace WasixCheckpointCodec

/-! ## The size checks

To speak of the readers' size checks alone they are named: `verify_sizes` is what `verify_parts`
does up to the comparison of the lengths, and `read_artifact` what `open_reader` does before it
hands its buffer to `verify_parts`. -/

variable (E : Env) (self : WasixCheckpointCodec)

/-- The size checks of `verify_parts`. -/
def verify_sizes (artifact : Bytes) : Exec Error CheckpointArtifactLayout := do
  let maximum_artifact_bytes ← self.maximum_artifact_bytes E
  reject (artifact.length > maximum_artifact_bytes)
    (.Checkpoint "checkpoint artifact exceeds the configured limit")
  reject (artifact.length < CHECKPOINT_HEADER_BYTES + CHECKPOINT_TAG_BYTES)
    (.Checkpoint "checkpoint artifact is truncated")
  let header ← slice artifact 0 CHECKPOINT_HEADER_BYTES
  let layout ← self.validate_header E header
  reject (artifact.length != layout.artifact_len)
    (.Checkpoint "checkpoint artifact length does not match its header")
  pure layout

/-- What `verify_parts` checks of an artifact whose sizes are right. -/
def verify_contents (expected_binding : WasixCheckpointBinding) (artifact : Bytes)
    (layout : CheckpointArtifactLayout) : Exec Error VerifiedCheckpointParts := do
  let supplied_tag ← slice artifact layout.authenticated_len artifact.length
  let authenticated ← slice artifact 0 layout.authenticated_len
  reject (!(self.authentication_tag authenticated).verify_slice E.crypto supplied_tag)
    (.Checkpoint "checkpoint authentication failed")
  let metadata_bytes ← slice artifact CHECKPOINT_HEADER_BYTES layout.metadata_end
  let metadata ← ofExcept
    (fun error => .Checkpoint ("checkpoint metadata is malformed: " ++ error))
    (E.from_slice metadata_bytes)
  metadata.validate E.target E.crypto expected_binding
  let journal ← slice artifact layout.metadata_end layout.authenticated_len
  reject (metadata.journal_sha256 != E.crypto.sha256_hex journal)
    (.Checkpoint "checkpoint journal digest is invalid")
  scan_journal E.target journal
  pure ⟨metadata.binding, (layout.metadata_end, layout.authenticated_len),
    E.crypto.sha256_hex artifact, metadata.worker_build_sha256⟩

/-- `verify_parts` is the checks of its arguments, those of the sizes and those of the contents. -/
theorem verify_parts_eq (b : WasixCheckpointBinding) (a : Bytes) :
    self.verify_parts E b a = (do
      self.validate_limit
      b.validate
      let layout ← self.verify_sizes E a
      self.verify_contents E b a layout) := by
  simp only [verify_parts, verify_sizes, verify_contents, bind_assoc, pure_eq,
    ok_bind]

/-! ## What they accept

The sum of the largest lengths is the larger one, and for a limit within 16438 bytes of `usize::MAX`
it overflows although the artifact at hand is small: such a codec seals what it refuses to open. -/

/-- The additions that the readers make on the two lengths of a header, and that `prepare_seal`
makes on the lengths it has. -/
theorem additions_fit {E : Env} {self : WasixCheckpointCodec} {m j : Bytes}
    (hok : HeaderOk E self m.length j.length) :
    self.validate_header E (header m.length j.length)
      = .ok (layout_of m.length j.length) :=
  (validate_header_ok_iff (header_length _ _)).mpr ⟨_, _, rfl, hok, rfl⟩

/-- The largest artifact is the one sum that can overflow. -/
theorem maximum_artifact_bytes_overflows {E : Env} {self : WasixCheckpointCodec} :
    self.maximum_artifact_bytes E = .err (.Checkpoint "checkpoint length overflows usize") ↔
      ¬ Representable E self := by
  constructor
  · intro herr hmax
    rw [maximum_artifact_bytes_eq_ok.mpr ⟨hmax, rfl⟩] at herr
    cases herr
  · intro hmax
    rw [maximum_artifact_bytes]
    cases hsum : ((checkedAdd E.target.usize_max CHECKPOINT_HEADER_BYTES
      MAX_CHECKPOINT_METADATA_BYTES).bind fun length =>
        (checkedAdd E.target.usize_max length self.max_journal_bytes).bind fun length =>
          checkedAdd E.target.usize_max length CHECKPOINT_TAG_BYTES) with
    | none => rfl
    | some total =>
      have hok : self.maximum_artifact_bytes E = .ok total := by
        rw [maximum_artifact_bytes, hsum]
        rfl
      exact absurd (maximum_artifact_bytes_eq_ok.mp hok).1 hmax

variable {E : Env} {self : WasixCheckpointCodec} {b : WasixCheckpointBinding}
  {journal : CapturedWasixJournal}

/-- The readers in memory, on what was sealed. -/
theorem verify_sizes_sealed {m j : Bytes} (hok : HeaderOk E self m.length j.length) :
    self.verify_sizes E (sealedForm E self m j) = .ok (layout_of m.length j.length) ↔
      Representable E self := by
  constructor
  · intro h
    obtain ⟨_, hmax, -⟩ := bind_eq_ok.mp h
    exact (maximum_artifact_bytes_eq_ok.mp hmax).1
  · intro hmax
    have hlen := sealedForm_length E self m j
    have hover : decide ((sealedForm E self m j).length > CHECKPOINT_HEADER_BYTES
        + MAX_CHECKPOINT_METADATA_BYTES + self.max_journal_bytes + CHECKPOINT_TAG_BYTES)
        = false := by
      rw [hlen, decide_eq_false_iff_not]
      exact not_lt.mpr hok.artifact_le
    have hunder : decide ((sealedForm E self m j).length
        < CHECKPOINT_HEADER_BYTES + CHECKPOINT_TAG_BYTES) = false := by
      rw [hlen, decide_eq_false_iff_not]
      exact not_lt.mpr (le_artifact_len _ _)
    have hslice : (slice (sealedForm E self m j) 0 CHECKPOINT_HEADER_BYTES :
        Exec Error Bytes) = .ok (header m.length j.length) := slice_header m j _
    rw [verify_sizes, maximum_artifact_bytes_eq_ok.mpr ⟨hmax, rfl⟩, ok_bind, hover,
      reject_false, ok_bind, hunder, reject_false, ok_bind, hslice,
      ok_bind, additions_fit hok, ok_bind, ← hlen, bne_self_eq_false,
      reject_false, ok_bind]
    rfl

/-- The reader of a stream, on the same. -/
theorem read_artifact_sealed {m j : Bytes} {schedule : List ReadEvent}
    (hok : HeaderOk E self m.length j.length)
    (hclean : Reader.Clean ⟨.finite (sealedForm E self m j), 0, schedule⟩)
    (halloc : E.try_reserve_exact (sealedForm E self m j).length = .ok ()) :
    (self.read_artifact E ⟨.finite (sealedForm E self m j), 0, schedule⟩).1
        = .ok (sealedForm E self m j) ↔ Representable E self := by
  constructor
  · intro h
    obtain ⟨_, hmax, -⟩ := ReadM.lift_bind_eq_ok.mp h
    exact (maximum_artifact_bytes_eq_ok.mp hmax).1
  · intro hmax
    exact read_artifact_complete _ rfl hclean hmax hok (tag_length E self m j) halloc

/-- A codec opens the sizes that it seals exactly when its largest artifact is a `usize`. What
`prepare_seal` accepts is laid out without overflow, and its header passes; the size checks of
`open` and those of `open_reader` then accept it under that condition and no other, and it is the
sum of the largest lengths that overflows without it. -/
theorem sizes_agree_iff (E : Env) (codec : WasixCheckpointCodec) (b : WasixCheckpointBinding)
    (journal : CapturedWasixJournal) (prepared : PreparedCheckpoint)
    (hseal : codec.prepare_seal E b journal = .ok prepared) :
    (prepared.artifact_len = (artifact E codec b journal).length ∧
      (artifact E codec b journal).length ≤ E.target.usize_max ∧
      ∃ layout, codec.validate_header E prepared.header = .ok layout ∧
        layout.artifact_len = (artifact E codec b journal).length) ∧
    ((∃ layout, codec.verify_sizes E (artifact E codec b journal) = .ok layout) ↔
      Representable E codec) ∧
    (∀ schedule, Reader.Clean ⟨.finite (artifact E codec b journal), 0, schedule⟩ →
      E.try_reserve_exact (artifact E codec b journal).length = .ok () →
      ((codec.read_artifact E ⟨.finite (artifact E codec b journal), 0, schedule⟩).1
          = .ok (artifact E codec b journal) ↔ Representable E codec)) ∧
    (codec.maximum_artifact_bytes E
        ≠ .err (.Checkpoint "checkpoint length overflows usize") ↔ Representable E codec) := by
  obtain ⟨m, j, rfl, hartifact, hok⟩ := prepare_seal_eq hseal
  have hlength := sealedForm_length E codec m j
  rw [hartifact]
  refine ⟨⟨rfl, hlength.trans_le hok.fits, _, additions_fit hok, hlength.symm⟩, ⟨?_, ?_⟩, ?_, ?_⟩
  · rintro ⟨layout, h⟩
    obtain ⟨_, hmax, -⟩ := bind_eq_ok.mp h
    exact (maximum_artifact_bytes_eq_ok.mp hmax).1
  · intro hmax
    exact ⟨_, (verify_sizes_sealed hok).mpr hmax⟩
  · intro schedule hclean halloc
    exact read_artifact_sealed hok hclean halloc
  · rw [ne_eq, maximum_artifact_bytes_overflows, not_not]

end WasixCheckpointCodec

/-! ## The sample capture under the largest limit

The sample journal has 35 bytes, so nothing but the limit can be at fault. -/

/-- The capture of the sample journal. -/
def sampleCapture : CapturedWasixJournal := ⟨sampleJournal, sampleBinding, sampleBuild, true⟩

theorem sample_metadata_text :
    WasixCheckpointCodec.metadata_text sampleEnv sampleBinding sampleBuild sampleJournal
      = sampleText := by
  unfold WasixCheckpointCodec.metadata_text
  rw [show CheckpointMetadata.current sampleEnv.target sampleEnv.crypto sampleBinding sampleBuild
    sampleJournal = sampleMetadata from sampleMetadata_current]
  rfl

/-- Under any limit of a kilobyte or more the sample can be sealed. -/
theorem sample_prepared (limit : ℕ) (hlimit : 1024 ≤ limit) :
    ∃ prepared, (sampleCodec.with_max_journal_bytes limit).prepare_seal sampleEnv sampleBinding
      sampleCapture = .ok prepared := by
  have hjournal : sampleJournal.length ≤ 1024 := by decide
  refine ⟨_, WasixCheckpointCodec.prepare_seal_ok sampleBinding_valid sampleJournal_scans ?_
    fun _ _ => rfl⟩
  rw [sample_metadata_text, sampleText_length]
  exact ⟨by decide, by decide, by decide, hjournal.trans hlimit, by decide⟩

/-- Under the default limit the sample is sealed and its sizes are accepted. -/
theorem sizes_agree_sample :
    ∃ layout, sampleCodec.verify_sizes sampleEnv (WasixCheckpointCodec.artifact sampleEnv
      sampleCodec sampleBinding sampleCapture) = .ok layout := by
  obtain ⟨prepared, hseal⟩ := sample_prepared sampleCodec.max_journal_bytes (by decide)
  exact (WasixCheckpointCodec.sizes_agree_iff sampleEnv sampleCodec sampleBinding sampleCapture
    prepared hseal).2.1.mpr sampleCodec_representable

/-- The sample codec with the largest limit there is. -/
def sampleLargest : WasixCheckpointCodec :=
  sampleCodec.with_max_journal_bytes sampleTarget.usize_max

/-- Under a limit of `usize::MAX` the sample is sealed, and neither reader opens it: both report
an overflow, of a sum that has nothing to do with it. -/
theorem largest_limit_seals_but_does_not_open :
    ∃ bytes, sampleLargest.seal_capture sampleEnv sampleCapture = .ok bytes ∧
      bytes.length = 860 ∧
      sampleLargest.open_ sampleEnv sampleBinding bytes
        = .err (.Checkpoint "checkpoint length overflows usize") ∧
      (sampleLargest.open_reader sampleEnv sampleBinding ⟨.finite bytes, 0, []⟩).1
        = .err (.Checkpoint "checkpoint length overflows usize") := by
  obtain ⟨prepared, hseal⟩ := sample_prepared sampleTarget.usize_max (by decide)
  -- Sealing adds up the lengths of this checkpoint, opening those of the largest one.
  have hover : sampleLargest.maximum_artifact_bytes sampleEnv
      = .err (.Checkpoint "checkpoint length overflows usize") := by
    rw [WasixCheckpointCodec.maximum_artifact_bytes_overflows]
    unfold WasixCheckpointCodec.Representable
    decide
  have hlimit : sampleLargest.validate_limit = .ok () := by decide
  refine ⟨WasixCheckpointCodec.artifact sampleEnv sampleLargest sampleBinding sampleCapture,
    WasixCheckpointCodec.seal_bound_capture_of_prepared hseal rfl, ?_, ?_, ?_⟩
  · rw [WasixCheckpointCodec.artifact, WasixCheckpointCodec.sealedForm_length]
    show (WasixCheckpointCodec.layout_of (WasixCheckpointCodec.metadata_text sampleEnv
      sampleBinding sampleBuild sampleJournal).length sampleJournal.length).artifact_len = 860
    rw [sample_metadata_text, sampleText_length]
    decide
  · rw [WasixCheckpointCodec.open_, WasixCheckpointCodec.verify_parts_eq, hlimit, ok_bind,
      sampleBinding_valid, ok_bind, WasixCheckpointCodec.verify_sizes, hover]
    rfl
  · rw [WasixCheckpointCodec.open_reader_eq, ByteStream.ReadM.lift_bind_of_ok hlimit,
      ByteStream.ReadM.lift_bind_of_ok sampleBinding_valid, WasixCheckpointCodec.read_artifact,
      hover]
    rfl

end WasmRuntime.Checkpoint
