/-
`checkpoint.rs`: sealing succeeds, and every reader gives the capture back.
-/
import WasmRuntime.CheckpointReader

set_option autoImplicit false

namespace WasmRuntime.Checkpoint

open ByteCodec Journal ByteStream Exec

/-! ## The bounded writer

The metadata is written through `FallibleBoundedVec`, which refuses the write that would pass 16
KiB; `CheckpointMetadata.size_current_le` is what keeps it from refusing. -/

/-- A text that fits is written whole. -/
theorem to_writer_bounded {E : Env} {n : ℕ} (halloc : E.Grants n) (text : Json.Text) :
    ∀ w : FallibleBoundedVec, w.bytes.length + Json.size text ≤ w.maximum_bytes →
      w.maximum_bytes ≤ n → n ≤ E.target.usize_max →
      to_writer (FallibleBoundedVec.write E) w text
        = ({ w with bytes := w.bytes ++ Json.render text }, .ok ()) := by
  induction text with
  | nil =>
    intro w _ _ _
    rw [to_writer, Json.render, List.flatten_nil, List.append_nil]
  | cons bytes rest ih =>
    intro w hfits hmax hn
    rw [Json.size_cons] at hfits
    have hwrite : (FallibleBoundedVec.write E).write_all w bytes
        = ({ w with bytes := w.bytes ++ bytes }, .ok ()) := by
      simp only [FallibleBoundedVec.write]
      rw [checkedAdd_of_le (by omega)]
      dsimp only
      rw [if_neg (by omega), halloc _ (by omega)]
    rw [to_writer, hwrite]
    dsimp only
    rw [ih ⟨w.bytes ++ bytes, w.maximum_bytes⟩ (by simp only [List.length_append]; omega) hmax
      hn]
    simp only [Json.render, List.flatten_cons, List.append_assoc]

namespace WasixCheckpointCodec

variable {E : Env} {self : WasixCheckpointCodec} {b : WasixCheckpointBinding}

/-! ## Sealing

The journal and the binding reach `prepare_seal` already validated, so most of its checks repeat
what `from_attested_worker_capture` did. The lengths are added up again, in `usize`; they are below
the codec's largest artifact. -/

/-- The metadata text of a capture. -/
def metadata_text (E : Env) (b : WasixCheckpointBinding) (build : String) (j : Bytes) : Bytes :=
  Json.render (CheckpointMetadata.current E.target E.crypto b build j).to_json

theorem metadata_text_pos (E : Env) (b : WasixCheckpointBinding) (build : String) (j : Bytes) :
    1 ≤ (metadata_text E b build j).length := by
  -- The text opens with a brace.
  show 1 ≤ ([123] ++ _ : Bytes).length
  rw [List.length_append, List.length_singleton]
  omega

/-- The lengths of a capture's metadata and journal pass the reader's header check. -/
theorem headerOk_of_capture {build : String} {j : Bytes} (hmax : Representable E self)
    (hb : b.Short) (hbuild : isCanonicalSha256 build = true) (hj : 1 ≤ j.length)
    (hlen : j.length ≤ self.max_journal_bytes) :
    HeaderOk E self (metadata_text E b build j).length j.length := by
  have hsize : (metadata_text E b build j).length ≤ MAX_CHECKPOINT_METADATA_BYTES :=
    CheckpointMetadata.size_current_le E.target E.crypto j hb hbuild
  refine ⟨metadata_text_pos E b build j, hsize, hj, hlen, ?_⟩
  unfold Representable at hmax
  simp only [layout_of]
  omega

/-- `prepare_seal` of a validated capture. -/
theorem prepare_seal_ok {build : String} {j : Bytes}
    (hb : b.validate = .ok ()) (hscan : scan_journal E.target j = .ok ())
    (hok : HeaderOk E self (metadata_text E b build j).length j.length)
    (halloc : E.Grants MAX_CHECKPOINT_METADATA_BYTES) :
    self.prepare_seal E b ⟨j, b, build, true⟩
      = .ok ⟨header (metadata_text E b build j).length j.length, metadata_text E b build j, j,
        (layout_of (metadata_text E b build j).length j.length).artifact_len⟩ := by
  have hlimit : self.validate_limit = .ok () :=
    validate_limit_eq_ok.mpr (hok.journal_pos.trans hok.journal_le)
  have hjournal : self.validate_journal_length j.length = .ok () :=
    validate_journal_length_eq_ok.mpr ⟨hok.journal_pos, hok.journal_le⟩
  have hpos := hok.metadata_pos
  have hle := hok.metadata_le
  have hfits := hok.fits
  -- The bound on the metadata is a `usize` on every target.
  have hwide : MAX_CHECKPOINT_METADATA_BYTES ≤ E.target.usize_max :=
    le_trans (by decide) E.target.u16_max_le_usize_max
  have hwritten : to_writer (FallibleBoundedVec.write E)
      (FallibleBoundedVec.new MAX_CHECKPOINT_METADATA_BYTES)
      (CheckpointMetadata.current E.target E.crypto b build j).to_json
      = (⟨metadata_text E b build j, MAX_CHECKPOINT_METADATA_BYTES⟩, .ok ()) := by
    refine to_writer_bounded halloc _ _ ?_ le_rfl hwide
    rw [FallibleBoundedVec.new, List.length_nil, Nat.zero_add]
    exact hle
  have hbad : ((metadata_text E b build j).isEmpty
      || decide ((metadata_text E b build j).length > MAX_CHECKPOINT_METADATA_BYTES)) = false := by
    rw [Bool.or_eq_false_iff, decide_eq_false_iff_not, List.isEmpty_eq_false_iff]
    refine ⟨?_, by omega⟩
    intro hnil
    rw [hnil] at hpos
    exact absurd hpos (by decide)
  have hu64 := E.target.usize_max_le_u64_max
  simp only [layout_of] at hfits
  rw [prepare_seal, hlimit, ok_bind, hb, ok_bind]
  dsimp only
  rw [bne_self_eq_false, Bool.not_true, Bool.or_false, reject_false, ok_bind, hjournal,
    ok_bind, hscan, ok_bind, hwritten]
  refine bind_eq_ok.mpr ⟨(), rfl, bind_eq_ok.mpr
    ⟨(), reject_eq_ok.mpr hbad, ?_⟩⟩
  dsimp only [FallibleBoundedVec.into_inner]
  rw [checkedAdd_of_le (by omega), Option.bind_some, checkedAdd_of_le (by omega),
    Option.bind_some, checkedAdd_of_le hfits, ofOption_some, ok_bind,
    tryFrom_of_le (by unfold MAX_CHECKPOINT_METADATA_BYTES at hle; unfold u32_max; omega),
    ofOption_some, ok_bind, tryFrom_of_le (by omega), ofOption_some,
    ok_bind]
  rfl

/-- Written into a `Vec`, a prepared checkpoint is its sealed form. -/
theorem write_prepared_checkpoint_vec (E : Env) (self : WasixCheckpointCodec) (m j : Bytes)
    (n : ℕ) :
    self.write_prepared_checkpoint E Write.vec ⟨header m.length j.length, m, j, n⟩ []
      = (sealedForm E self m j, .ok ()) := by
  simp only [write_prepared_checkpoint, write_authenticated_chunk, Write.vec, List.nil_append,
    authentication_state, HmacSha256.update, HmacSha256.finalize, sealedForm, tag, authenticated,
    List.append_assoc]

/-- Sealing a validated capture gives the sealed form of its metadata and journal. -/
theorem seal_bound_capture_ok {build : String} {j : Bytes}
    (hb : b.validate = .ok ()) (hscan : scan_journal E.target j = .ok ())
    (hok : HeaderOk E self (metadata_text E b build j).length j.length)
    (halloc : ∀ n, E.try_reserve_exact n = .ok ()) :
    self.seal_bound_capture E b ⟨j, b, build, true⟩
      = .ok (sealedForm E self (metadata_text E b build j) j) := by
  rw [seal_bound_capture, prepare_seal_ok hb hscan hok (fun k _ => halloc k), ok_bind,
    halloc, ofExcept_ok, ok_bind, write_prepared_checkpoint_vec]
  rfl

end WasixCheckpointCodec

/-- What the only constructor of a capture has checked. -/
theorem from_attested_worker_capture_eq_ok {E : Env} {bytes : Bytes}
    {binding : WasixCheckpointBinding} {build : String} {captured : CapturedWasixJournal}
    (h : CapturedWasixJournal.from_attested_worker_capture E bytes binding build = .ok captured) :
    binding.validate = .ok () ∧ isCanonicalSha256 build = true ∧
      scan_journal E.target bytes = .ok () ∧ captured = ⟨bytes, binding, build, true⟩ := by
  obtain ⟨_, hb, h⟩ := bind_eq_ok.mp h
  obtain ⟨_, hbuild, h⟩ := bind_eq_ok.mp h
  obtain ⟨_, hscan, h⟩ := bind_eq_ok.mp h
  exact ⟨hb, validate_sha256_eq_ok.mp hbuild, hscan, (Exec.ok.inj h).symm⟩

/-! ## The round trip

What `write_prepared_checkpoint` leaves in a `Vec` is the sealed form of the metadata text and the
journal, and the readers' exact acceptance does the rest. -/

theorem scan_journal_length_pos {T : Target} {j : Bytes} (h : scan_journal T j = .ok ()) :
    1 ≤ j.length := by
  obtain ⟨_, hlen, -⟩ := bind_eq_ok.mp h
  rw [reject_eq_ok, decide_eq_false_iff_not, magic_length] at hlen
  omega

/-- Sealing a capture never fails within the codec's limit, and `open`, `verify` and
`open_reader` give its journal, binding and build digest back. The decoder is assumed
to read the one text that sealing wrote, and memory to be available. -/
theorem seal_round_trip (E : Env) (codec : WasixCheckpointCodec)
    (hmax : 22 + 16384 + codec.max_journal_bytes + 32 ≤ E.target.usize_max)
    (bytes : Bytes) (binding : WasixCheckpointBinding) (build : String)
    (captured : CapturedWasixJournal)
    (hcapture : CapturedWasixJournal.from_attested_worker_capture E bytes binding build
      = .ok captured)
    (hlen : bytes.length ≤ codec.max_journal_bytes)
    (hserde : E.from_slice (Json.render
        (CheckpointMetadata.current E.target E.crypto binding build bytes).to_json)
      = .ok (CheckpointMetadata.current E.target E.crypto binding build bytes))
    (halloc : ∀ n, E.try_reserve_exact n = .ok ()) :
    ∃ artifact, codec.seal_capture E captured = .ok artifact ∧
      codec.seal_ E captured.binding captured = .ok artifact ∧
      (∃ v, codec.open_ E captured.binding artifact = .ok v ∧ v.journal = .ok bytes ∧
        v.binding = binding ∧ v.worker_build_sha256 = build) ∧
      (∃ v, codec.verify E captured.binding artifact = .ok v ∧ v.journal = bytes ∧
        v.binding = binding ∧ v.worker_build_sha256 = build) ∧
      (∀ schedule : List ReadEvent, (∀ e, ReadEvent.error e ∈ schedule → e = .interrupted) →
        ∃ v, (codec.open_reader E captured.binding ⟨.finite artifact, 0, schedule⟩).1 = .ok v ∧
          v.journal = .ok bytes ∧ v.binding = binding ∧ v.worker_build_sha256 = build) := by
  obtain ⟨hb, hbuild, hscan, rfl⟩ := from_attested_worker_capture_eq_ok hcapture
  have hok : WasixCheckpointCodec.HeaderOk E codec
      (WasixCheckpointCodec.metadata_text E binding build bytes).length bytes.length :=
    WasixCheckpointCodec.headerOk_of_capture hmax (WasixCheckpointBinding.short_of_validate hb)
      hbuild (scan_journal_length_pos hscan) hlen
  have hseal : codec.seal_bound_capture E binding ⟨bytes, binding, build, true⟩
      = .ok (WasixCheckpointCodec.sealedForm E codec
        (WasixCheckpointCodec.metadata_text E binding build bytes) bytes) :=
    WasixCheckpointCodec.seal_bound_capture_ok hb hscan hok halloc
  have hacc : WasixCheckpointCodec.Accepts E codec binding
      (WasixCheckpointCodec.sealedForm E codec
        (WasixCheckpointCodec.metadata_text E binding build bytes) bytes)
      (WasixCheckpointCodec.metadata_text E binding build bytes) bytes build :=
    ⟨rfl, hok, hbuild, hserde, hscan⟩
  refine ⟨_, hseal, ?_, ?_, ?_, fun schedule hclean => ?_⟩
  · -- `seal` repeats two checks and then does what `seal_capture` does.
    rw [WasixCheckpointCodec.seal_, hb, ok_bind]
    dsimp only
    rw [bne_self_eq_false, reject_false, ok_bind]
    exact hseal
  · refine ⟨_, WasixCheckpointCodec.open_ok_iff.mpr ⟨hmax, hb, _, _, _, hacc, halloc _, rfl⟩, ?_⟩
    exact ⟨WasixCheckpointCodec.opened_journal binding bytes _ build, rfl, rfl⟩
  · exact ⟨_, WasixCheckpointCodec.verify_ok_iff.mpr ⟨hmax, hb, _, _, _, hacc, rfl⟩, rfl, rfl, rfl⟩
  · refine ⟨_, (WasixCheckpointCodec.open_reader_ok_iff hclean (fun k _ => halloc k)).mpr
      ⟨_, WasixCheckpointCodec.verify_parts_ok_iff.mpr ⟨hmax, hb, _, _, _, hacc, rfl⟩, rfl⟩, ?_⟩
    exact ⟨WasixCheckpointCodec.retained_journal hacc, rfl, rfl⟩

theorem seal_round_trip_sample :
    ∃ artifact v, sampleCodec.seal_capture sampleEnv ⟨sampleJournal, sampleBinding, sampleBuild,
        true⟩ = .ok artifact ∧
      sampleCodec.open_ sampleEnv sampleBinding artifact = .ok v ∧
      v.journal = .ok sampleJournal ∧ v.worker_build_sha256 = sampleBuild := by
  have hcapture : CapturedWasixJournal.from_attested_worker_capture sampleEnv sampleJournal
      sampleBinding sampleBuild = .ok ⟨sampleJournal, sampleBinding, sampleBuild, true⟩ := by
    decide
  have hserde : sampleEnv.from_slice (Json.render (CheckpointMetadata.current sampleEnv.target
      sampleEnv.crypto sampleBinding sampleBuild sampleJournal).to_json)
      = .ok (CheckpointMetadata.current sampleEnv.target sampleEnv.crypto sampleBinding sampleBuild
        sampleJournal) := by
    rw [show CheckpointMetadata.current sampleEnv.target sampleEnv.crypto sampleBinding sampleBuild
      sampleJournal = sampleMetadata from sampleMetadata_current]
    exact sampleEnv_decodes
  obtain ⟨artifact, hseal, -, ⟨v, hopen, hjournal, -, hbuild⟩, -⟩ :=
    seal_round_trip sampleEnv sampleCodec (by decide) sampleJournal sampleBinding
      sampleBuild _ hcapture (by decide) hserde (fun _ => rfl)
  exact ⟨artifact, v, hseal, hopen, hjournal, hbuild⟩

end WasmRuntime.Checkpoint
