/-
`checkpoint.rs`, the streaming reader: `open_reader` and `into_parts`, and its agreement with the
two in-memory readers.
-/
import WasmRuntime.CheckpointCodec
import WasmRuntime.ByteStream

set_option autoImplicit false

namespace WasmRuntime.Checkpoint

open ByteCodec Journal ByteStream Exec

/-! ## `checkpoint.rs`

`open_reader` cannot look at the length of its input. It reads a header, sizes one buffer from it,
fills the buffer, probes for one byte more and only then runs the checks `open` starts with. -/

/-- `read_checkpoint_exact`, into a buffer of `n` bytes. -/
def read_checkpoint_exact (n : ℕ) (phase : String) : ReadM Error Bytes := fun reader =>
  match reader.read_exact n with
  | (.ok bytes, reader) => (.ok bytes, reader)
  | (.err .unexpectedEof, reader) =>
    (.err (.Checkpoint "checkpoint artifact is truncated"), reader)
  | (.err .interrupted, reader) =>
    (.err (.Checkpoint ("checkpoint artifact " ++ phase ++ " read failed: interrupted")), reader)
  | (.err (.other message), reader) =>
    (.err (.Checkpoint ("checkpoint artifact " ++ phase ++ " read failed: " ++ message)), reader)
  | (.panic, reader) => (.panic, reader)
  | (.div, reader) => (.div, reader)

/-- The loop of `read_checkpoint_trailing_byte`; it returns how many bytes the first
call that is not interrupted delivered. -/
def trailing_byte_loop : ℕ → ReadM Error ℕ
  | 0, reader => (.div, reader)
  | fuel + 1, reader =>
    match reader.read 1 with
    | (.ok bytes, reader) => (.ok bytes.length, reader)
    | (.error .interrupted, reader) => trailing_byte_loop fuel reader
    | (.error .unexpectedEof, reader) => (.err (.Checkpoint
        "checkpoint artifact trailing-byte check failed: unexpected end of file"), reader)
    | (.error (.other message), reader) => (.err (.Checkpoint
        ("checkpoint artifact trailing-byte check failed: " ++ message)), reader)

def read_checkpoint_trailing_byte : ReadM Error ℕ := fun reader =>
  trailing_byte_loop (reader.schedule.length + 1) reader

/-- `open_reader`. The buffer is the header followed by what is read over the zeros
that `resize` put behind it. -/
def WasixCheckpointCodec.open_reader (E : Env) (self : WasixCheckpointCodec)
    (expected_binding : WasixCheckpointBinding) : ReadM Error VerifiedWasixCheckpoint := do
  ReadM.lift self.validate_limit
  ReadM.lift expected_binding.validate
  let maximum_artifact_bytes ← ReadM.lift (self.maximum_artifact_bytes E)
  let header ← read_checkpoint_exact CHECKPOINT_HEADER_BYTES "header"
  let layout ← ReadM.lift (self.validate_header E header)
  ReadM.lift (ofExcept
    (fun error => .Checkpoint ("checkpoint artifact allocation failed while reading: " ++ error))
    (E.try_reserve_exact layout.artifact_len))
  let body ← read_checkpoint_exact (layout.artifact_len - CHECKPOINT_HEADER_BYTES) "body"
  let artifact := header ++ body
  let trailing_bytes ← read_checkpoint_trailing_byte
  ReadM.lift (reject (trailing_bytes != 0) (.Checkpoint
    (if layout.artifact_len = maximum_artifact_bytes then
      "checkpoint artifact exceeds the configured limit while reading"
    else "checkpoint artifact length does not match its header")))
  let parts ← ReadM.lift (self.verify_parts E expected_binding artifact)
  pure ⟨parts.binding, artifact, parts.journal, parts.artifact_sha256, parts.worker_build_sha256⟩

/-- `slice::copy_within(start..stop, 0)`: the range is read before it is written. -/
def copy_within (bytes : Bytes) (start stop : ℕ) : Exec Error Bytes := do
  let moved ← slice bytes start stop
  pure (moved ++ bytes.drop moved.length)

/-- `VerifiedWasixCheckpoint::into_parts`. -/
def VerifiedWasixCheckpoint.into_parts (self : VerifiedWasixCheckpoint) :
    Exec Error (Bytes × String) := do
  let bytes ← if self.journal_range.1 != 0 then
      copy_within self.bytes self.journal_range.1 self.journal_range.2
    else pure self.bytes
  pure (bytes.take (self.journal_range.2 - self.journal_range.1), self.worker_build_sha256)

/-! ## The two reads

On a clean schedule neither shows how the stream is cut. -/

/-- On a clean schedule the outcome of a sized read depends on the source only. -/
theorem read_checkpoint_exact_clean {r : Reader} (n : ℕ) (phase : String) (hclean : r.Clean) :
    ∃ r' : Reader, r'.source = r.source ∧ r'.Clean ∧
      r'.pos = r.pos + (r.source.window r.pos n).length ∧
      read_checkpoint_exact n phase r
        = (if (r.source.window r.pos n).length = n then .ok (r.source.window r.pos n)
          else .err (.Checkpoint "checkpoint artifact is truncated"), r') := by
  obtain ⟨hres, hsource, hpos, hclean'⟩ := read_exact_clean n hclean
  refine ⟨(r.read_exact n).2, hsource, hclean', hpos, ?_⟩
  unfold read_checkpoint_exact
  rcases hrun : r.read_exact n with ⟨result, r'⟩
  rw [hrun] at hres
  dsimp only at hres
  subst hres
  by_cases hfull : (r.source.window r.pos n).length = n
  · rw [exactly, if_pos hfull, if_pos hfull, List.nil_append]
  · rw [exactly, if_neg hfull, if_neg hfull]

/-- On a clean schedule the probe answers whether anything is left. -/
theorem trailing_byte_loop_clean (s : Source) (schedule : List ReadEvent) :
    ∀ (fuel pos : ℕ), schedule.length + 1 ≤ fuel →
      (∀ e, ReadEvent.error e ∈ schedule → e = .interrupted) →
      (trailing_byte_loop fuel ⟨s, pos, schedule⟩).1 = .ok (s.window pos 1).length := by
  induction schedule with
  | nil =>
    intro fuel pos hfuel _
    obtain ⟨fuel, rfl⟩ : ∃ k, fuel = k + 1 := ⟨fuel - 1, by simp at hfuel; omega⟩
    rfl
  | cons event rest ih =>
    intro fuel pos hfuel hclean
    obtain ⟨fuel, rfl⟩ : ∃ k, fuel = k + 1 := ⟨fuel - 1, by simp at hfuel; omega⟩
    cases event with
    | chunk k =>
      have hmin : min 1 (k + 1) = 1 := by omega
      simp only [trailing_byte_loop, Reader.read, hmin]
    | error e =>
      have he : e = .interrupted := hclean e List.mem_cons_self
      subst he
      have hfuel' : rest.length + 1 ≤ fuel := by
        rw [List.length_cons] at hfuel
        omega
      exact ih fuel pos hfuel' (fun e he => hclean e (List.mem_cons_of_mem _ he))

theorem read_checkpoint_trailing_byte_clean {r : Reader} (hclean : r.Clean) :
    (read_checkpoint_trailing_byte r).1 = .ok (r.source.window r.pos 1).length :=
  trailing_byte_loop_clean r.source r.schedule _ r.pos le_rfl hclean

/-! ## Agreement

That the readers come to the same needs the header's two lengths to be the artifact's own: an
artifact that `verify_parts` accepts is as long as its header says, so the buffer is filled exactly
and the probe finds the end; and a stream that fills the buffer and then ends is that buffer. -/

private theorem ok_of_ite {ε α : Type} {c : Prop} [Decidable c] {a x : α} {e : ε}
    (h : (Exec.ok a : Exec ε α) = if c then .ok x else .err e) : c ∧ a = x := by
  by_cases hc : c
  · rw [if_pos hc] at h
    exact ⟨hc, Exec.ok.inj h⟩
  · rw [if_neg hc] at h
    exact absurd h nofun

namespace WasixCheckpointCodec

variable {E : Env} {self : WasixCheckpointCodec} {b : WasixCheckpointBinding}

/-- The value `open_reader` builds from the parts of an artifact. -/
def retained (p : VerifiedCheckpointParts) (a : Bytes) : VerifiedWasixCheckpoint :=
  ⟨p.binding, a, p.journal, p.artifact_sha256, p.worker_build_sha256⟩

/-- A stream that fills the buffer its header sized and ends there is that buffer. -/
theorem open_reader_sound {a : Bytes} {schedule : List ReadEvent}
    {v : VerifiedWasixCheckpoint} (hclean : Reader.Clean ⟨.finite a, 0, schedule⟩)
    (h : (self.open_reader E b ⟨.finite a, 0, schedule⟩).1 = .ok v) :
    ∃ p, self.verify_parts E b a = .ok p ∧ v = retained p a := by
  rw [open_reader, ReadM.lift_bind_eq_ok] at h
  obtain ⟨_, -, h⟩ := h
  obtain ⟨_, -, h⟩ := ReadM.lift_bind_eq_ok.mp h
  obtain ⟨max, -, h⟩ := ReadM.lift_bind_eq_ok.mp h
  obtain ⟨hdr, r1, hread1, h⟩ := ReadM.bind_eq_ok.mp h
  obtain ⟨layout, hlayout, h⟩ := ReadM.lift_bind_eq_ok.mp h
  obtain ⟨_, -, h⟩ := ReadM.lift_bind_eq_ok.mp h
  obtain ⟨body, r2, hread2, h⟩ := ReadM.bind_eq_ok.mp h
  obtain ⟨trailing, r3, hread3, h⟩ := ReadM.bind_eq_ok.mp h
  obtain ⟨_, htrailing, h⟩ := ReadM.lift_bind_eq_ok.mp h
  obtain ⟨p, hp, h⟩ := ReadM.lift_bind_eq_ok.mp h
  -- The header is the first 22 bytes of the stream.
  obtain ⟨r1', hs1, hc1, hp1, he1⟩ :=
    read_checkpoint_exact_clean CHECKPOINT_HEADER_BYTES "header" hclean
  obtain ⟨hres1, rfl⟩ := Prod.mk.inj (hread1.symm.trans he1)
  obtain ⟨hlen1, rfl⟩ := ok_of_ite hres1
  rw [hlen1, Nat.zero_add] at hp1
  -- The body is what the header declared, from there on.
  obtain ⟨r2', hs2, hc2, hp2, he2⟩ :=
    read_checkpoint_exact_clean (layout.artifact_len - CHECKPOINT_HEADER_BYTES) "body" hc1
  obtain ⟨hres2, rfl⟩ := Prod.mk.inj (hread2.symm.trans he2)
  obtain ⟨hlen2, rfl⟩ := ok_of_ite hres2
  rw [hlen2, hp1] at hp2
  rw [hs1, hp1] at hlen2 hp
  -- The probe found nothing after it.
  have hprobe := read_checkpoint_trailing_byte_clean hc2
  rw [hread3, hs2, hs1, hp2] at hprobe
  have hzero : trailing = 0 := by simpa [reject_eq_ok] using htrailing
  have hend : (Source.window (.finite a) (CHECKPOINT_HEADER_BYTES
      + (layout.artifact_len - CHECKPOINT_HEADER_BYTES)) 1).length = 0 := by
    rw [← Exec.ok.inj hprobe, hzero]
  have hwhole : Source.window (.finite a) 0 CHECKPOINT_HEADER_BYTES
      ++ Source.window (.finite a) CHECKPOINT_HEADER_BYTES
        (layout.artifact_len - CHECKPOINT_HEADER_BYTES) = a := by
    simp only [Source.window, List.length_take, List.length_drop, List.drop_zero] at hend ⊢
    rw [List.take_of_length_le (l := a.drop CHECKPOINT_HEADER_BYTES)
      (by rw [List.length_drop]; omega), List.take_append_drop]
  have hv := Exec.ok.inj h
  rw [hs1, hp1, hwhole] at hv
  rw [hwhole] at hp
  exact ⟨p, hp, hv.symm⟩

/-- The part of `open_reader` that fills the buffer: the size checks before, between and after the
two reads. -/
def read_artifact (E : Env) (self : WasixCheckpointCodec) : ReadM Error Bytes := do
  let maximum_artifact_bytes ← ReadM.lift (self.maximum_artifact_bytes E)
  let header ← read_checkpoint_exact CHECKPOINT_HEADER_BYTES "header"
  let layout ← ReadM.lift (self.validate_header E header)
  ReadM.lift (ofExcept
    (fun error => .Checkpoint ("checkpoint artifact allocation failed while reading: " ++ error))
    (E.try_reserve_exact layout.artifact_len))
  let body ← read_checkpoint_exact (layout.artifact_len - CHECKPOINT_HEADER_BYTES) "body"
  let trailing_bytes ← read_checkpoint_trailing_byte
  ReadM.lift (reject (trailing_bytes != 0) (.Checkpoint
    (if layout.artifact_len = maximum_artifact_bytes then
      "checkpoint artifact exceeds the configured limit while reading"
    else "checkpoint artifact length does not match its header")))
  pure (header ++ body)

/-- `open_reader` fills the buffer and verifies it. -/
theorem open_reader_eq (E : Env) (self : WasixCheckpointCodec) (b : WasixCheckpointBinding) :
    self.open_reader E b = (do
      ReadM.lift self.validate_limit
      ReadM.lift b.validate
      let artifact ← self.read_artifact E
      let parts ← ReadM.lift (self.verify_parts E b artifact)
      pure (retained parts artifact)) := by
  simp only [open_reader, read_artifact, ReadM.bind_assoc]
  rfl

/-- An artifact of the length its header declares fills the buffer, and the probe finds the end. -/
theorem read_artifact_complete {m j t : Bytes} {schedule : List ReadEvent} (a : Bytes)
    (ha : a = header m.length j.length ++ (m ++ (j ++ t)))
    (hclean : Reader.Clean ⟨.finite a, 0, schedule⟩) (hmax : Representable E self)
    (hok : HeaderOk E self m.length j.length) (ht : t.length = CHECKPOINT_TAG_BYTES)
    (halloc : E.try_reserve_exact a.length = .ok ()) :
    (self.read_artifact E ⟨.finite a, 0, schedule⟩).1 = .ok a := by
  have hhdr : (header m.length j.length).length = CHECKPOINT_HEADER_BYTES := header_length _ _
  have hlen : a.length = (layout_of m.length j.length).artifact_len := by
    rw [ha]
    exact parts_length ht
  -- The three reads: the header, the rest of the artifact, and nothing behind it.
  have hw1 : Source.window (.finite a) 0 CHECKPOINT_HEADER_BYTES = header m.length j.length := by
    rw [Source.window, List.drop_zero, ha]
    exact List.take_left' hhdr
  have hw2 : Source.window (.finite a) CHECKPOINT_HEADER_BYTES
      (a.length - CHECKPOINT_HEADER_BYTES) = m ++ (j ++ t) := by
    rw [Source.window, ← List.length_drop, List.take_length, ha]
    exact List.drop_left' hhdr
  have hw3 : Source.window (.finite a) a.length 1 = [] := by
    rw [Source.window, List.drop_length, List.take_nil]
  have hlayout : self.validate_header E (header m.length j.length)
      = .ok (layout_of m.length j.length) := (validate_header_ok_iff hhdr).mpr ⟨_, _, rfl, hok, rfl⟩
  obtain ⟨r1, hs1, hc1, hp1, he1⟩ :=
    read_checkpoint_exact_clean CHECKPOINT_HEADER_BYTES "header" hclean
  rw [hw1, if_pos hhdr] at he1
  rw [hw1, hhdr, Nat.zero_add] at hp1
  obtain ⟨r2, hs2, hc2, hp2, he2⟩ :=
    read_checkpoint_exact_clean (a.length - CHECKPOINT_HEADER_BYTES) "body" hc1
  have hbody : (m ++ (j ++ t)).length = a.length - CHECKPOINT_HEADER_BYTES := by
    have hsum := congrArg List.length ha
    rw [List.length_append, hhdr] at hsum
    omega
  have hge : CHECKPOINT_HEADER_BYTES ≤ a.length := by
    rw [hlen]
    exact le_trans (Nat.le_add_right _ _) (le_artifact_len _ _)
  rw [hs1, hp1] at he2 hp2
  rw [hw2] at he2 hp2
  rw [if_pos hbody] at he2
  rw [hbody, Nat.add_sub_cancel' hge] at hp2
  have hprobe := read_checkpoint_trailing_byte_clean hc2
  rw [hs2, hs1, hp2, hw3] at hprobe
  rw [read_artifact,
    ReadM.lift_bind_of_ok (maximum_artifact_bytes_eq_ok.mpr ⟨hmax, rfl⟩), ReadM.bind_of_ok he1,
    ReadM.lift_bind_of_ok hlayout, ← hlen, ReadM.lift_bind_of_ok (by rw [halloc]; rfl),
    ReadM.bind_of_ok he2, ReadM.bind_eq_ok]
  refine ⟨0, (read_checkpoint_trailing_byte r2).2, Prod.ext hprobe rfl, ?_⟩
  rw [ReadM.lift_bind_of_ok (by rfl), ← ha]
  rfl

/-- An artifact the shared checks accept is as long as its header says, so it is read whole. -/
theorem open_reader_complete {a : Bytes} {schedule : List ReadEvent}
    {p : VerifiedCheckpointParts} (hclean : Reader.Clean ⟨.finite a, 0, schedule⟩)
    (hp : self.verify_parts E b a = .ok p) (halloc : E.try_reserve_exact a.length = .ok ()) :
    (self.open_reader E b ⟨.finite a, 0, schedule⟩).1 = .ok (retained p a) := by
  obtain ⟨hmax, hb, m, j, t, ha, hok, ht⟩ := verify_parts_layout hp
  have hlimit : self.validate_limit = .ok () :=
    validate_limit_eq_ok.mpr (hok.journal_pos.trans hok.journal_le)
  have hread := read_artifact_complete a ha hclean hmax hok ht halloc
  rw [open_reader_eq, ReadM.lift_bind_of_ok hlimit, ReadM.lift_bind_of_ok hb, ReadM.bind_eq_ok]
  refine ⟨a, (self.read_artifact E ⟨.finite a, 0, schedule⟩).2, Prod.ext hread rfl, ?_⟩
  rw [ReadM.lift_bind_of_ok hp]
  rfl

/-- `open_reader` on a clean schedule, exactly. -/
theorem open_reader_ok_iff {a : Bytes} {schedule : List ReadEvent}
    {v : VerifiedWasixCheckpoint} (hclean : Reader.Clean ⟨.finite a, 0, schedule⟩)
    (halloc : E.Grants a.length) :
    (self.open_reader E b ⟨.finite a, 0, schedule⟩).1 = .ok v ↔
      ∃ p, self.verify_parts E b a = .ok p ∧ v = retained p a := by
  refine ⟨open_reader_sound hclean, ?_⟩
  rintro ⟨p, hp, rfl⟩
  exact open_reader_complete hclean hp (halloc _ le_rfl)

/-! ## How much a stream is asked for

The buffer has at most the largest artifact's length, and the probe takes one byte. -/

theorem takes_read_checkpoint_exact (n : ℕ) (phase : String) :
    ReadM.Takes n (read_checkpoint_exact n phase) := by
  intro r
  have hle := read_exact_pos_le r n
  unfold read_checkpoint_exact
  rcases hrun : r.read_exact n with ⟨result, r'⟩
  rw [hrun] at hle
  rcases result with bytes | e | _ | _
  · exact hle
  · cases e <;> exact hle
  · exact hle
  · exact hle

theorem read_checkpoint_exact_length {n : ℕ} {phase : String} {r : Reader} {bytes : Bytes}
    (h : (read_checkpoint_exact n phase r).1 = .ok bytes) : bytes.length = n := by
  unfold read_checkpoint_exact at h
  rcases hrun : r.read_exact n with ⟨result, r'⟩
  rw [hrun] at h
  rcases result with bytes' | e | _ | _
  · obtain rfl := Exec.ok.inj h
    exact read_exact_length (congrArg Prod.fst hrun)
  · cases e <;> exact absurd h nofun
  · exact absurd h nofun
  · exact absurd h nofun

theorem takes_trailing_byte_loop (fuel : ℕ) : ReadM.Takes 1 (trailing_byte_loop fuel) := by
  induction fuel with
  | zero => exact fun r => Nat.le_add_right _ _
  | succ fuel ih =>
    intro r
    obtain ⟨herr, hok⟩ := read_pos r 1
    rw [trailing_byte_loop]
    rcases hread : r.read 1 with ⟨result, r'⟩
    rw [hread] at herr hok
    match result with
    | .ok bytes =>
      obtain ⟨hpos, hlen⟩ := hok bytes rfl
      dsimp only at hpos ⊢
      omega
    | .error .interrupted =>
      have hpos : r'.pos = r.pos := herr _ rfl
      have hrest := ih r'
      rwa [hpos] at hrest
    | .error .unexpectedEof => exact (herr _ rfl).le.trans (Nat.le_add_right _ _)
    | .error (.other _) => exact (herr _ rfl).le.trans (Nat.le_add_right _ _)

/-- However long the stream and however it is cut, `open_reader` takes one byte more
than the largest artifact at most. -/
theorem takes_open_reader (E : Env) (self : WasixCheckpointCodec) (b : WasixCheckpointBinding) :
    ReadM.Takes (CHECKPOINT_HEADER_BYTES + (MAX_CHECKPOINT_METADATA_BYTES
      + self.max_journal_bytes + CHECKPOINT_TAG_BYTES + 1)) (self.open_reader E b) := by
  rw [open_reader]
  refine ReadM.takes_lift_bind fun _ _ => ReadM.takes_lift_bind fun _ _ =>
    ReadM.takes_lift_bind fun max _ => ReadM.takes_bind (takes_read_checkpoint_exact _ _) ?_
  intro hdr r hhdr
  refine ReadM.takes_lift_bind fun layout hlayout => ReadM.takes_lift_bind fun _ _ => ?_
  obtain ⟨mlen, jlen, -, hok, rfl⟩ :=
    (validate_header_ok_iff (read_checkpoint_exact_length hhdr)).mp hlayout
  have hm := hok.metadata_le
  have hj := hok.journal_le
  refine ReadM.takes_mono (ReadM.takes_bind (takes_read_checkpoint_exact _ _) fun body _ _ =>
    ReadM.takes_bind (fun r => takes_trailing_byte_loop _ r) fun trailing _ _ =>
      ReadM.takes_lift_bind fun _ _ => ReadM.takes_lift_bind fun p _ => ReadM.takes_pure _) ?_
  simp only [layout_of]
  omega

/-! ## Taking the journal out

The value keeps the whole artifact and remembers where the journal is in it. When the journal is
finally taken out it is moved to the front of the same buffer, which overlaps whenever the journal
is longer than what stands before it. -/

/-- The journal of what is retained. -/
theorem retained_journal {a m j : Bytes} {build : String}
    (hacc : Accepts E self b a m j build) :
    (retained (parts_of E b a m j build) a).journal = .ok j := by
  rw [VerifiedWasixCheckpoint.journal, retained, parts_of, hacc.artifact]
  exact slice_sealedForm E self m j

/-- The journal moved to the front of the artifact's own buffer is the journal. -/
theorem retained_into_parts {a m j : Bytes} {build : String}
    (hacc : Accepts E self b a m j build) :
    (retained (parts_of E b a m j build) a).into_parts = .ok (j, build) := by
  have hstart : (CHECKPOINT_HEADER_BYTES + m.length != 0) = true := by
    rw [bne_iff_ne]
    simp [CHECKPOINT_HEADER_BYTES]
  rw [VerifiedWasixCheckpoint.into_parts, retained, parts_of]
  dsimp only
  rw [if_pos hstart, copy_within, hacc.artifact, slice_sealedForm, ok_bind, pure_eq,
    ok_bind, Nat.add_sub_cancel_left, List.take_left, pure_eq]

theorem opened_into_parts (b : WasixCheckpointBinding) (j : Bytes) (sha build : String) :
    (⟨b, j, (0, j.length), sha, build⟩ : VerifiedWasixCheckpoint).into_parts
      = .ok (j, build) := by
  rw [VerifiedWasixCheckpoint.into_parts]
  dsimp only
  rw [bne_self_eq_false, if_neg (by simp), pure_eq, ok_bind, Nat.sub_zero,
    List.take_length, pure_eq]

theorem opened_journal (b : WasixCheckpointBinding) (j : Bytes) (sha build : String) :
    (⟨b, j, (0, j.length), sha, build⟩ : VerifiedWasixCheckpoint).journal = .ok j := by
  rw [VerifiedWasixCheckpoint.journal]
  dsimp only
  rw [slice_of_le (Nat.zero_le _) le_rfl, List.drop_zero, Nat.sub_zero, List.take_length]

/-- The three readers accept the same artifacts and return the same identity, digests
and journal, however the stream is cut; and no stream, however long, is read past one
byte more than the largest artifact. -/
theorem readers_agree (E : Env) (codec : WasixCheckpointCodec) (b : WasixCheckpointBinding)
    (a : Bytes) (schedule : List ReadEvent)
    (hclean : ∀ e, ReadEvent.error e ∈ schedule → e = .interrupted)
    (halloc : E.Grants a.length) :
    ((∃ v, (codec.open_reader E b ⟨.finite a, 0, schedule⟩).1 = .ok v) ↔
      ∃ v, codec.open_ E b a = .ok v) ∧
    ((∃ v, codec.open_ E b a = .ok v) ↔ ∃ v, codec.verify E b a = .ok v) ∧
    (∀ streamed opened viewed,
      (codec.open_reader E b ⟨.finite a, 0, schedule⟩).1 = .ok streamed →
      codec.open_ E b a = .ok opened → codec.verify E b a = .ok viewed →
      (streamed.binding = opened.binding ∧ opened.binding = viewed.binding) ∧
      (streamed.artifact_sha256 = opened.artifact_sha256 ∧
        opened.artifact_sha256 = viewed.artifact_sha256) ∧
      (streamed.worker_build_sha256 = opened.worker_build_sha256 ∧
        opened.worker_build_sha256 = viewed.worker_build_sha256) ∧
      ∃ journal, streamed.journal = .ok journal ∧ opened.journal = .ok journal ∧
        viewed.journal = journal ∧
        streamed.into_parts = .ok (journal, viewed.worker_build_sha256) ∧
        opened.into_parts = .ok (journal, viewed.worker_build_sha256)) ∧
    (∀ reader : Reader, (codec.open_reader E b reader).2.pos
      ≤ reader.pos + (22 + 16384 + codec.max_journal_bytes + 32 + 1)) := by
  refine ⟨?_, ?_, ?_, ?_⟩
  · constructor
    · rintro ⟨v, hv⟩
      obtain ⟨p, hp, -⟩ := (open_reader_ok_iff hclean halloc).mp hv
      obtain ⟨hmax, hb, m, j, build, hacc, -⟩ := verify_parts_ok_iff.mp hp
      exact ⟨_, open_ok_iff.mpr
        ⟨hmax, hb, m, j, build, hacc, halloc _ hacc.journal_length_le, rfl⟩⟩
    · rintro ⟨v, hv⟩
      obtain ⟨hmax, hb, m, j, build, hacc, -⟩ := open_ok_iff.mp hv
      exact ⟨_, (open_reader_ok_iff hclean halloc).mpr
        ⟨_, verify_parts_ok_iff.mpr ⟨hmax, hb, m, j, build, hacc, rfl⟩, rfl⟩⟩
  · constructor
    · rintro ⟨v, hv⟩
      obtain ⟨hmax, hb, m, j, build, hacc, -⟩ := open_ok_iff.mp hv
      exact ⟨_, verify_ok_iff.mpr ⟨hmax, hb, m, j, build, hacc, rfl⟩⟩
    · rintro ⟨v, hv⟩
      obtain ⟨hmax, hb, m, j, build, hacc, -⟩ := verify_ok_iff.mp hv
      exact ⟨_, open_ok_iff.mpr
        ⟨hmax, hb, m, j, build, hacc, halloc _ hacc.journal_length_le, rfl⟩⟩
  · intro streamed opened viewed hs ho hv
    -- Each reader comes with a decomposition of the artifact; there is only one.
    obtain ⟨p, hp, rfl⟩ := (open_reader_ok_iff hclean halloc).mp hs
    obtain ⟨-, -, m, j, build, hacc, rfl⟩ := verify_parts_ok_iff.mp hp
    obtain ⟨-, -, m', j', build', hacc', -, rfl⟩ := open_ok_iff.mp ho
    obtain ⟨-, -, m'', j'', build'', hacc'', rfl⟩ := verify_ok_iff.mp hv
    obtain ⟨rfl, rfl, rfl⟩ := hacc.unique hacc'
    obtain ⟨rfl, rfl, rfl⟩ := hacc.unique hacc''
    refine ⟨⟨rfl, rfl⟩, ⟨rfl, rfl⟩, ⟨rfl, rfl⟩, j, retained_journal hacc, ?_, rfl,
      retained_into_parts hacc, ?_⟩
    · exact opened_journal b j _ build
    · exact opened_into_parts b j _ build
  · intro reader
    have htakes := takes_open_reader E codec b reader
    simp only [CHECKPOINT_HEADER_BYTES, MAX_CHECKPOINT_METADATA_BYTES,
      CHECKPOINT_TAG_BYTES] at htakes
    omega

theorem readers_agree_sample :
    ∃ v, (sampleCodec.open_reader sampleEnv sampleBinding ⟨.finite sampleArtifact, 0,
      [.chunk 6, .error .interrupted, .chunk 100]⟩).1 = .ok v :=
  (readers_agree sampleEnv sampleCodec sampleBinding sampleArtifact
    [.chunk 6, .error .interrupted, .chunk 100] (by simp) (fun _ _ => rfl)).1.mpr
    ⟨_, open_ok_iff.mpr ⟨sampleCodec_representable, sampleBinding_valid, _, _, _,
      sampleArtifact_accepts, rfl, rfl⟩⟩

end WasixCheckpointCodec

end WasmRuntime.Checkpoint
