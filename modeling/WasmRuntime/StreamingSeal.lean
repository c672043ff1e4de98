/-
`checkpoint.rs`, the streaming writer: `seal_into` and `seal_capture_into`.
-/
import WasmRuntime.CheckpointSeal
import WasmRuntime.ByteSink

set_option autoImplicit false

namespace WasmRuntime.Checkpoint

open ByteCodec Journal ByteStream ByteSink Exec

/-! ## `checkpoint.rs`

Any writer will do that leaves the whole of a buffer or a part that stops short. -/

/-- `x?` before the writer has been touched. -/
def before {W α β : Type} (x : Exec Error α) (writer : W) (next : α → W × Exec Error β) :
    W × Exec Error β :=
  match x with
  | .ok value => next value
  | .err error => (writer, .err error)
  | .panic => (writer, .panic)
  | .div => (writer, .div)

namespace WasixCheckpointCodec

variable (E : Env) (self : WasixCheckpointCodec) {W : Type} (w : Write W)

/-- `seal_bound_capture_into`: the writer afterwards, and the result. -/
def seal_bound_capture_into (binding : WasixCheckpointBinding) (journal : CapturedWasixJournal)
    (writer : W) : W × Exec Error ℕ :=
  before (self.prepare_seal E binding journal) writer fun prepared =>
    let (writer, written) := self.write_prepared_checkpoint E w prepared writer
    (writer, written >>= fun _ => .ok prepared.artifact_len)

def seal_capture_into (journal : CapturedWasixJournal) (writer : W) : W × Exec Error ℕ :=
  self.seal_bound_capture_into E w journal.binding journal writer

def seal_into (binding : WasixCheckpointBinding) (journal : CapturedWasixJournal) (writer : W) :
    W × Exec Error ℕ :=
  before binding.validate writer fun _ =>
    before (reject (binding != journal.binding)
      (.Checkpoint "captured journal binding does not match the checkpoint binding")) writer
      fun _ => self.seal_bound_capture_into E w binding journal writer

end WasixCheckpointCodec

/-- `impl Write` of a scheduled writer. -/
def Write.scheduled : Write Writer := ⟨Writer.write_all⟩

/-- Every `write_all` leaves the whole buffer, or a part that stops short and an error. -/
def Write.Lawful {W : Type} (w : Write W) (received : W → Bytes) : Prop :=
  ∀ writer buf, Written (received writer) buf (received (w.write_all writer buf).1)
    (w.write_all writer buf).2

theorem Write.scheduled_lawful : Write.scheduled.Lawful Writer.received :=
  fun writer buf => write_all_loop_written writer.schedule writer.received buf

/-! ## What `prepare_seal` lays out

Both writers share `prepare_seal`, and with it the bytes of the header, the metadata and the
journal; the tag follows from those. -/

/-- A write that the bounded vector takes is appended. -/
theorem write_all_bytes {E : Env} {w next : FallibleBoundedVec} {bytes : Bytes}
    (h : (FallibleBoundedVec.write E).write_all w bytes = (next, .ok ())) :
    next.bytes = w.bytes ++ bytes := by
  simp only [FallibleBoundedVec.write] at h
  split at h
  · exact absurd (Prod.mk.inj h).2 (by intro herror; cases herror)
  · split at h
    · exact absurd (Prod.mk.inj h).2 (by intro herror; cases herror)
    · split at h
      · exact absurd (Prod.mk.inj h).2 (by intro herror; cases herror)
      · rw [← (Prod.mk.inj h).1]

/-- The bounded writer that succeeds has the whole text. -/
theorem to_writer_bytes {E : Env} (text : Json.Text) :
    ∀ w w' : FallibleBoundedVec, to_writer (FallibleBoundedVec.write E) w text = (w', .ok ()) →
      w'.bytes = w.bytes ++ Json.render text := by
  induction text with
  | nil =>
    intro w w' h
    rw [to_writer] at h
    rw [← (Prod.mk.inj h).1, Json.render, List.flatten_nil, List.append_nil]
  | cons bytes rest ih =>
    intro w w' h
    rw [to_writer] at h
    rcases hwrite : (FallibleBoundedVec.write E).write_all w bytes with ⟨next, result⟩
    rw [hwrite] at h
    cases result with
    | error error => exact absurd (Prod.mk.inj h).2 (by intro herror; cases herror)
    | ok done =>
      rw [ih next w' h, write_all_bytes hwrite, List.append_assoc]
      rfl

namespace WasixCheckpointCodec

variable {E : Env} {self : WasixCheckpointCodec} {b : WasixCheckpointBinding}
  {journal : CapturedWasixJournal} {prepared : PreparedCheckpoint}

/-- What a prepared checkpoint holds: the metadata text of the capture, its journal, and the header
and the length that go with them, which pass the readers' header check. -/
theorem prepare_seal_layout (h : self.prepare_seal E b journal = .ok prepared) :
    prepared.metadata = metadata_text E b journal.worker_build_sha256 journal.bytes ∧
      prepared.journal = journal.bytes ∧
      prepared.header = header prepared.metadata.length prepared.journal.length ∧
      prepared.artifact_len
        = (layout_of prepared.metadata.length prepared.journal.length).artifact_len ∧
      HeaderOk E self prepared.metadata.length prepared.journal.length := by
  obtain ⟨_, -, h⟩ := bind_eq_ok.mp h
  obtain ⟨_, -, h⟩ := bind_eq_ok.mp h
  obtain ⟨_, -, h⟩ := bind_eq_ok.mp h
  obtain ⟨_, hjournal, h⟩ := bind_eq_ok.mp h
  obtain ⟨_, -, h⟩ := bind_eq_ok.mp h
  -- The serializer's writer holds what `to_vec` would return, if it did not refuse a byte of it.
  rcases hwriter : to_writer (FallibleBoundedVec.write E)
      (FallibleBoundedVec.new MAX_CHECKPOINT_METADATA_BYTES)
      (CheckpointMetadata.current E.target E.crypto b journal.worker_build_sha256
        journal.bytes).to_json with ⟨writer, written⟩
  dsimp only at h
  rw [hwriter] at h
  obtain ⟨_, hwritten, h⟩ := bind_eq_ok.mp h
  obtain ⟨_, hmetadata, h⟩ := bind_eq_ok.mp h
  obtain ⟨capacity, hcapacity, h⟩ := bind_eq_ok.mp h
  obtain ⟨metadata_len, hmlen, h⟩ := bind_eq_ok.mp h
  obtain ⟨journal_len, hjlen, h⟩ := bind_eq_ok.mp h
  rw [ofExcept_eq_ok] at hwritten
  subst hwritten
  have htext := to_writer_bytes _ _ _ hwriter
  rw [FallibleBoundedVec.new, List.nil_append] at htext
  rw [validate_journal_length_eq_ok] at hjournal
  simp only [FallibleBoundedVec.into_inner] at hmetadata hcapacity hmlen h
  rw [reject_eq_ok, Bool.or_eq_false_iff, List.isEmpty_eq_false_iff] at hmetadata
  obtain ⟨hne, hle⟩ := hmetadata
  have hle := of_decide_eq_false hle
  rw [ofOption_eq_ok] at hcapacity hmlen hjlen
  -- The capacity is the length the layout gives, because none of the sums overflowed.
  simp only [Option.bind_eq_some_iff, checkedAdd_eq_some] at hcapacity
  obtain ⟨first, ⟨-, rfl⟩, second, ⟨-, rfl⟩, hfits, rfl⟩ := hcapacity
  rw [tryFrom_eq_some] at hmlen hjlen
  obtain ⟨-, rfl⟩ := hmlen
  obtain ⟨-, rfl⟩ := hjlen
  have hprepared := (Exec.ok.inj h).symm
  have hpos : 1 ≤ writer.bytes.length := List.length_pos_iff.mpr hne
  rw [hprepared]
  exact ⟨htext, rfl, rfl, rfl, hpos, not_lt.mp hle, hjournal.1, hjournal.2, hfits⟩

end WasixCheckpointCodec

/-! ## What the writer receives

What a destination has received is decided by the writer's answers alone: all of the artifact, or a
part of it that stops short. -/

/-- Where a computation on a writer leaves it: with all of a string, or with an error and a part
that stops short. -/
def Streamed {α : Type} (before whole after : Bytes) (value : α) (result : Exec Error α) : Prop :=
  result = .ok value ∧ after = before ++ whole ∨
    ∃ taken, result.Fails ∧ after = before ++ taken ∧ Short taken whole

/-- A chunk that failed is the end; a chunk that went through is followed by the others. -/
theorem Streamed.append {α β : Type} {before chunk middle rest after : Bytes} {a : α} {b : β}
    {first : Exec Error α} {result : Exec Error β}
    (h : Streamed before chunk middle a first)
    (hfail : first.Fails → result.Fails ∧ after = middle)
    (hnext : first = .ok a → Streamed middle rest after b result) :
    Streamed before (chunk ++ rest) after b result := by
  rcases h with ⟨hok, hmiddle⟩ | ⟨taken, hfails, hmiddle, hshort⟩
  · rcases hnext hok with ⟨hresult, hafter⟩ | ⟨taken, hfails, hafter, hshort⟩
    · refine Or.inl ⟨hresult, ?_⟩
      rw [hafter, hmiddle, List.append_assoc]
    · refine Or.inr ⟨chunk ++ taken, hfails, ?_, hshort.append_left chunk⟩
      rw [hafter, hmiddle, List.append_assoc]
  · obtain ⟨hresult, hafter⟩ := hfail hfails
    exact Or.inr ⟨taken, hresult, hafter.trans hmiddle, hshort.append_right rest⟩

namespace WasixCheckpointCodec

variable {W : Type} {w : Write W} {received : W → Bytes}

theorem write_authenticated_chunk_streamed (hw : w.Lawful received) (writer : W)
    (mac : HmacSha256) (bytes : Bytes) (phase : String) :
    Streamed (received writer) bytes
      (received (write_authenticated_chunk w writer mac bytes phase).1) (mac.update bytes)
      (write_authenticated_chunk w writer mac bytes phase).2 := by
  have hwritten := hw writer bytes
  unfold write_authenticated_chunk
  rcases hrun : w.write_all writer bytes with ⟨after, result⟩
  rw [hrun] at hwritten
  rcases hwritten with ⟨hok, hafter⟩ | ⟨taken, ⟨message, herror⟩, hafter, hshort⟩
  · dsimp only at hok
    subst hok
    exact Or.inl ⟨rfl, hafter⟩
  · dsimp only at herror
    subst herror
    exact Or.inr ⟨taken, ⟨_, rfl⟩, hafter, hshort⟩

/-- The four writes of a prepared checkpoint: the header, the metadata, the journal and the tag of
the three. -/
theorem write_prepared_checkpoint_streamed (E : Env) (self : WasixCheckpointCodec)
    (hw : w.Lawful received) (m j : Bytes) (n : ℕ) (writer : W) :
    Streamed (received writer) (sealedForm E self m j)
      (received (self.write_prepared_checkpoint E w ⟨header m.length j.length, m, j, n⟩ writer).1)
      () (self.write_prepared_checkpoint E w ⟨header m.length j.length, m, j, n⟩ writer).2 := by
  unfold write_prepared_checkpoint sealedForm
  dsimp only
  have hheader := write_authenticated_chunk_streamed hw writer self.authentication_state
    (header m.length j.length) "header"
  rcases hrun : write_authenticated_chunk w writer self.authentication_state
    (header m.length j.length) "header" with ⟨writer1, first⟩
  rw [hrun] at hheader
  -- A write that fails ends the function with the writer as it was left there.
  refine hheader.append ?_ ?_
  · rintro ⟨e, rfl⟩
    exact ⟨⟨e, rfl⟩, rfl⟩
  · intro hfirst
    dsimp only at hfirst
    subst hfirst
    dsimp only
    have hmetadata := write_authenticated_chunk_streamed hw writer1
      (self.authentication_state.update (header m.length j.length)) m "metadata"
    rcases hrun : write_authenticated_chunk w writer1
      (self.authentication_state.update (header m.length j.length)) m "metadata" with
      ⟨writer2, second⟩
    rw [hrun] at hmetadata
    refine hmetadata.append ?_ ?_
    · rintro ⟨e, rfl⟩
      exact ⟨⟨e, rfl⟩, rfl⟩
    · intro hsecond
      dsimp only at hsecond
      subst hsecond
      dsimp only
      have hjournal := write_authenticated_chunk_streamed hw writer2
        ((self.authentication_state.update (header m.length j.length)).update m) j "journal"
      rcases hrun : write_authenticated_chunk w writer2
        ((self.authentication_state.update (header m.length j.length)).update m) j "journal" with
        ⟨writer3, third⟩
      rw [hrun] at hjournal
      refine hjournal.append ?_ ?_
      · rintro ⟨e, rfl⟩
        exact ⟨⟨e, rfl⟩, rfl⟩
      · intro hthird
        dsimp only at hthird
        subst hthird
        -- The state went through the same three chunks as the writer.
        have htag : HmacSha256.finalize E.crypto
            (((self.authentication_state.update (header m.length j.length)).update m).update j)
            = tag E self m j := by
          simp only [authentication_state, HmacSha256.update, HmacSha256.finalize, tag,
            authenticated, List.nil_append, List.append_assoc]
        dsimp only
        rw [htag]
        have hlast := hw writer3 (tag E self m j)
        rcases hrun : w.write_all writer3 (tag E self m j) with ⟨writer4, fourth⟩
        rw [hrun] at hlast
        rcases hlast with ⟨hok, hafter⟩ | ⟨taken, ⟨message, herror⟩, hafter, hshort⟩
        · dsimp only at hok
          subst hok
          exact Or.inl ⟨rfl, hafter⟩
        · dsimp only at herror
          subst herror
          exact Or.inr ⟨taken, ⟨_, rfl⟩, hafter, hshort⟩

end WasixCheckpointCodec

/-! ## Parts of an artifact

A part that stops short is no checkpoint, and for that no property of the MAC is needed. The header
says how long the artifact is. Cut inside the first 54 bytes, the artifact is shorter than any can
be; cut after them, the header is whole, and says a length that the part does not have. The readers
come to that comparison before they look at the tag, whatever the key, the limit, the binding and
the target of the reader are. -/

theorem returns_validate (b : WasixCheckpointBinding) : b.validate.Returns := by
  unfold WasixCheckpointBinding.validate validate_prefixed_sha256 validate_sha256 validate_token
  refine returns_bind (returns_bind (returns_ofOption _ _) fun _ _ =>
    returns_reject _ _) fun _ _ => returns_bind (returns_reject _ _) fun _ _ =>
    returns_bind (returns_reject _ _) fun _ _ =>
    returns_bind (returns_reject _ _) fun _ _ => returns_reject _ _

namespace WasixCheckpointCodec

variable {metadata_len journal_len : ℕ} {a taken : Bytes}

/-- The two lengths can be read off a header. -/
theorem header_inj {metadata_len' journal_len' : ℕ} (hm : metadata_len < 256 ^ 4)
    (hm' : metadata_len' < 256 ^ 4) (hj : journal_len < 256 ^ 8) (hj' : journal_len' < 256 ^ 8)
    (h : header metadata_len journal_len = header metadata_len' journal_len') :
    metadata_len = metadata_len' ∧ journal_len = journal_len' := by
  have h := List.append_cancel_left (List.append_cancel_left h)
  obtain ⟨hmetadata, hjournal⟩ := List.append_inj h (by rw [be_length, be_length])
  have hmval := congrArg beVal hmetadata
  have hjval := congrArg beVal hjournal
  rw [be_val 4 _ hm, be_val 4 _ hm'] at hmval
  rw [be_val 8 _ hj, be_val 8 _ hj'] at hjval
  exact ⟨hmval, hjval⟩

/-- Every slice of a header array is in range. -/
theorem validate_header_returns (E : Env) (self : WasixCheckpointCodec) {hdr : Bytes}
    (h : hdr.length = 22) : (self.validate_header E hdr).Returns := by
  have hslice : ∀ start stop, start ≤ stop → stop ≤ 22 →
      (slice hdr start stop : Exec Error Bytes).Returns := by
    intro start stop hle hstop
    rw [slice_of_le hle (hstop.trans_eq h.symm)]
    exact returns_ok _
  unfold validate_header validate_journal_length
  refine returns_bind (hslice _ _ (Nat.zero_le _) (by decide)) fun _ _ =>
    returns_bind (returns_reject _ _) fun _ _ =>
    returns_bind (hslice _ _ (by decide) (by decide)) fun _ _ =>
    returns_bind (returns_reject _ _) fun _ _ =>
    returns_bind (hslice _ _ (by decide) (by decide)) fun _ _ =>
    returns_bind (returns_reject _ _) fun _ _ =>
    returns_bind (hslice _ _ (by decide) le_rfl) fun _ _ =>
    returns_bind (returns_ofOption _ _) fun _ _ =>
    returns_bind (returns_bind (returns_reject _ _) fun _ _ =>
      returns_reject _ _) fun _ _ =>
    returns_bind (returns_ofOption _ _) fun _ _ =>
    returns_bind (returns_ofOption _ _) fun _ _ =>
    returns_bind (returns_ofOption _ _) fun _ _ => returns_ok _

/-- A string that starts with a header and has the length that this header declares. -/
structure Framed (a : Bytes) (metadata_len journal_len : ℕ) : Prop where
  metadata_lt : metadata_len < 256 ^ 4
  journal_lt : journal_len < 256 ^ 8
  length : a.length = (layout_of metadata_len journal_len).artifact_len
  start : a.take CHECKPOINT_HEADER_BYTES = header metadata_len journal_len

theorem framed_sealedForm {E : Env} {self : WasixCheckpointCodec} {m j : Bytes}
    (hok : HeaderOk E self m.length j.length) :
    Framed (sealedForm E self m j) m.length j.length := by
  refine ⟨hok.metadata_lt, hok.journal_lt, sealedForm_length E self m j, ?_⟩
  exact List.take_left' (header_length _ _)

/-- Whoever accepts the header reads the artifact's length off it. -/
theorem Framed.layout {hdr : Bytes} (h : Framed a metadata_len journal_len)
    (hhdr : hdr = a.take CHECKPOINT_HEADER_BYTES) {E : Env} {self : WasixCheckpointCodec}
    {layout : CheckpointArtifactLayout} (hlayout : self.validate_header E hdr = .ok layout) :
    layout.artifact_len = a.length := by
  rw [hhdr, h.start] at hlayout
  obtain ⟨mlen, jlen, heq, hok, rfl⟩ := (validate_header_ok_iff (header_length _ _)).mp hlayout
  obtain ⟨rfl, rfl⟩ :=
    header_inj h.metadata_lt hok.metadata_lt h.journal_lt hok.journal_lt heq
  exact h.length.symm

variable (E : Env) (self : WasixCheckpointCodec) (b : WasixCheckpointBinding)

/-- `verify_parts` turns a part that stops short away, before it looks at the tag. -/
theorem verify_parts_short (h : Framed a metadata_len journal_len) (hshort : Short taken a) :
    (self.verify_parts E b taken).Fails := by
  unfold verify_parts
  refine fails_bind (returns_reject _ _) fun _ _ =>
    fails_bind (returns_validate b) fun _ _ =>
    fails_bind (returns_ofOption _ _) fun _ _ =>
    fails_bind (returns_reject _ _) fun _ _ =>
    fails_bind (returns_reject _ _) fun _ hlong => ?_
  rw [reject_eq_ok, decide_eq_false_iff_not] at hlong
  have hge : CHECKPOINT_HEADER_BYTES ≤ taken.length := by omega
  rw [slice_of_le (Nat.zero_le _) hge, ok_bind, List.drop_zero, Nat.sub_zero]
  have hhdr : (taken.take CHECKPOINT_HEADER_BYTES).length = 22 := by
    rw [List.length_take, Nat.min_eq_left hge]
    rfl
  -- The header is whole, so it still declares the length of all of `a`.
  have hsame : taken.take CHECKPOINT_HEADER_BYTES = a.take CHECKPOINT_HEADER_BYTES := by
    obtain ⟨rest, -, rfl⟩ := hshort
    rw [List.take_append_of_le_length hge]
  refine fails_bind (validate_header_returns E self hhdr) fun layout hlayout => ?_
  have hlength := h.layout hsame hlayout
  have hdiffer : (taken.length != layout.artifact_len) = true := by
    rw [bne_iff_ne, hlength]
    exact hshort.length_lt.ne
  rw [hdiffer]
  exact ⟨_, rfl⟩

theorem open_short (h : Framed a metadata_len journal_len) (hshort : Short taken a) :
    (self.open_ E b taken).Fails := by
  obtain ⟨e, he⟩ := verify_parts_short E self b h hshort
  rw [open_, he]
  exact ⟨e, rfl⟩

/-- On any schedule a sized read fails or is the window of the source. -/
theorem read_checkpoint_exact_delivers (n : ℕ) (phase : String) (r : Reader) :
    (read_checkpoint_exact n phase r).1.Fails ∨
      (r.source.window r.pos n).length = n ∧ ∃ r' : Reader,
        read_checkpoint_exact n phase r = (.ok (r.source.window r.pos n), r') ∧
          r'.source = r.source ∧ r'.pos = r.pos + n := by
  have hdelivers := read_exact_delivers r n
  unfold read_checkpoint_exact
  rcases hrun : r.read_exact n with ⟨result, r'⟩
  rw [hrun] at hdelivers
  rcases hdelivers with ⟨e, he⟩ | ⟨hfull, hok, hsource, hpos⟩
  · left
    dsimp only at he
    subst he
    cases e with
    | interrupted => exact ⟨_, rfl⟩
    | unexpectedEof => exact ⟨_, rfl⟩
    | other message => exact ⟨_, rfl⟩
  · right
    dsimp only at hok
    subst hok
    exact ⟨hfull, r', rfl, hsource, hpos⟩

theorem read_checkpoint_exact_returns (n : ℕ) (phase : String) (r : Reader) :
    (read_checkpoint_exact n phase r).1.Returns := by
  rcases read_checkpoint_exact_delivers n phase r with ⟨e, he⟩ | ⟨-, r', hok, -⟩
  · rw [he]
    exact returns_err e
  · rw [hok]
    exact returns_ok _

/-- `open_reader` sizes its buffer by the header, and the part cannot fill it. -/
theorem open_reader_short (h : Framed a metadata_len journal_len) (hshort : Short taken a)
    (schedule : List ReadEvent) : (self.open_reader E b ⟨.finite taken, 0, schedule⟩).1.Fails := by
  unfold open_reader
  refine ReadM.fails_lift_bind (returns_reject _ _) fun _ _ =>
    ReadM.fails_lift_bind (returns_validate b) fun _ _ =>
    ReadM.fails_lift_bind (returns_ofOption _ _) fun _ _ =>
    ReadM.fails_bind (read_checkpoint_exact_returns _ _ _) fun hdr r1 hread => ?_
  rcases read_checkpoint_exact_delivers CHECKPOINT_HEADER_BYTES "header"
    ⟨.finite taken, 0, schedule⟩ with ⟨e, he⟩ | ⟨hfull, r1', hok, hsource, hpos⟩
  · rw [hread] at he
    cases he
  · obtain ⟨hvalue, rfl⟩ := Prod.mk.inj (hread.symm.trans hok)
    obtain rfl := Exec.ok.inj hvalue
    dsimp only [Source.window] at hfull ⊢
    rw [List.drop_zero] at hfull ⊢
    have hge : CHECKPOINT_HEADER_BYTES ≤ taken.length := by
      rw [List.length_take] at hfull
      omega
    have hsame : taken.take CHECKPOINT_HEADER_BYTES = a.take CHECKPOINT_HEADER_BYTES := by
      obtain ⟨rest, -, rfl⟩ := hshort
      rw [List.take_append_of_le_length hge]
    refine ReadM.fails_lift_bind (validate_header_returns E self hfull) fun layout hlayout =>
      ReadM.fails_lift_bind (returns_ofExcept _ _) fun _ _ =>
      ReadM.fails_bind (read_checkpoint_exact_returns _ _ _) fun body r2 hbody => ?_
    have hlength := h.layout hsame hlayout
    have hlt := hshort.length_lt
    -- The window of the body would have to reach past the end of the part.
    rcases read_checkpoint_exact_delivers (layout.artifact_len - CHECKPOINT_HEADER_BYTES) "body" r1
      with ⟨e, he⟩ | ⟨hwindow, -⟩
    · rw [hbody] at he
      cases he
    · rw [hsource, hpos, hlength, Source.window, List.length_take, List.length_drop] at hwindow
      dsimp only at hwindow
      omega

/-- No reader takes it for a checkpoint: no codec, with no binding, on no target and by no
schedule. -/
def Rejected (bytes : Bytes) : Prop :=
  ∀ (E : Env) (codec : WasixCheckpointCodec) (b : WasixCheckpointBinding),
    (codec.open_ E b bytes).Fails ∧
      ∀ schedule, (codec.open_reader E b ⟨.finite bytes, 0, schedule⟩).1.Fails

/-! ## Streamed and buffered

That the buffered writer returns the same artifact is one more instance, at a `Vec`. -/

/-- The artifact of a capture. -/
def artifact (E : Env) (codec : WasixCheckpointCodec) (b : WasixCheckpointBinding)
    (journal : CapturedWasixJournal) : Bytes :=
  sealedForm E codec (metadata_text E b journal.worker_build_sha256 journal.bytes) journal.bytes

/-- A streamed seal against a buffered one, from their results and from what the writer had
received `before` and `after`.
When the streamed one succeeds, the writer has received the artifact and the number is its length.
When it fails, so does the buffered one, in the same way, and nothing was received; or the writer
has a part of the artifact that stops short.
The buffered one returns the artifact and nothing else, and does so if it gets the memory. -/
structure Streams (E : Env) (artifact before after : Bytes) (streamed : Exec Error ℕ)
    (buffered : Exec Error Bytes) : Prop where
  whole : ∀ n, streamed = .ok n → after = before ++ artifact ∧ n = artifact.length
  stopped : ∀ error, streamed = .err error →
    buffered = .err error ∧ after = before ∨
      ∃ taken, after = before ++ taken ∧ Short taken artifact ∧ Rejected taken
  same : ∀ bytes, buffered = .ok bytes → bytes = artifact
  returned : ∀ n, streamed = .ok n → E.try_reserve_exact n = .ok () → buffered = .ok artifact

variable {E : Env} {self : WasixCheckpointCodec} {b : WasixCheckpointBinding}
  {journal : CapturedWasixJournal}

/-- Both writers work on what `prepare_seal` laid out. -/
theorem prepare_seal_eq {prepared : PreparedCheckpoint}
    (h : self.prepare_seal E b journal = .ok prepared) :
    ∃ m j, prepared = ⟨header m.length j.length, m, j, (artifact E self b journal).length⟩ ∧
      artifact E self b journal = sealedForm E self m j ∧ HeaderOk E self m.length j.length := by
  obtain ⟨hmetadata, hjournal, hheader, hlength, hok⟩ := prepare_seal_layout h
  refine ⟨prepared.metadata, prepared.journal, ?_, ?_, hok⟩
  · rw [artifact, ← hmetadata, ← hjournal, sealedForm_length, ← hlength, ← hheader]
  · rw [artifact, ← hmetadata, ← hjournal]

/-- The buffered writer has only its memory left to ask for. -/
theorem seal_bound_capture_of_prepared {prepared : PreparedCheckpoint}
    (h : self.prepare_seal E b journal = .ok prepared)
    (halloc : E.try_reserve_exact prepared.artifact_len = .ok ()) :
    self.seal_bound_capture E b journal = .ok (artifact E self b journal) := by
  obtain ⟨m, j, rfl, hartifact, -⟩ := prepare_seal_eq h
  rw [seal_bound_capture, h, ok_bind, halloc, ofExcept_ok, ok_bind,
    write_prepared_checkpoint_vec, hartifact]
  rfl

theorem short_rejected {m j : Bytes} (hok : HeaderOk E self m.length j.length)
    (hshort : Short taken (sealedForm E self m j)) : Rejected taken := by
  intro E' codec b'
  exact ⟨open_short E' codec b' (framed_sealedForm hok) hshort,
    fun schedule => open_reader_short E' codec b' (framed_sealedForm hok) hshort schedule⟩

/-- Where neither returns there is nothing to compare. -/
theorem Streams.of_silent {whole before after : Bytes} {streamed : Exec Error ℕ}
    {buffered : Exec Error Bytes} (hok : ∀ n, streamed ≠ .ok n) (herr : ∀ e, streamed ≠ .err e)
    (hbuffered : ∀ bytes, buffered ≠ .ok bytes) :
    Streams E whole before after streamed buffered :=
  ⟨fun n hn => absurd hn (hok n), fun e he => absurd he (herr e),
    fun bytes hbytes => absurd hbytes (hbuffered bytes), fun n hn => absurd hn (hok n)⟩

/-- A check that both make before anything is written fails both alike. -/
theorem Streams.before {α : Type} {x : Exec Error α} {writer : Writer}
    {next : α → Writer × Exec Error ℕ} {buffered : α → Exec Error Bytes} {whole : Bytes}
    (h : ∀ value, x = .ok value →
      Streams E whole writer.received (next value).1.received (next value).2 (buffered value)) :
    Streams E whole writer.received (Checkpoint.before x writer next).1.received
      (Checkpoint.before x writer next).2 (x >>= buffered) := by
  cases x with
  | ok value => exact h value rfl
  | err error =>
    -- Both functions fail with this error before a byte is written.
    refine ⟨?_, ?_, ?_, ?_⟩
    · intro n hn
      cases hn
    · intro error' herror
      obtain rfl := Exec.err.inj herror
      exact Or.inl ⟨rfl, rfl⟩
    · intro bytes hbytes
      cases hbytes
    · intro n hn
      cases hn
  | panic =>
    apply Streams.of_silent
    · intro n hn
      cases hn
    · intro error herror
      cases herror
    · intro bytes hbytes
      cases hbytes
  | div =>
    apply Streams.of_silent
    · intro n hn
      cases hn
    · intro error herror
      cases herror
    · intro bytes hbytes
      cases hbytes

theorem seal_bound_capture_into_streams (E : Env) (self : WasixCheckpointCodec)
    (b : WasixCheckpointBinding) (journal : CapturedWasixJournal) (writer : Writer) :
    Streams E (artifact E self b journal) writer.received
      (self.seal_bound_capture_into E Write.scheduled b journal writer).1.received
      (self.seal_bound_capture_into E Write.scheduled b journal writer).2
      (self.seal_bound_capture E b journal) := by
  refine Streams.before fun prepared hprepare => ?_
  obtain ⟨m, j, rfl, hartifact, hok⟩ := prepare_seal_eq hprepare
  have hstreamed := write_prepared_checkpoint_streamed E self Write.scheduled_lawful m j
    (artifact E self b journal).length writer
  rw [← hartifact] at hstreamed
  rcases hrun : self.write_prepared_checkpoint E Write.scheduled
    ⟨header m.length j.length, m, j, (artifact E self b journal).length⟩ writer
    with ⟨after, written⟩
  rw [hrun] at hstreamed
  dsimp only at hstreamed ⊢
  rw [write_prepared_checkpoint_vec, ← hartifact]
  -- The buffered one: what is left of it is its request for memory.
  have hsame : ∀ bytes, (ofExcept (fun error => Error.Checkpoint
      ("checkpoint artifact allocation failed during seal: " ++ error))
      (E.try_reserve_exact (artifact E self b journal).length) >>= fun _ =>
        (.ok () >>= fun _ => .ok (artifact E self b journal) : Exec Error Bytes)) = .ok bytes →
      bytes = artifact E self b journal := by
    intro bytes hbytes
    obtain ⟨_, -, hrest⟩ := bind_eq_ok.mp hbytes
    exact (Exec.ok.inj hrest).symm
  rcases hstreamed with ⟨hwritten, hafter⟩ | ⟨taken, ⟨error, herror⟩, hafter, hshort⟩
  · subst hwritten
    refine ⟨?_, ?_, hsame, ?_⟩
    · intro n hn
      exact ⟨hafter, (Exec.ok.inj hn).symm⟩
    · intro error herror
      cases herror
    · intro n hn halloc
      obtain rfl := Exec.ok.inj hn
      rw [halloc]
      rfl
  · subst herror
    refine ⟨?_, ?_, hsame, ?_⟩
    · intro n hn
      cases hn
    · intro _ _
      exact Or.inr ⟨taken, hafter, hshort, short_rejected hok (hartifact ▸ hshort)⟩
    · intro n hn
      cases hn

theorem before_returns {W α β : Type} {x : Exec Error α} {writer : W}
    {next : α → W × Exec Error β} (hx : x.Returns)
    (h : ∀ value, x = .ok value → (next value).2.Returns) :
    (Checkpoint.before x writer next).2.Returns := by
  cases x with
  | ok value => exact h value rfl
  | err error => exact returns_err error
  | panic => exact absurd rfl hx.1
  | div => exact absurd rfl hx.2

theorem prepare_seal_returns (b : WasixCheckpointBinding)
    (hfit : journal.bytes.length ≤ E.target.usize_max) :
    (self.prepare_seal E b journal).Returns := by
  unfold prepare_seal validate_journal_length
  refine returns_bind (returns_reject _ _) fun _ _ =>
    returns_bind (returns_validate b) fun _ _ =>
    returns_bind (returns_reject _ _) fun _ _ =>
    returns_bind (returns_bind (returns_reject _ _) fun _ _ =>
      returns_reject _ _) fun _ _ =>
    returns_bind (scan_journal_returns hfit) fun _ _ =>
    returns_bind (returns_ofExcept _ _) fun _ _ =>
    returns_bind (returns_reject _ _) fun _ _ =>
    returns_bind (returns_ofOption _ _) fun _ _ =>
    returns_bind (returns_ofOption _ _) fun _ _ =>
    returns_bind (returns_ofOption _ _) fun _ _ => returns_ok _

theorem seal_bound_capture_into_returns (b : WasixCheckpointBinding) (writer : Writer)
    (hfit : journal.bytes.length ≤ E.target.usize_max) :
    (self.seal_bound_capture_into E Write.scheduled b journal writer).2.Returns := by
  refine before_returns (prepare_seal_returns b hfit) fun prepared hprepare => ?_
  obtain ⟨m, j, rfl, -, -⟩ := prepare_seal_eq hprepare
  dsimp only
  rcases write_prepared_checkpoint_streamed E self Write.scheduled_lawful m j
    (artifact E self b journal).length writer with ⟨hok, -⟩ | ⟨-, ⟨error, herror⟩, -⟩
  · rw [hok]
    exact returns_ok _
  · rw [herror]
    exact returns_err error

/-- A writer that takes everything takes a prepared checkpoint. -/
theorem write_prepared_checkpoint_takes (prepared : PreparedCheckpoint) {writer : Writer}
    (h : writer.Takes) :
    (self.write_prepared_checkpoint E Write.scheduled prepared writer).2 = .ok () := by
  have hchunk : ∀ {writer : Writer} (mac : HmacSha256) (bytes : Bytes) (phase : String),
      writer.Takes → ∃ after, after.Takes ∧
        write_authenticated_chunk Write.scheduled writer mac bytes phase
          = (after, .ok (mac.update bytes)) := by
    intro writer mac bytes phase h
    obtain ⟨hok, htakes⟩ := h.write_all bytes
    refine ⟨_, htakes, ?_⟩
    rw [write_authenticated_chunk, show Write.scheduled.write_all writer bytes
      = ((writer.write_all bytes).1, .ok ()) from Prod.ext rfl hok]
  obtain ⟨writer₁, h₁, hheader⟩ := hchunk self.authentication_state prepared.header "header" h
  obtain ⟨writer₂, h₂, hmetadata⟩ := hchunk _ prepared.metadata "metadata" h₁
  obtain ⟨writer₃, h₃, hjournal⟩ := hchunk _ prepared.journal "journal" h₂
  rw [write_prepared_checkpoint, hheader]
  dsimp only
  rw [hmetadata]
  dsimp only
  rw [hjournal]
  dsimp only
  rw [show Write.scheduled.write_all writer₃ _ = (_, .ok ()) from
    Prod.ext rfl (h₃.write_all _).1]

/-- Where the buffered writer succeeds, so does the streaming one on a writer that takes
everything. -/
theorem seal_bound_capture_into_of_buffered {bytes : Bytes} {writer : Writer} (h : writer.Takes)
    (hseal : self.seal_bound_capture E b journal = .ok bytes) :
    (self.seal_bound_capture_into E Write.scheduled b journal writer).2 = .ok bytes.length := by
  obtain rfl := (seal_bound_capture_into_streams E self b journal writer).same bytes hseal
  obtain ⟨prepared, hprepare, -⟩ := bind_eq_ok.mp hseal
  obtain ⟨m, j, rfl, -⟩ := prepare_seal_eq hprepare
  unfold seal_bound_capture_into
  rw [hprepare]
  dsimp only [Checkpoint.before]
  rw [write_prepared_checkpoint_takes _ h]
  rfl

/-- The same of the two functions that callers have. -/
theorem seal_into_of_buffered {bytes : Bytes} {writer : Writer} (h : writer.Takes) :
    (self.seal_ E b journal = .ok bytes →
      (self.seal_into E Write.scheduled b journal writer).2 = .ok bytes.length) ∧
    (self.seal_capture E journal = .ok bytes →
      (self.seal_capture_into E Write.scheduled journal writer).2 = .ok bytes.length) := by
  refine ⟨fun hseal => ?_, seal_bound_capture_into_of_buffered h⟩
  obtain ⟨_, hvalid, hseal⟩ := bind_eq_ok.mp hseal
  obtain ⟨_, hbinding, hseal⟩ := bind_eq_ok.mp hseal
  unfold seal_into
  rw [hvalid]
  dsimp only [Checkpoint.before]
  rw [hbinding]
  exact seal_bound_capture_into_of_buffered h hseal

/-- Streaming a capture and buffering it give the same bytes, and a stream that was interrupted is
no checkpoint. From whatever the writer does with the bytes it is given: `seal_into` and
`seal_capture_into`, when they succeed, have handed it the artifact that `seal` and `seal_capture`
return, and counted it; when they fail, a part of it at most. And every part that stops short of a
sealed artifact is refused by every reader. For a journal in memory both return. -/
theorem streaming_seal_exact (E : Env) (codec : WasixCheckpointCodec)
    (binding : WasixCheckpointBinding) (journal : CapturedWasixJournal) (writer : Writer) :
    Streams E (artifact E codec binding journal) writer.received
      (codec.seal_into E Write.scheduled binding journal writer).1.received
      (codec.seal_into E Write.scheduled binding journal writer).2
      (codec.seal_ E binding journal) ∧
    Streams E (artifact E codec journal.binding journal) writer.received
      (codec.seal_capture_into E Write.scheduled journal writer).1.received
      (codec.seal_capture_into E Write.scheduled journal writer).2
      (codec.seal_capture E journal) ∧
    (∀ bytes taken, codec.seal_ E binding journal = .ok bytes ∨
        codec.seal_capture E journal = .ok bytes →
      taken <+: bytes → taken ≠ bytes → Rejected taken) ∧
    (journal.bytes.length ≤ E.target.usize_max →
      (codec.seal_into E Write.scheduled binding journal writer).2.Returns ∧
        (codec.seal_capture_into E Write.scheduled journal writer).2.Returns) := by
  have hrejected : ∀ b bytes taken, codec.seal_bound_capture E b journal = .ok bytes →
      taken <+: bytes → taken ≠ bytes → Rejected taken := by
    intro b bytes taken hseal hstart hne
    -- What was sealed is the sealed form of two texts, and a beginning of that is too short.
    obtain ⟨prepared, hprepare, -⟩ := bind_eq_ok.mp hseal
    obtain ⟨m, j, -, hartifact, hok⟩ := prepare_seal_eq hprepare
    have hbytes := (seal_bound_capture_into_streams E codec b journal writer).same bytes hseal
    rw [hbytes, hartifact] at hstart hne
    exact short_rejected hok (short_iff.mpr ⟨hstart, hne⟩)
  refine ⟨?_, seal_bound_capture_into_streams E codec journal.binding journal writer, ?_, ?_⟩
  · exact Streams.before fun _ _ => Streams.before fun _ _ =>
      seal_bound_capture_into_streams E codec binding journal writer
  · rintro bytes taken (hseal | hseal) hstart hne
    · obtain ⟨_, -, hseal⟩ := bind_eq_ok.mp hseal
      obtain ⟨_, -, hseal⟩ := bind_eq_ok.mp hseal
      exact hrejected binding bytes taken hseal hstart hne
    · exact hrejected journal.binding bytes taken hseal hstart hne
  · intro hfit
    exact ⟨before_returns (returns_validate binding) fun _ _ =>
      before_returns (returns_reject _ _) fun _ _ =>
        seal_bound_capture_into_returns binding writer hfit,
      seal_bound_capture_into_returns journal.binding writer hfit⟩

end WasixCheckpointCodec

end WasmRuntime.Checkpoint
