/-
`finalize_capture_journal`: how the worker cuts the journal of a capture, and what the parent's
scanner makes of the rest.

Two validators look at the same journal, and one counts where the other goes by position. The counts
do not imply the positions. `captured_journal_scans_iff` says when what the worker has attested
passes the scan, and the runs after it give files that the worker accepts and the parent refuses.
What both accept, `checked_restore_journal` of a worker that restores accepts as well.
-/
import WasmRuntime.SealedInput

set_option autoImplicit false

namespace WasmRuntime.Worker

open ByteCodec Codes Prog Journal Monitor Function

/-! ## Journal files

The records are decoded by a library of the engine. `EntryDecoder` is what it makes of a body; that
it yields the records of the file in their order, each with the offset behind it, is what it is
documented to do and part of the history that `capturing` keeps. -/

/-- A record of a journal file: a type that is known and any body. -/
@[ext]
structure RawRecord where
  record_type : ℕ
  body : Bytes
  known : is_known_journal_record_type record_type = true
  short : body.length < 256 ^ 6

/-- `be16(type) ++ be48(len) ++ body`. -/
def RawRecord.encode (r : RawRecord) : Bytes :=
  be 2 r.record_type ++ (be 6 r.body.length ++ r.body)

/-- A well-framed journal file. -/
def framed (rs : List RawRecord) : Bytes := JOURNAL_MAGIC ++ rs.flatMap RawRecord.encode

/-- `SnapshotTrigger`, as far as the source distinguishes. -/
inductive SnapshotTrigger where
  | Explicit
  | Other
  deriving DecidableEq

/-- `JournalEntry`, as far as the source distinguishes. -/
inductive JournalEntry where
  | InitModuleV1 (wasm_hash : Bytes)
  | SetThreadV1
  | SnapshotV1 (trigger : SnapshotTrigger)
  | Other
  deriving DecidableEq

/-- How the engine decodes the bodies of the records, or fails to. -/
structure EntryDecoder where
  init_module : Bytes → Except String Bytes
  set_thread : Bytes → Except String Unit
  snapshot : Bytes → Except String SnapshotTrigger
  other : ℕ → Bytes → Except String Unit

/-- What it makes of a record; the type says which entry it is. -/
def EntryDecoder.decode (D : EntryDecoder) (r : RawRecord) : Except String JournalEntry :=
  if r.record_type = 1 then (D.init_module r.body).map .InitModuleV1
  else if r.record_type = 3 then (D.set_thread r.body).map fun _ => .SetThreadV1
  else if r.record_type = JOURNAL_SNAPSHOT_V1 then (D.snapshot r.body).map .SnapshotV1
  else (D.other r.record_type r.body).map fun _ => .Other

/-- `LogFileJournal::read`, again and again: each record with the offset behind it. -/
def EntryDecoder.read_all (D : EntryDecoder) :
    ℕ → List RawRecord → List (Except String JournalEntry × ℕ)
  | _, [] => []
  | start, r :: rs =>
    (D.decode r, start + r.encode.length) :: D.read_all (start + r.encode.length) rs

/-! ## The worker

`inspect_captured_journal` reads the whole file through `LogFileJournal` and counts: one module
record with the hash of the module, at least one thread record, one explicit snapshot. Then the file
is cut behind that snapshot. -/

/-- The effects: those of a sealed input, a clone of a descriptor, a journal opened on it with all
that reading it will yield, and `set_len`. -/
inductive CaptureOp where
  | input (op : InputOp)
  | try_clone (file : Fd)
  | log_from_file (file : Fd)
  | set_len (file : Fd) (len : ℕ)

/-- What each effect is answered with. -/
@[reducible] def CaptureAnswer : CaptureOp → Type
  | .input op => InputAnswer op
  | .try_clone _ => Except String Unit
  | .log_from_file _ => Except String (List (Except String JournalEntry × ℕ))
  | .set_len _ _ => Except String Unit

/-- A program over these effects. -/
abbrev CaptureM := Fallible CaptureOp CaptureAnswer String

/-- A program over the effects of a sealed input. -/
def on_input {α : Type} (p : InputM String α) : CaptureM α := p.lift .input fun _ r => r

/-- `u32::saturating_add`. -/
def saturating_add_u32 (a b : ℕ) : ℕ := min (a + b) u32_max

/-- The locals of `inspect_captured_journal`. -/
structure Inspection where
  module_records : ℕ
  thread_records : ℕ
  explicit_snapshots : ℕ
  checkpoint_end : Option ℕ
  deriving DecidableEq

/-- The body of its loop. -/
def inspect_record (expected_module_hash : Bytes) (st : Inspection) :
    JournalEntry × ℕ → Except String Inspection
  | (.InitModuleV1 wasm_hash, _) =>
    if wasm_hash != expected_module_hash then
      .error "capture journal module hash does not match the module"
    else .ok { st with module_records := saturating_add_u32 st.module_records 1 }
  | (.SetThreadV1, _) => .ok { st with thread_records := saturating_add_u32 st.thread_records 1 }
  | (.SnapshotV1 .Explicit, record_end) =>
    .ok { st with explicit_snapshots := saturating_add_u32 st.explicit_snapshots 1
                  checkpoint_end := some record_end }
  | _ => .ok st

/-- The loop, over what the reads yield. -/
def inspect_loop (expected_module_hash : Bytes) :
    List (Except String JournalEntry × ℕ) → Inspection → Except String Inspection
  | [], st => .ok st
  | (.error error, _) :: _, _ => .error ("cannot decode completed capture journal: " ++ error)
  | (.ok record, record_end) :: rest, st =>
    match inspect_record expected_module_hash st (record, record_end) with
    | .error error => .error error
    | .ok st => inspect_loop expected_module_hash rest st

/-- What follows the loop. -/
def inspect_result (st : Inspection) : Except String ℕ :=
  if st.module_records != 1 || st.thread_records == 0 || st.explicit_snapshots != 1 then
    .error "capture journal is missing required explicit snapshot state"
  else match st.checkpoint_end with
    | some checkpoint_end => .ok checkpoint_end
    | none => .error "capture journal has no explicit snapshot boundary"

def inspect_captured_journal (journal_file : Fd) (expected_module_hash : Bytes) : CaptureM ℕ := do
  Fallible.orElse ("cannot clone completed capture journal: " ++ ·)
    (perform (CaptureOp.try_clone journal_file))
  let inspection ← Fallible.orElse ("cannot inspect completed capture journal: " ++ ·)
    (perform (CaptureOp.log_from_file journal_file))
  let st ← Fallible.ofExcept (inspect_loop expected_module_hash inspection ⟨0, 0, 0, none⟩)
  Fallible.ofExcept (inspect_result st)

def finalize_capture_journal (W : Env) (journal_file : Fd) (expected_module_hash : Bytes) :
    CaptureM Bytes := do
  let checkpoint_end ← inspect_captured_journal journal_file expected_module_hash
  Fallible.orElse ("cannot truncate capture journal prefix: " ++ ·)
    (perform (CaptureOp.set_len journal_file checkpoint_end))
  Fallible.orElse ("cannot seal capture journal: " ++ ·)
    (perform (CaptureOp.input (.add_seals journal_file REQUIRED_CHECKPOINT_SEALS)))
  let accepted ← on_input (inspect_sealed_worker_input W journal_file
    WASIX_WORKER_MAX_CHECKPOINT_BYTES "capture journal")
  on_input (read_sealed_module_bytes W journal_file accepted.bytes)

/-- What the files hold. A journal opened on a well-framed file yields the records of the file,
a read answers with what is there, `set_len` cuts a file or fills it up with zeros; after a
`set_len` or a write that failed nothing is known of the file. -/
def capturing (D : EntryDecoder) : Monitor (Fd → Option Bytes) CaptureOp CaptureAnswer where
  ok
    | image, .log_from_file file, .ok log =>
      ∀ rs, image file = some (framed rs) → log = D.read_all JOURNAL_MAGIC.length rs
    | image, .input (.pread file len offset), .ok bytes =>
      ∀ content, image file = some content → ReadOf content len offset bytes.val
    | _, _, _ => True
  after
    | image, .set_len file len, .ok () =>
      update image file ((image file).map fun content =>
        content.take len ++ List.replicate (len - content.length) 0)
    | image, .set_len file _, .error _ => update image file none
    | image, .input (.memfd_create _), .ok file => update image file (some [])
    | image, .input (.write_all file bytes), .ok () =>
      update image file ((image file).map (· ++ bytes))
    | image, .input (.write_all file _), .error _ => update image file none
    | image, _, _ => image

/-! ## What the inspection counts

The locals of the loop are counts over the records read so far, and the boundary is the offset
behind the explicit snapshot. -/

/-- Which records an entry is decoded from. -/
def JournalEntry.OfType : JournalEntry → ℕ → Prop
  | .InitModuleV1 _, t => t = 1
  | .SetThreadV1, t => t = 3
  | .SnapshotV1 _, t => t = JOURNAL_SNAPSHOT_V1
  | .Other, t => t ≠ 1 ∧ t ≠ 3

variable {D : EntryDecoder} {r : RawRecord} {done rs : List RawRecord} {st st' : Inspection}
  {expected_module_hash : Bytes} {image : Fd → Option Bytes} {file : Fd}

theorem EntryDecoder.type_of_decode {entry : JournalEntry} (h : D.decode r = .ok entry) :
    entry.OfType r.record_type := by
  unfold EntryDecoder.decode at h
  split_ifs at h with h1 h3 h59
  · cases hbody : D.init_module r.body <;> rw [hbody] at h <;> cases h
    exact h1
  · cases hbody : D.set_thread r.body <;> rw [hbody] at h <;> cases h
    exact h3
  · cases hbody : D.snapshot r.body <;> rw [hbody] at h <;> cases h
    exact h59
  · cases hbody : D.other r.record_type r.body <;> rw [hbody] at h <;> cases h
    exact ⟨h1, h3⟩

/-- An explicit snapshot. -/
def isExplicit : Except String JournalEntry → Bool
  | .ok (.SnapshotV1 .Explicit) => true
  | _ => false

/-- A record that the decoder takes for one. -/
def EntryDecoder.explicit (D : EntryDecoder) (r : RawRecord) : Bool := isExplicit (D.decode r)

theorem EntryDecoder.type_of_explicit (h : D.explicit r = true) :
    r.record_type = JOURNAL_SNAPSHOT_V1 := by
  unfold EntryDecoder.explicit at h
  rcases hdecode : D.decode r with error | (_ | _ | (_ | _) | _) <;> rw [hdecode] at h <;> cases h
  exact D.type_of_decode hdecode

/-- The records of a type. -/
def countRaw (t : ℕ) (rs : List RawRecord) : ℕ := rs.countP fun r => decide (r.record_type = t)

theorem countRaw_snoc (t : ℕ) (rs : List RawRecord) (r : RawRecord) :
    countRaw t (rs ++ [r]) = countRaw t rs + if r.record_type = t then 1 else 0 := by
  rw [countRaw, countRaw, List.countP_append, List.countP_singleton]
  by_cases h : r.record_type = t
  · rw [if_pos (decide_eq_true h), if_pos h]
  · rw [if_neg (by simpa using h), if_neg h]

theorem countRaw_snoc_ne {t : ℕ} (rs : List RawRecord) (h : r.record_type ≠ t) :
    countRaw t (rs ++ [r]) = countRaw t rs := by
  rw [countRaw_snoc, if_neg h, Nat.add_zero]

theorem countRaw_snoc_eq {t : ℕ} (rs : List RawRecord) (h : r.record_type = t) :
    countRaw t (rs ++ [r]) = countRaw t rs + 1 := by
  rw [countRaw_snoc, if_pos h]

theorem countP_explicit_snoc (D : EntryDecoder) (rs : List RawRecord) (r : RawRecord) :
    (rs ++ [r]).countP D.explicit = rs.countP D.explicit + if D.explicit r then 1 else 0 := by
  rw [List.countP_append, List.countP_singleton]

theorem framed_snoc_length (rs : List RawRecord) (r : RawRecord) :
    (framed (rs ++ [r])).length = (framed rs).length + r.encode.length := by
  unfold framed
  rw [List.flatMap_append, List.flatMap_singleton, ← List.append_assoc, List.length_append]

/-- What the locals say of the records that have been read. -/
structure Inspected (D : EntryDecoder) (done : List RawRecord) (st : Inspection) : Prop where
  modules : st.module_records = min (countRaw 1 done) u32_max
  threads : st.thread_records = min (countRaw 3 done) u32_max
  snapshots : st.explicit_snapshots = min (done.countP D.explicit) u32_max
  boundary : ∀ e ∈ st.checkpoint_end, ∃ front snap rest, done = front ++ snap :: rest ∧
    D.explicit snap = true ∧ e = (framed (front ++ [snap])).length

/-- The boundary stays where it is when a record follows. -/
theorem Inspected.keep_boundary (h : Inspected D done st) (r : RawRecord) :
    ∀ e ∈ st.checkpoint_end, ∃ front snap rest, done ++ [r] = front ++ snap :: rest ∧
      D.explicit snap = true ∧ e = (framed (front ++ [snap])).length := by
  intro e he
  obtain ⟨front, snap, rest, rfl, hsnap, hend⟩ := h.boundary e he
  exact ⟨front, snap, rest ++ [r], by simp, hsnap, hend⟩

/-- One turn of the loop: each kind of entry moves one counter, and the explicit snapshot the
boundary too. -/
theorem inspect_record_inspected {entry : JournalEntry} (hst : Inspected D done st)
    (hdecode : D.decode r = .ok entry)
    (h : inspect_record expected_module_hash st (entry, (framed (done ++ [r])).length) = .ok st') :
    Inspected D (done ++ [r]) st' := by
  have htype := D.type_of_decode hdecode
  have hexplicit : D.explicit r = isExplicit (.ok entry) := by
    rw [EntryDecoder.explicit, hdecode]
  obtain ⟨hmodules, hthreads, hsnapshots, -⟩ := id hst
  have hkeep := hst.keep_boundary r
  -- An entry that is no explicit snapshot leaves the count of them and the boundary alone.
  have hquiet : D.explicit r = false → st.explicit_snapshots
      = min ((done ++ [r]).countP D.explicit) u32_max := by
    intro hno
    rw [countP_explicit_snoc, hno]
    exact hsnapshots
  cases entry with
  | InitModuleV1 wasm_hash =>
    have hne : r.record_type ≠ 3 := by rw [show r.record_type = 1 from htype]; decide
    simp only [inspect_record] at h
    -- The module's hash is the expected one, or the record would have been refused.
    split_ifs at h
    cases h
    refine ⟨?_, by rw [countRaw_snoc_ne done hne]; exact hthreads, hquiet hexplicit, hkeep⟩
    rw [countRaw_snoc_eq done htype]
    simp only [saturating_add_u32, hmodules]
    omega
  | SetThreadV1 =>
    have hne : r.record_type ≠ 1 := by rw [show r.record_type = 3 from htype]; decide
    cases h
    refine ⟨by rw [countRaw_snoc_ne done hne]; exact hmodules, ?_, hquiet hexplicit, hkeep⟩
    rw [countRaw_snoc_eq done htype]
    simp only [saturating_add_u32, hthreads]
    omega
  | SnapshotV1 trigger =>
    have hne : r.record_type ≠ 1 ∧ r.record_type ≠ 3 := by
      rw [show r.record_type = JOURNAL_SNAPSHOT_V1 from htype]
      decide
    have hmodules' : st.module_records = min (countRaw 1 (done ++ [r])) u32_max := by
      rw [countRaw_snoc_ne done hne.1]
      exact hmodules
    have hthreads' : st.thread_records = min (countRaw 3 (done ++ [r])) u32_max := by
      rw [countRaw_snoc_ne done hne.2]
      exact hthreads
    cases trigger with
    | Explicit =>
      have hsnap : D.explicit r = true := hexplicit
      cases h
      refine ⟨hmodules', hthreads', ?_, ?_⟩
      · rw [countP_explicit_snoc, if_pos hsnap]
        simp only [saturating_add_u32, hsnapshots]
        omega
      · intro e he
        cases he
        exact ⟨done, r, [], rfl, hsnap, rfl⟩
    | Other =>
      cases h
      exact ⟨hmodules', hthreads', hquiet hexplicit, hkeep⟩
  | Other =>
    cases h
    exact ⟨by rw [countRaw_snoc_ne done htype.1]; exact hmodules,
      by rw [countRaw_snoc_ne done htype.2]; exact hthreads, hquiet hexplicit, hkeep⟩

/-- The loop, from any records on. -/
theorem inspect_loop_inspected (hst : Inspected D done st)
    (h : inspect_loop expected_module_hash (D.read_all (framed done).length rs) st = .ok st') :
    Inspected D (done ++ rs) st' := by
  induction rs generalizing done st with
  | nil =>
    cases h
    rw [List.append_nil]
    exact hst
  | cons r rs ih =>
    rw [EntryDecoder.read_all, ← framed_snoc_length] at h
    cases hdecode : D.decode r with
    | error error =>
      rw [hdecode] at h
      cases h
    | ok entry =>
      rw [hdecode, inspect_loop] at h
      cases hrecord : inspect_record expected_module_hash st
          (entry, (framed (done ++ [r])).length) with
      | error error =>
        rw [hrecord] at h
        cases h
      | ok mid =>
        rw [hrecord] at h
        have hnext := ih (inspect_record_inspected hst hdecode hrecord) h
        rw [List.append_assoc, List.singleton_append] at hnext
        exact hnext

/-- What the worker knows of a journal that it attests: one module record, some thread record and
one explicit snapshot, wherever they are, and the boundary is behind the snapshot. -/
theorem inspect_accepts {checkpoint_end : ℕ}
    (hloop : inspect_loop expected_module_hash (D.read_all JOURNAL_MAGIC.length rs)
      ⟨0, 0, 0, none⟩ = .ok st)
    (hresult : inspect_result st = .ok checkpoint_end) :
    countRaw 1 rs = 1 ∧ countRaw 3 rs ≠ 0 ∧ ∃ front snap rest, rs = front ++ snap :: rest ∧
      D.explicit snap = true ∧ (∀ r ∈ front, D.explicit r = false) ∧
      (∀ r ∈ rest, D.explicit r = false) ∧
      checkpoint_end = (framed (front ++ [snap])).length := by
  have hstart : Inspected D [] ⟨0, 0, 0, none⟩ := ⟨rfl, rfl, rfl, nofun⟩
  have hend : Inspected D ([] ++ rs) st := inspect_loop_inspected hstart hloop
  rw [List.nil_append] at hend
  unfold inspect_result at hresult
  split_ifs at hresult with hbad
  simp only [Bool.or_eq_true, bne_iff_ne, beq_iff_eq, not_or, not_not] at hbad
  obtain ⟨⟨hmodules, hthreads⟩, hsnapshots⟩ := hbad
  -- The counters saturate far above one, so a counter of one is a count of one.
  rw [hend.modules] at hmodules
  rw [hend.threads] at hthreads
  rw [hend.snapshots] at hsnapshots
  unfold u32_max at hmodules hthreads hsnapshots
  cases hboundary : st.checkpoint_end with
  | none =>
    rw [hboundary] at hresult
    cases hresult
  | some e =>
    rw [hboundary] at hresult
    cases hresult
    obtain ⟨front, snap, rest, rfl, hsnap, hlen⟩ := hend.boundary _ hboundary
    -- The one explicit snapshot is the one the boundary is behind.
    rw [List.countP_append, List.countP_cons, if_pos hsnap] at hsnapshots
    have hfront : front.countP D.explicit = 0 := by omega
    have hrest : rest.countP D.explicit = 0 := by omega
    rw [List.countP_eq_zero] at hfront hrest
    exact ⟨by omega, by omega, front, snap, rest, rfl, hsnap,
      fun r hr => by simpa using hfront r hr, fun r hr => by simpa using hrest r hr, hlen⟩

/-! ## What the scan asks

`scan_journal` sees what is left, does not decode it, and goes by position: the module record comes
first, the one snapshot last, a thread record in between, and no record is empty whose type is
not. -/

/-- A record that is empty only where its type allows it. -/
def RawRecord.Sized (r : RawRecord) : Prop :=
  r.body.length = 0 → is_zero_sized_journal_record_type r.record_type = true

/-- A record of the grammar, as a record of a file. -/
def raw (r : JournalRecord) : RawRecord := ⟨r.record_type, r.body, r.known, r.short⟩

theorem selfDelimiting_raw : SelfDelimiting Set.univ RawRecord.encode := by
  rintro ⟨t, body, hknown, hshort⟩ - ⟨t', body', hknown', hshort'⟩ - s u h
  have hsmall : ∀ t, is_known_journal_record_type t = true → t < 256 ^ 2 := by
    intro t ht
    simp only [is_known_journal_record_type, Bool.or_eq_true, Bool.and_eq_true,
      decide_eq_true_eq] at ht
    omega
  simp only [RawRecord.encode, List.append_assoc (be 2 _)] at h
  obtain ⟨htype, hrest⟩ := selfDelimiting_be 2 _ (hsmall t hknown) _ (hsmall t' hknown') _ _ h
  obtain ⟨hbody, hsu⟩ := selfDelimiting_bytes 6 _ hshort _ hshort' _ _ hrest
  exact ⟨RawRecord.ext htype hbody, hsu⟩

/-- A file has one list of records. -/
theorem framed_injective : Injective framed := by
  intro rs rs' h
  refine selfDelimiting_raw.flatMap_inj (fun r _ hnil => ?_) (fun _ _ => trivial)
    (fun _ _ => trivial) (List.append_cancel_left h)
  have hlen := congrArg List.length hnil
  rw [RawRecord.encode, List.length_append, be_length, List.length_nil] at hlen
  omega

theorem encode_all_eq (rs : List JournalRecord) :
    encode_all rs = (rs.map raw).flatMap RawRecord.encode := by
  rw [encode_all, List.flatMap_map]
  rfl

/-- Records of a file that are all sized are records of the grammar. -/
theorem exists_map_raw (hsized : ∀ r ∈ rs, r.Sized) :
    ∃ js : List JournalRecord, js.map raw = rs := by
  induction rs with
  | nil => exact ⟨[], rfl⟩
  | cons r rs ih =>
    obtain ⟨js, rfl⟩ := ih fun x hx => hsized x (List.mem_cons_of_mem r hx)
    exact ⟨⟨r.record_type, r.body, r.known, r.short, hsized r List.mem_cons_self⟩ :: js, rfl⟩

/-- The scan of a well-framed file. -/
theorem scan_framed_iff {T : Target} (hfit : (framed rs).length ≤ T.usize_max) :
    scan_journal T (framed rs) = .ok () ↔
      ∃ js : List JournalRecord, js.map raw = rs ∧ Lifecycle js := by
  rw [scan_journal_ok_iff hfit]
  constructor
  · rintro ⟨js, hjs, hlife⟩
    rw [framed, encode_all_eq] at hjs
    refine ⟨js, ?_, hlife⟩
    exact framed_injective hjs.symm
  · rintro ⟨js, rfl, hlife⟩
    exact ⟨js, by rw [framed, encode_all_eq], hlife⟩

/-- What has to hold of the records up to the explicit snapshot: the first is the module record,
there is a thread record, there is no other snapshot, and none is empty whose type is not. -/
structure Attestable (front : List RawRecord) (snap : RawRecord) : Prop where
  initialised : ∃ r tail, front = r :: tail ∧ r.record_type = 1
  thread : ∃ r ∈ front, r.record_type = 3
  snapshot : ∀ r ∈ front, r.record_type ≠ JOURNAL_SNAPSHOT_V1
  sized : ∀ r ∈ front ++ [snap], r.Sized

/-- The lifecycle of a journal that ends in its only snapshot and has one module record. -/
theorem scan_prefix_iff {T : Target} {front : List RawRecord} {snap : RawRecord}
    (hfit : (framed (front ++ [snap])).length ≤ T.usize_max)
    (hsnap : snap.record_type = JOURNAL_SNAPSHOT_V1) (hmodules : countRaw 1 front ≤ 1) :
    scan_journal T (framed (front ++ [snap])) = .ok () ↔ Attestable front snap := by
  rw [scan_framed_iff hfit]
  constructor
  · rintro ⟨js, hjs, ⟨j, jrest, hcons, hj, -⟩, ⟨jfront, jlast, hsnoc, hjlast, hjfront⟩, t, ht, ht3⟩
    have hfront : jfront.map raw = front := by
      rw [hsnoc, List.map_append, List.map_singleton] at hjs
      exact (List.append_inj' hjs rfl).1
    refine ⟨?_, ?_, ?_, ?_⟩
    · cases front with
      | nil =>
        -- The module record would be the snapshot.
        rw [hcons, List.map_cons, List.nil_append, List.cons.injEq] at hjs
        have htype : j.record_type = snap.record_type := congrArg RawRecord.record_type hjs.1
        rw [hj, hsnap] at htype
        exact absurd htype (by decide)
      | cons r tail =>
        rw [hcons, List.map_cons, List.cons_append, List.cons.injEq] at hjs
        exact ⟨r, tail, rfl, by rw [← hjs.1]; exact hj⟩
    · rw [hsnoc, List.mem_append, List.mem_singleton] at ht
      rcases ht with ht | rfl
      · exact ⟨raw t, by rw [← hfront]; exact List.mem_map_of_mem ht, ht3⟩
      · rw [hjlast] at ht3
        exact absurd ht3 (by decide)
    · intro r hr
      rw [← hfront, List.mem_map] at hr
      obtain ⟨x, hx, rfl⟩ := hr
      exact hjfront x hx
    · intro r hr
      rw [← hjs, List.mem_map] at hr
      obtain ⟨x, -, rfl⟩ := hr
      exact x.sized
  · rintro ⟨⟨r, tail, rfl, hr⟩, ⟨t, ht, ht3⟩, hfront, hsized⟩
    obtain ⟨js, hjs⟩ := exists_map_raw hsized
    have hnot : ∀ x ∈ tail ++ [snap], x.record_type ≠ 1 := by
      intro x hx hx1
      rw [List.mem_append, List.mem_singleton] at hx
      rcases hx with hx | rfl
      · have hpos : 0 < countRaw 1 tail := List.countP_pos_iff.mpr ⟨x, hx, decide_eq_true hx1⟩
        unfold countRaw at hmodules hpos
        rw [List.countP_cons, if_pos (decide_eq_true hr)] at hmodules
        omega
      · rw [hsnap] at hx1
        exact absurd hx1 (by decide)
    refine ⟨js, hjs, ?_, ?_, ?_⟩
    · rw [List.cons_append] at hjs
      obtain ⟨j, jrest, rfl, hj, hjrest⟩ := List.map_eq_cons_iff.mp hjs
      refine ⟨j, jrest, rfl, (congrArg RawRecord.record_type hj).trans hr, fun x hx => ?_⟩
      exact hnot (raw x) (by rw [← hjrest]; exact List.mem_map_of_mem hx)
    · obtain ⟨jfront, jtail, rfl, hjfront, hjtail⟩ := List.map_eq_append_iff.mp hjs
      obtain ⟨jlast, rfl, hjlast⟩ := List.map_eq_singleton_iff.mp hjtail
      refine ⟨jfront, jlast, rfl, (congrArg RawRecord.record_type hjlast).trans hsnap,
        fun x hx => ?_⟩
      exact hfront (raw x) (by rw [← hjfront]; exact List.mem_map_of_mem hx)
    · have hmem : t ∈ js.map raw := by
        rw [hjs]
        exact List.mem_append_left [snap] ht
      obtain ⟨x, hx, rfl⟩ := List.mem_map.mp hmem
      exact ⟨x, hx, ht3⟩

/-! ## Runs

The programs against any answers of the kernel and the library that `capturing` allows. -/

/-- One call. -/
theorem call_upholds (op : CaptureOp) {Q : CaptureAnswer op → (Fd → Option Bytes) → Prop}
    (h : ∀ r, (capturing D).ok image op r → Q r ((capturing D).after image op r)) :
    (capturing D).Upholds (fun _ _ => True) Q (perform op) image := ⟨trivial, h⟩

/-- A reader of settled files, among the effects of the capture. -/
theorem on_input_upholds {α : Type} {Q : α → Prop} {p : InputM String α}
    (h : (reading image).Upholds readsOnly (Post fun a _ => Q a) p ()) :
    (capturing D).Upholds (fun _ _ => True) (Post fun a image' => Q a ∧ image' = image)
      (on_input p) image := by
  refine Upholds.lift (fun _ => image) ?_ ?_ (fun _ _ _ => trivial) ?_ h
  · intro _ op r hop hok
    cases op with
    | pread file len offset =>
      cases r with
      | error error => exact trivial
      | ok bytes => exact hok
    | _ => exact trivial
  · intro _ op r hop
    cases op with
    | get_seals file | fstat file | pread file len offset | try_reserve len => rfl
    | _ => exact absurd hop id
  · intro a _ ha
    cases a with
    | error error => exact trivial
    | ok a => exact ⟨ha, rfl⟩

/-- What it returns, the loop returns for the records of the file. -/
theorem inspect_captured_journal_upholds (hfile : image file = some (framed rs))
    (expected_module_hash : Bytes) :
    (capturing D).Upholds (fun _ _ => True)
      (Post fun checkpoint_end image' => image = image' ∧ ∃ st,
        inspect_loop expected_module_hash (D.read_all JOURNAL_MAGIC.length rs) ⟨0, 0, 0, none⟩
          = .ok st ∧ inspect_result st = .ok checkpoint_end)
      (inspect_captured_journal file expected_module_hash) image := by
  unfold inspect_captured_journal
  refine .bindF (.orElse (Q := fun _ image' => image = image')
    (call_upholds (.try_clone file) fun r _ => ?_)) ?_
  · cases r with
    | error error => exact trivial
    | ok _ => rfl
  rintro _ _ rfl
  refine .bindF (.orElse (Q := fun log image' => image = image' ∧
    log = D.read_all JOURNAL_MAGIC.length rs)
    (call_upholds (.log_from_file file) fun r hr => ?_)) ?_
  · cases r with
    | error error => exact trivial
    | ok log => exact ⟨rfl, hr rs hfile⟩
  rintro _ _ ⟨rfl, rfl⟩
  refine .bindF (.ofExcept _ _) ?_
  rintro st _ ⟨rfl, hloop⟩
  refine (Upholds.ofExcept _ _).mono ?_
  intro r image' hr
  cases r with
  | error error => exact trivial
  | ok checkpoint_end => exact ⟨hr.1, st, hloop, hr.2⟩

/-- What `finalize_capture_journal` returns is the file up to the boundary that the inspection
found, whatever the chunks in which it is read. -/
theorem finalize_capture_journal_upholds (W : Env) (hfile : image file = some (framed rs))
    (expected_module_hash : Bytes) :
    (capturing D).Upholds (fun _ _ => True)
      (Post fun journal _ => journal.length ≤ W.usize_max ∧ ∃ front snap rest,
        rs = front ++ snap :: rest ∧ D.explicit snap = true ∧
        (∀ r ∈ front, D.explicit r = false) ∧ (∀ r ∈ rest, D.explicit r = false) ∧
        countRaw 1 rs = 1 ∧ journal = framed (front ++ [snap]))
      (finalize_capture_journal W file expected_module_hash) image := by
  unfold finalize_capture_journal
  refine .bindF (inspect_captured_journal_upholds hfile expected_module_hash) ?_
  rintro checkpoint_end _ ⟨rfl, st, hloop, hresult⟩
  obtain ⟨hmodules, -, front, snap, rest, rfl, hsnap, hfront, hrest, rfl⟩ :=
    inspect_accepts hloop hresult
  -- The boundary lies within the file, so that `set_len` cuts it.
  have hcut : framed (front ++ snap :: rest)
      = framed (front ++ [snap]) ++ rest.flatMap RawRecord.encode := by
    simp only [framed, List.flatMap_append, List.flatMap_cons, List.flatMap_nil, List.append_nil,
      List.append_assoc]
  refine .bindF (.orElse (Q := fun _ image' =>
    image' file = some (framed (front ++ [snap])))
    (call_upholds (.set_len file _) fun r _ => ?_)) ?_
  · cases r with
    | error error => exact trivial
    | ok _ =>
      show update _ file _ file = _
      rw [update_self, hfile, Option.map_some, hcut, List.take_left, List.length_append,
        Nat.sub_eq_zero_of_le (Nat.le_add_right _ _), List.replicate_zero, List.append_nil]
  intro _ image' himage
  refine .bindF (.orElse (Q := fun _ image'' =>
    image'' file = some (framed (front ++ [snap])))
    (call_upholds (.input (.add_seals file _)) fun r _ => ?_)) ?_
  · cases r with
    | error error => exact trivial
    | ok _ => exact himage
  intro _ image'' himage'
  refine .bindF (on_input_upholds
    (inspect_sealed_worker_input_upholds W himage' _ _)) ?_
  rintro _ _ ⟨rfl, rfl⟩
  refine (on_input_upholds (read_sealed_module_bytes_upholds W himage')).mono ?_
  intro r _ hr
  cases r with
  | error error => exact trivial
  | ok journal =>
    obtain ⟨⟨rfl, hfit⟩, -⟩ := hr
    exact ⟨hfit, front, snap, rest, rfl, hsnap, hfront, hrest, hmodules, rfl⟩

/-! ## The two validators

In terms of the records: what the worker has counted, and in which order they stand. -/

/-- A list is cut in one way only at the one element that has a property. -/
theorem split_unique {α : Type} {P : α → Bool} {front front' rest rest' : List α} {a b : α}
    (h : front ++ a :: rest = front' ++ b :: rest') (hb : P b = true)
    (hfront : ∀ x ∈ front, P x = false) (hrest : ∀ x ∈ rest, P x = false) :
    front = front' ∧ a = b := by
  induction front generalizing front' with
  | nil =>
    cases front' with
    | nil => exact ⟨rfl, (List.cons.inj h).1⟩
    | cons x front' =>
      -- The other split would find its element behind the first, where there is none.
      have hmem : b ∈ rest := by
        rw [(List.cons.inj h).2]
        simp
      rw [hrest b hmem] at hb
      cases hb
  | cons x front ih =>
    cases front' with
    | nil =>
      obtain ⟨rfl, -⟩ := List.cons.inj h
      rw [hfront x List.mem_cons_self] at hb
      cases hb
    | cons y front' =>
      obtain ⟨rfl, htail⟩ := List.cons.inj h
      obtain ⟨rfl, hab⟩ := ih htail fun z hz => hfront z (List.mem_cons_of_mem x hz)
      exact ⟨rfl, hab⟩

/-- In every run in which the worker attests the journal of a well-framed file, the parent accepts
what it is sent just when the records up to the explicit snapshot begin with the module record and
hold a thread record, no other snapshot and no empty record of a type that is not. -/
theorem captured_journal_scans_iff (W : Env) (D : EntryDecoder) (expected_module_hash : Bytes)
    (rs : List RawRecord) (file : Fd) (image : Fd → Option Bytes)
    (hfile : image file = some (framed rs)) {journal : Bytes} {image' : Fd → Option Bytes}
    (hrun : (capturing D).Comes (finalize_capture_journal W file expected_module_hash) image
      (.ret (.ok journal)) image') :
    (scan_journal W.checkpoint.target journal = .ok () ↔
      ∃ front snap rest, rs = front ++ snap :: rest ∧ D.explicit snap = true ∧
        Attestable front snap) ∧
    ∀ binding build, Checkpoint.WasixCheckpointBinding.validate binding = .ok () →
      Checkpoint.validate_sha256 "captured worker build digest" build = .ok () →
      ((∃ captured, Checkpoint.CapturedWasixJournal.from_attested_worker_capture W.checkpoint
          journal binding build = .ok captured) ↔
        scan_journal W.checkpoint.target journal = .ok ()) := by
  obtain ⟨hfit, front, snap, rest, rfl, hsnap, hfront, hrest, hmodules, rfl⟩ :=
    (finalize_capture_journal_upholds W hfile expected_module_hash).comes hrun
  -- The one module record may be behind the snapshot, so the front has at most one.
  have hone : countRaw 1 front ≤ 1 := by
    unfold countRaw at hmodules ⊢
    rw [List.countP_append] at hmodules
    omega
  refine ⟨?_, ?_⟩
  · rw [scan_prefix_iff hfit (D.type_of_explicit hsnap) hone]
    constructor
    · intro h
      exact ⟨front, snap, rest, rfl, hsnap, h⟩
    · rintro ⟨front', snap', rest', hsplit, hsnap', h⟩
      obtain ⟨rfl, rfl⟩ := split_unique hsplit hsnap' hfront hrest
      exact h
  · intro binding build hbinding hbuild
    unfold Checkpoint.CapturedWasixJournal.from_attested_worker_capture
    simp only [hbinding, hbuild, Exec.ok_bind]
    constructor
    · rintro ⟨captured, h⟩
      obtain ⟨_, hscan, -⟩ := Exec.bind_eq_ok.mp h
      exact hscan
    · intro hscan
      rw [hscan]
      exact ⟨_, rfl⟩

/-! ## Runs of the worker

On three files that the parent refuses, and on one that it accepts. -/

/-- A decoder for bodies of one byte: the hash of a module is its body, and an explicit snapshot
has the body one. -/
def sampleDecoder : EntryDecoder where
  init_module body := .ok body
  set_thread _ := .ok ()
  snapshot body := .ok (if body = [1] then .Explicit else .Other)
  other _ _ := .ok ()

/-- A record with a body of one byte. -/
def sampleRecord (t : ℕ) (body : UInt8) (known : is_known_journal_record_type t = true) :
    RawRecord := ⟨t, [body], known, show 1 < 256 ^ 6 by decide⟩

/-- A kernel that reads what it is asked for, and a journal library that knows one file. -/
def sampleKernel (rs : List RawRecord) (image : Fd → Option Bytes) :
    (op : CaptureOp) → CaptureAnswer op
  | .try_clone _ => .ok ()
  | .log_from_file file =>
    if image file = some (framed rs) then .ok (sampleDecoder.read_all JOURNAL_MAGIC.length rs)
    else .error "invalid magic number"
  | .set_len _ _ => .ok ()
  | .input (.memfd_create _) => .error "Too many open files"
  | .input (.write_all _ _) => .ok ()
  | .input .cancelled_load => false
  | .input (.rewind _) => .ok ()
  | .input (.add_seals _ _) => .ok ()
  | .input (.get_seals _) => .ok REQUIRED_CHECKPOINT_SEALS
  | .input (.fstat file) => .ok ⟨.RegularFile, 0, ((image file).getD []).length⟩
  | .input (.pread file len offset) =>
    .ok ⟨(((image file).getD []).drop offset).take len, List.length_take_le _ _⟩
  | .input (.try_reserve _) => .ok ()

/-- Its answers are possible ones. -/
theorem sampleKernel_ok (rs : List RawRecord) (image : Fd → Option Bytes) (op : CaptureOp) :
    (capturing sampleDecoder).ok image op (sampleKernel rs image op) := by
  cases op with
  | log_from_file file =>
    simp only [sampleKernel]
    by_cases hfile : image file = some (framed rs)
    · rw [if_pos hfile]
      intro rs' hrs'
      rw [framed_injective (Option.some.inj (hfile.symm.trans hrs'))]
    · rw [if_neg hfile]
      exact trivial
  | input op =>
    cases op with
    | pread file len offset =>
      intro content hcontent
      refine ⟨?_, ?_⟩
      · simp only [hcontent, Option.getD_some, List.length_take, List.length_drop]
        rw [List.take_eq_take_iff]
        simp
      · intro hnil hlen
        simp only [hcontent, Option.getD_some, List.take_eq_nil_iff, List.drop_eq_nil_iff]
          at hnil
        omega
    | _ => exact trivial
  | _ => exact trivial

/-- An environment of a worker on the target of the checkpoint example; nothing is decoded in
these runs. -/
def sampleWorkerEnv : Env where
  checkpoint := Checkpoint.sampleEnv
  usize_bits_ge := by decide
  metadata_from_slice _ := .error "EOF while parsing a value at line 1 column 0"
  transport_ack_from_slice _ := .error "EOF while parsing a value at line 1 column 0"
  restore_ack_from_slice _ := .error "EOF while parsing a value at line 1 column 0"
  restore_completion_from_slice _ := .error "EOF while parsing a value at line 1 column 0"
  capture_request_from_slice _ := .error "EOF while parsing a value at line 1 column 0"
  capture_ack_from_slice _ := .error "EOF while parsing a value at line 1 column 0"
  capture_completion_from_slice _ := .error "EOF while parsing a value at line 1 column 0"
  debug value := value
  display_error _ := ""
  display_status _ := ""

/-- The worker on a file with these records, up to its return. -/
def sampleRun (rs : List RawRecord) : CaptureM Bytes × (Fd → Option Bytes) :=
  (capturing sampleDecoder).walk (sampleKernel rs) 10
    (finalize_capture_journal sampleWorkerEnv 0 [7]) fun file =>
      if file = 0 then some (framed rs) else none

theorem sampleRun_comes (rs : List RawRecord) :
    (capturing sampleDecoder).Comes (finalize_capture_journal sampleWorkerEnv 0 [7])
      (fun file => if file = 0 then some (framed rs) else none) (sampleRun rs).1 (sampleRun rs).2 :=
  Monitor.comes_walk (sampleKernel_ok rs) 10 _ _

/-- The thread record before the module record; the thread record behind the snapshot; another
snapshot before the explicit one. -/
def refusedFiles : List (List RawRecord) :=
  [[sampleRecord 3 0 rfl, sampleRecord 1 7 rfl, sampleRecord 59 1 rfl],
    [sampleRecord 1 7 rfl, sampleRecord 59 1 rfl, sampleRecord 3 0 rfl],
    [sampleRecord 1 7 rfl, sampleRecord 3 0 rfl, sampleRecord 59 2 rfl, sampleRecord 59 1 rfl]]

/-- What the worker returned, if it did. -/
def attested : CaptureM Bytes → Option Bytes
  | .ret (.ok journal) => some journal
  | _ => none

theorem eq_ret_of_attested {p : CaptureM Bytes} {journal : Bytes} (h : attested p = some journal) :
    p = .ret (.ok journal) := by
  cases p with
  | ret r =>
    cases r with
    | ok bytes => rw [Option.some.inj h]
    | error error => cases h
  | vis op k => cases h

/-- The worker attests each of the three, and the scan refuses what it returns. -/
theorem attested_journal_refused :
    refusedFiles.Forall fun rs => ∃ journal image',
      (capturing sampleDecoder).Comes (finalize_capture_journal sampleWorkerEnv 0 [7])
        (fun file => if file = 0 then some (framed rs) else none) (.ret (.ok journal)) image' ∧
      scan_journal sampleWorkerEnv.checkpoint.target journal ≠ .ok () := by
  have hruns : ∀ rs ∈ refusedFiles, ∃ journal, attested (sampleRun rs).1 = some journal ∧
      scan_journal sampleWorkerEnv.checkpoint.target journal ≠ .ok () := by
    intro rs hrs
    simp only [refusedFiles, List.mem_cons, List.not_mem_nil, or_false] at hrs
    rcases hrs with rfl | rfl | rfl
    · exact ⟨_, rfl, by decide⟩
    · exact ⟨_, rfl, by decide⟩
    · exact ⟨_, rfl, by decide⟩
  rw [List.forall_iff_forall_mem]
  intro rs hrs
  obtain ⟨journal, hreturned, hscan⟩ := hruns rs hrs
  refine ⟨journal, (sampleRun rs).2, ?_, hscan⟩
  rw [← eq_ret_of_attested hreturned]
  exact sampleRun_comes rs

/-- A file whose records come in order, and one more behind the snapshot. -/
def acceptedFile : List RawRecord :=
  [sampleRecord 1 7 rfl, sampleRecord 3 0 rfl, sampleRecord 59 1 rfl, sampleRecord 3 0 rfl]

/-- The worker attests it, and the scan accepts what it returns. -/
theorem captured_journal_scans_in_order :
    attested (sampleRun acceptedFile).1 = some (framed (acceptedFile.take 3)) ∧
      scan_journal sampleWorkerEnv.checkpoint.target (framed (acceptedFile.take 3)) = .ok () := by
  have hreturned : attested (sampleRun acceptedFile).1 = some (framed (acceptedFile.take 3)) := rfl
  have hcomes := sampleRun_comes acceptedFile
  rw [eq_ret_of_attested hreturned] at hcomes
  have hattestable : Attestable (acceptedFile.take 2) (sampleRecord 59 1 rfl) := by
    refine ⟨⟨_, _, rfl, rfl⟩, ⟨_, List.mem_cons_of_mem _ List.mem_cons_self, rfl⟩, ?_, ?_⟩
    · decide
    · intro r hr hempty
      have hbody : ∀ r ∈ acceptedFile.take 2 ++ [sampleRecord 59 1 rfl], r.body.length = 1 := by
        decide
      rw [hbody r hr] at hempty
      cases hempty
  exact ⟨hreturned, (captured_journal_scans_iff sampleWorkerEnv sampleDecoder [7] acceptedFile 0 _
    rfl hcomes).1.mpr ⟨acceptedFile.take 2, sampleRecord 59 1 rfl, _, rfl, rfl, hattestable⟩⟩

/-! ## The third validator: a worker that restores

It reads the journal again before it replays it, and asks less than the other two. -/

/-- The loop of `checked_restore_journal`. -/
def restore_loop (module_hash : Bytes) :
    List (Except String JournalEntry × ℕ) → ℕ → Except String ℕ
  | [], module_records => .ok module_records
  | (.error error, _) :: _, _ => .error ("cannot inspect sealed restore journal: " ++ error)
  | (.ok (.InitModuleV1 wasm_hash), _) :: rest, module_records =>
    if wasm_hash != module_hash then
      .error "restore journal module hash does not match the sealed module"
    else if u32_max < module_records + 1 then
      .error "restore journal module record count overflowed"
    else restore_loop module_hash rest (module_records + 1)
  | (.ok _, _) :: rest, module_records => restore_loop module_hash rest module_records

/-- `checked_restore_journal`. The journal that it returns is the one opened last. -/
def checked_restore_journal (journal : Fd) (module_hash : Bytes) : CaptureM Unit := do
  Fallible.orElse ("cannot clone sealed restore journal: " ++ ·)
    (perform (CaptureOp.try_clone journal))
  let inspection ← Fallible.orElse ("cannot open sealed restore journal: " ++ ·)
    (perform (CaptureOp.log_from_file journal))
  let module_records ← Fallible.ofExcept (restore_loop module_hash inspection 0)
  Fallible.reject (module_records != 1) ("restore journal contains " ++ toString module_records
    ++ " module initialization records")
  let _ ← Fallible.orElse ("cannot reopen sealed restore journal: " ++ ·)
    (perform (CaptureOp.log_from_file journal))

/-- Where the inspection of a journal succeeds, this loop gets through each part of it from the
start, and counts the module records. -/
theorem restore_loop_of_inspect_loop {module_hash : Bytes} {rest : List RawRecord} {start n : ℕ}
    (h : inspect_loop module_hash (D.read_all start (rs ++ rest)) st = .ok st')
    (hn : n + countRaw 1 rs ≤ u32_max) :
    restore_loop module_hash (D.read_all start rs) n = .ok (n + countRaw 1 rs) := by
  induction rs generalizing start st n with
  | nil => rfl
  | cons r rs ih =>
    rw [List.cons_append, EntryDecoder.read_all] at h
    rw [EntryDecoder.read_all]
    cases hdecode : D.decode r with
    | error error =>
      rw [hdecode] at h
      cases h
    | ok entry =>
      rw [hdecode, inspect_loop] at h
      cases hrecord : inspect_record module_hash st (entry, start + r.encode.length) with
      | error error =>
        rw [hrecord] at h
        cases h
      | ok mid =>
        rw [hrecord] at h
        have htype := D.type_of_decode hdecode
        cases entry with
        | InitModuleV1 wasm_hash =>
          have hone : countRaw 1 (r :: rs) = countRaw 1 rs + 1 :=
            List.countP_cons_of_pos (decide_eq_true htype)
          rw [hone] at hn ⊢
          rw [inspect_record] at hrecord
          split_ifs at hrecord with hhash
          rw [restore_loop, if_neg hhash, if_neg (by omega), ih h (by omega),
            Nat.add_assoc, Nat.add_comm 1]
        | SetThreadV1 | SnapshotV1 _ | Other =>
          have hsame : countRaw 1 (r :: rs) = countRaw 1 rs := by
            simp only [JournalEntry.OfType, JOURNAL_SNAPSHOT_V1] at htype
            exact List.countP_cons_of_neg (by rw [decide_eq_true_eq]; omega)
          rw [hsame] at hn ⊢
          exact ih h hn

/-- Accepted, or a file could not be cloned or opened. -/
def Unrefused (r : Except String Unit) : Prop :=
  r = .ok () ∨ ∃ step error, step ∈ ["cannot clone", "cannot open", "cannot reopen"] ∧
    r = .error (step ++ " sealed restore journal: " ++ error)

theorem checked_restore_journal_upholds {module_hash : Bytes}
    (hfile : image file = some (framed rs))
    (hloop : restore_loop module_hash (D.read_all JOURNAL_MAGIC.length rs) 0 = .ok 1) :
    (capturing D).Upholds (fun _ _ => True) (fun r _ => Unrefused r)
      (checked_restore_journal file module_hash) image := by
  refine ⟨trivial, fun r _ => ?_⟩
  cases r with
  | error error => exact .inr ⟨"cannot clone", error, by decide, rfl⟩
  | ok _ =>
    refine ⟨trivial, fun r hr => ?_⟩
    cases r with
    | error error => exact .inr ⟨"cannot open", error, by decide, rfl⟩
    | ok log =>
      obtain rfl := hr _ hfile
      show (capturing D).Upholds _ _ (Fallible.ofExcept (restore_loop module_hash
        (D.read_all JOURNAL_MAGIC.length rs) 0) >>= _ : CaptureM Unit) _
      rw [hloop]
      refine ⟨trivial, fun r _ => ?_⟩
      cases r with
      | error error => exact .inr ⟨"cannot reopen", error, by decide, rfl⟩
      | ok _ => exact .inl rfl

/-- What one worker attests and the parent's scan accepts, a worker that restores the same module
accepts. -/
theorem captured_journal_restores (W : Env) (D : EntryDecoder) (module_hash : Bytes)
    (rs : List RawRecord) (file : Fd) (image : Fd → Option Bytes)
    (hfile : image file = some (framed rs)) (journal : Bytes) (image' : Fd → Option Bytes)
    (hrun : (capturing D).Comes (finalize_capture_journal W file module_hash) image
      (.ret (.ok journal)) image')
    (hscan : scan_journal W.checkpoint.target journal = .ok ()) (sealed : Fd)
    (input : Fd → Option Bytes) (hsealed : input sealed = some journal) :
    (capturing D).Upholds (fun _ _ => True) (fun r _ => Unrefused r)
      (checked_restore_journal sealed module_hash) input := by
  have hupholds : (capturing D).Upholds (fun _ _ => True) (Post fun _ _ => ∃ st,
      inspect_loop module_hash (D.read_all JOURNAL_MAGIC.length rs) ⟨0, 0, 0, none⟩ = .ok st)
      (finalize_capture_journal W file module_hash) image := by
    refine .bindF (inspect_captured_journal_upholds hfile module_hash) ?_
    rintro _ _ ⟨-, st, hloop, -⟩
    exact Upholds.free (fun _ _ => trivial) (fun _ _ => .of fun _ _ => ⟨st, hloop⟩) _ _
  obtain ⟨st, hinspected⟩ := hupholds.comes hrun
  obtain ⟨hfit, front, snap, rest, rfl, -, -, -, hmodules, rfl⟩ :=
    (finalize_capture_journal_upholds W hfile module_hash).comes hrun
  rw [List.append_cons] at hmodules hinspected
  -- The scan has found the module record in what was kept.
  have hone : countRaw 1 (front ++ [snap]) = 1 := by
    obtain ⟨js, hjs, ⟨j, jrest, rfl, hj, -⟩, -, -⟩ := (scan_framed_iff hfit).mp hscan
    have hpos : 0 < countRaw 1 (front ++ [snap]) :=
      List.countP_pos_iff.mpr ⟨raw j, hjs ▸ List.mem_cons_self, decide_eq_true hj⟩
    have hle : countRaw 1 (front ++ [snap]) ≤ countRaw 1 (front ++ [snap] ++ rest) :=
      (List.sublist_append_left _ rest).countP_le
    omega
  refine checked_restore_journal_upholds hsealed ?_
  rw [restore_loop_of_inspect_loop hinspected (by rw [hone]; decide), hone]

theorem captured_journal_restores_accepted :
    (capturing sampleDecoder).Upholds (fun _ _ => True) (fun r _ => Unrefused r)
      (checked_restore_journal 1 [7]) fun _ => some (framed (acceptedFile.take 3)) := by
  have hreturned : attested (sampleRun acceptedFile).1 = some (framed (acceptedFile.take 3)) := rfl
  have hcomes := sampleRun_comes acceptedFile
  rw [eq_ret_of_attested hreturned] at hcomes
  exact captured_journal_restores sampleWorkerEnv sampleDecoder [7] acceptedFile 0 _ rfl _ _ hcomes
    (by decide) 1 _ rfl

end WasmRuntime.Worker
