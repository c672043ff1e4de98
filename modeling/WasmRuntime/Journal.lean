/-
`checkpoint::scan_journal`: the framing check that stands between a captured journal and everything
that trusts one. `scan_journal_recognises_grammar` says what it accepts.
-/
import WasmRuntime.Codes
import WasmRuntime.Crate

set_option autoImplicit false

namespace WasmRuntime.Journal

open ByteCodec Exec

/-! ## `checkpoint.rs`: the scanner

The scanner is a cursor loop over the bytes with four counters and a remembered last record type. -/

def JOURNAL_MAGIC : Bytes := be 8 0x310d6dd027362979

def JOURNAL_SNAPSHOT_V1 : ℕ := 59

def is_known_journal_record_type (record_type : ℕ) : Bool :=
  (1 ≤ record_type && record_type ≤ 7) || (9 ≤ record_type && record_type ≤ 64)

def is_zero_sized_journal_record_type (record_type : ℕ) : Bool :=
  record_type == 35 || record_type == 37 || record_type == 38 || record_type == 41
    || record_type == 60

/-- The locals the loop carries. -/
structure ScanState where
  cursor : ℕ
  final_record : Option ℕ
  record_count : ℕ
  init_module_records : ℕ
  set_thread_records : ℕ
  snapshot_records : ℕ
  deriving DecidableEq, Repr

/-- The lifecycle bookkeeping of one record, once the cursor has moved past it. -/
def scan_lifecycle (T : Target) (journal : Bytes) (record_type : ℕ) (st : ScanState) :
    Exec Error ScanState :=
  if record_type = 1 then do
    let init_module_records ← add T.usize_max st.init_module_records 1
    reject (st.record_count != 0 || init_module_records != 1)
      (.Checkpoint "checkpoint journal has an invalid module initialization sequence")
    pure { st with init_module_records }
  else if record_type = 3 then do
    let set_thread_records ← add T.usize_max st.set_thread_records 1
    pure { st with set_thread_records }
  else if record_type = JOURNAL_SNAPSHOT_V1 then do
    let snapshot_records ← add T.usize_max st.snapshot_records 1
    reject (st.cursor != journal.length)
      (.Checkpoint "checkpoint journal contains records after its snapshot")
    pure { st with snapshot_records }
  else
    pure st

/-- What the loop body reads at the cursor: the type of the record there and the
cursor just past it. -/
def scan_header (T : Target) (journal : Bytes) (cursor : ℕ) : Exec Error (ℕ × ℕ) := do
  let header_end ← ofOption (.Checkpoint "checkpoint journal length overflows")
    (checkedAdd T.usize_max cursor 8)
  reject (header_end > journal.length)
    (.Checkpoint "checkpoint journal record header is truncated")
  let header ← slice journal cursor header_end
  reject (header == JOURNAL_MAGIC)
    (.Checkpoint "checkpoint journal contains a repeated magic marker")
  let h0 ← index header 0
  let h1 ← index header 1
  let record_type := beVal [h0, h1]
  reject (!is_known_journal_record_type record_type)
    (.Checkpoint s!"checkpoint journal record type {record_type} is unsupported")
  let h2 ← index header 2
  let h3 ← index header 3
  let h4 ← index header 4
  let h5 ← index header 5
  let h6 ← index header 6
  let h7 ← index header 7
  let record_len_u64 := beVal [0, 0, h2, h3, h4, h5, h6, h7]
  let record_len ← ofOption
    (.Checkpoint "checkpoint journal record length overflows usize")
    (tryFrom T.usize_max record_len_u64)
  reject (record_len == 0 && !is_zero_sized_journal_record_type record_type)
    (.Checkpoint "checkpoint journal contains an invalid empty record")
  let cursor ← ofOption (.Checkpoint "checkpoint journal length overflows")
    (checkedAdd T.usize_max header_end record_len)
  reject (cursor > journal.length)
    (.Checkpoint "checkpoint journal record is truncated")
  pure (record_type, cursor)

/-- The body of the `while` loop. -/
def scan_record (T : Target) (journal : Bytes) (st : ScanState) : Exec Error ScanState := do
  let (record_type, cursor) ← scan_header T journal st.cursor
  let st ← scan_lifecycle T journal record_type { st with cursor }
  let record_count ← add T.usize_max st.record_count 1
  pure { st with record_count, final_record := some record_type }

/-- `while cursor < journal.len() { .. }`. -/
def scan_loop (T : Target) (journal : Bytes) : ℕ → ScanState → Exec Error ScanState
  | 0, _ => .div
  | fuel + 1, st =>
    if st.cursor < journal.length then scan_record T journal st >>= scan_loop T journal fuel
    else .ok st

/-- The locals on entry to the loop. -/
def scan_start : ScanState :=
  ⟨JOURNAL_MAGIC.length, none, 0, 0, 0, 0⟩

/-- `scan_journal`. A record takes at least its eight header bytes, so the fuel is
never what ends the loop: see `scan_loop_returns`. -/
def scan_journal (T : Target) (journal : Bytes) : Exec Error Unit := do
  reject (journal.length < JOURNAL_MAGIC.length)
    (.Checkpoint "checkpoint journal magic is invalid")
  let magic ← slice journal 0 JOURNAL_MAGIC.length
  reject (magic != JOURNAL_MAGIC) (.Checkpoint "checkpoint journal magic is invalid")
  let st ← scan_loop T journal (journal.length + 1) scan_start
  reject (st.init_module_records != 1 || st.set_thread_records == 0
      || st.snapshot_records != 1 || st.final_record != some JOURNAL_SNAPSHOT_V1)
    (.Checkpoint "checkpoint journal lifecycle is incomplete")

/-! ## The grammar

The magic marker and then a sequence of records, each a two-byte type, a six-byte length and that
many bytes of body, in an order the lifecycle fixes. -/

/-- One journal record: a known type, a body whose length fits six bytes, and a
body that is empty only where the type allows it. -/
@[ext]
structure JournalRecord where
  record_type : ℕ
  body : Bytes
  known : is_known_journal_record_type record_type = true
  short : body.length < 256 ^ 6
  sized : body.length = 0 → is_zero_sized_journal_record_type record_type = true

/-- `be16(type) ++ be48(len) ++ body`. -/
def JournalRecord.encode (r : JournalRecord) : Bytes :=
  be 2 r.record_type ++ (be 6 r.body.length ++ r.body)

/-- The concatenation of a list of records. -/
def encode_all (rs : List JournalRecord) : Bytes := rs.flatMap JournalRecord.encode

/-- The order the records must come in: module initialisation first and only
there, the snapshot last and only there, a thread record somewhere. -/
structure Lifecycle (rs : List JournalRecord) : Prop where
  initialised : ∃ r rest, rs = r :: rest ∧ r.record_type = 1 ∧ ∀ x ∈ rest, x.record_type ≠ 1
  snapshot : ∃ front r, rs = front ++ [r] ∧ r.record_type = JOURNAL_SNAPSHOT_V1 ∧
    ∀ x ∈ front, x.record_type ≠ JOURNAL_SNAPSHOT_V1
  thread : ∃ r ∈ rs, r.record_type = 3

/-- The types of the grammar: `1..=7` and `9..=64`, with no 8 among them. -/
theorem is_known_journal_record_type_iff {t : ℕ} :
    is_known_journal_record_type t = true ↔ 1 ≤ t ∧ t ≤ 7 ∨ 9 ≤ t ∧ t ≤ 64 := by
  unfold is_known_journal_record_type
  simp only [Bool.or_eq_true, Bool.and_eq_true, decide_eq_true_eq]

/-- Those of them whose body may be empty. -/
theorem is_zero_sized_journal_record_type_iff {t : ℕ} :
    is_zero_sized_journal_record_type t = true ↔ t ∈ [35, 37, 38, 41, 60] := by
  unfold is_zero_sized_journal_record_type
  simp only [Bool.or_eq_true, beq_iff_eq, List.mem_cons, List.not_mem_nil, or_false, or_assoc]

/-- A known type fits the two bytes it is written in. -/
theorem JournalRecord.record_type_lt (r : JournalRecord) : r.record_type < 256 ^ 2 := by
  have h := is_known_journal_record_type_iff.mp r.known
  omega

theorem JournalRecord.encode_length (r : JournalRecord) :
    r.encode.length = 8 + r.body.length := by
  rw [JournalRecord.encode, List.length_append, List.length_append, be_length, be_length]
  omega

@[simp] theorem encode_all_nil : encode_all [] = [] := rfl

@[simp] theorem encode_all_cons (r : JournalRecord) (rs : List JournalRecord) :
    encode_all (r :: rs) = r.encode ++ encode_all rs := List.flatMap_cons

theorem encode_all_append (rs ss : List JournalRecord) :
    encode_all (rs ++ ss) = encode_all rs ++ encode_all ss := List.flatMap_append

variable {rs done : List JournalRecord} {r : JournalRecord} {T : Target} {rest tail j : Bytes}
  {c : ℕ}

/-- Only the empty list of records is written as nothing. -/
theorem encode_all_eq_nil : encode_all rs = [] ↔ rs = [] := by
  cases rs with
  | nil => simp
  | cons r rs =>
    rw [encode_all_cons]
    refine ⟨fun h => ?_, nofun⟩
    have hlen := congrArg List.length h
    rw [List.length_append, r.encode_length] at hlen
    simp at hlen

/-- A record is read off the front of a byte string in at most one way. -/
theorem encode_append_inj {r' : JournalRecord} {t t' : Bytes}
    (h : r.encode ++ t = r'.encode ++ t') : r = r' ∧ t = t' := by
  simp only [JournalRecord.encode, List.append_assoc] at h
  obtain ⟨htype, h⟩ := List.append_inj h (by rw [be_length, be_length])
  obtain ⟨hlen, h⟩ := List.append_inj h (by rw [be_length, be_length])
  have hlen' : r.body.length = r'.body.length := be_inj r.short r'.short hlen
  obtain ⟨hbody, htail⟩ := List.append_inj h hlen'
  exact ⟨JournalRecord.ext (be_inj r.record_type_lt r'.record_type_lt htype) hbody, htail⟩

/-- A journal body is the concatenation of at most one list of records. -/
theorem encode_all_inj {ss : List JournalRecord} (h : encode_all rs = encode_all ss) : rs = ss := by
  have hrecord : Codes.SelfDelimiting Set.univ JournalRecord.encode :=
    fun _ _ _ _ _ _ heq => encode_append_inj heq
  refine hrecord.flatMap_inj ?_ (fun _ _ => trivial) (fun _ _ => trivial) h
  intro r _ hnil
  have hlength := r.encode_length
  rw [hnil, List.length_nil] at hlength
  omega

/-! ## One turn of the loop

`state_after rs` is the loop state once exactly the records `rs` have been read.
The counters are counts over `rs` and the cursor is the length of what was read,
so the overflow of a counter would need a journal longer than `usize::MAX`. -/

/-- The number of records of one type. -/
def count_type (t : ℕ) (rs : List JournalRecord) : ℕ :=
  rs.countP (fun r => r.record_type == t)

/-- The loop state after the records `rs`. -/
def state_after (rs : List JournalRecord) : ScanState where
  cursor := JOURNAL_MAGIC.length + (encode_all rs).length
  final_record := rs.getLast?.map JournalRecord.record_type
  record_count := rs.length
  init_module_records := count_type 1 rs
  set_thread_records := count_type 3 rs
  snapshot_records := count_type JOURNAL_SNAPSHOT_V1 rs

theorem state_after_nil : state_after [] = scan_start := rfl

theorem magic_length : JOURNAL_MAGIC.length = 8 := be_length 8 _

theorem count_type_le (t : ℕ) (rs : List JournalRecord) : count_type t rs ≤ rs.length :=
  List.countP_le_length

/-- Every record takes eight bytes or more, so the records read are fewer than the
bytes read. -/
theorem length_le_encode_all (rs : List JournalRecord) :
    rs.length ≤ (encode_all rs).length := by
  induction rs with
  | nil => simp
  | cons r rs ih =>
    rw [encode_all_cons, List.length_append, r.encode_length, List.length_cons]
    omega

theorem count_type_append_singleton (t : ℕ) (rs : List JournalRecord) (r : JournalRecord) :
    count_type t (rs ++ [r]) = count_type t rs + if r.record_type = t then 1 else 0 := by
  unfold count_type
  rw [List.countP_append, List.countP_singleton]
  by_cases h : r.record_type = t
  · simp [h]
  · simp [h]

/-! ### Reading a header

Eight bytes at the cursor, and the six checks. -/

private theorem eight_bytes {l : Bytes} (h : l.length = 8) :
    ∃ b0 b1 b2 b3 b4 b5 b6 b7, l = [b0, b1, b2, b3, b4, b5, b6, b7] := by
  match l, h with
  | [b0, b1, b2, b3, b4, b5, b6, b7], _ => exact ⟨b0, b1, b2, b3, b4, b5, b6, b7, rfl⟩

/-- With eight bytes at the cursor no index is out of range, and what is left of
the header is its six checks. -/
theorem scan_header_eq (T : Target) (p tail : Bytes) (b0 b1 b2 b3 b4 b5 b6 b7 : UInt8)
    (hfit : (p ++ ([b0, b1, b2, b3, b4, b5, b6, b7] ++ tail)).length ≤ T.usize_max) :
    scan_header T (p ++ ([b0, b1, b2, b3, b4, b5, b6, b7] ++ tail)) p.length = (do
      reject ([b0, b1, b2, b3, b4, b5, b6, b7] == JOURNAL_MAGIC)
        (.Checkpoint "checkpoint journal contains a repeated magic marker")
      reject (!is_known_journal_record_type (beVal [b0, b1]))
        (.Checkpoint s!"checkpoint journal record type {beVal [b0, b1]} is unsupported")
      let record_len ← ofOption
        (.Checkpoint "checkpoint journal record length overflows usize")
        (tryFrom T.usize_max (beVal [b2, b3, b4, b5, b6, b7]))
      reject (record_len == 0 && !is_zero_sized_journal_record_type (beVal [b0, b1]))
        (.Checkpoint "checkpoint journal contains an invalid empty record")
      let cursor ← ofOption (.Checkpoint "checkpoint journal length overflows")
        (checkedAdd T.usize_max (p.length + 8) record_len)
      reject (cursor > (p ++ ([b0, b1, b2, b3, b4, b5, b6, b7] ++ tail)).length)
        (.Checkpoint "checkpoint journal record is truncated")
      pure (beVal [b0, b1], cursor)) := by
  have hlen : (p ++ ([b0, b1, b2, b3, b4, b5, b6, b7] ++ tail)).length
      = p.length + 8 + tail.length := by
    simp only [List.length_append, List.length_cons, List.length_nil]
    omega
  -- The source widens the six bytes of the length to eight.
  have hbody : beVal [0, 0, b2, b3, b4, b5, b6, b7] = beVal [b2, b3, b4, b5, b6, b7] := by
    simp [beVal]
  rw [scan_header, checkedAdd_of_le (by omega), ofOption_some, ok_bind]
  have hin : decide (p.length + 8 > (p ++ ([b0, b1, b2, b3, b4, b5, b6, b7] ++ tail)).length)
      = false := by
    rw [hlen]
    simp
  have hslice : (slice (p ++ ([b0, b1, b2, b3, b4, b5, b6, b7] ++ tail)) p.length
      (p.length + 8) : Exec Error Bytes) = .ok [b0, b1, b2, b3, b4, b5, b6, b7] :=
    slice_append rfl rfl
  rw [hin, reject_false, ok_bind, hslice, ok_bind]
  simp only [index, List.getElem?_cons_zero, List.getElem?_cons_succ, ok_bind, hbody]

/-- A well-formed record at the cursor is read whole. -/
theorem scan_header_encode (T : Target) (p tail : Bytes) (r : JournalRecord)
    (hfit : (p ++ (r.encode ++ tail)).length ≤ T.usize_max) :
    scan_header T (p ++ (r.encode ++ tail)) p.length
      = .ok (r.record_type, p.length + r.encode.length) := by
  have hlen : (p ++ (r.encode ++ tail)).length = p.length + (8 + r.body.length) + tail.length := by
    rw [List.length_append, List.length_append, r.encode_length]
    omega
  -- The eight header bytes, named, so that `scan_header_eq` applies.
  obtain ⟨b0, b1, b2, b3, b4, b5, b6, b7, hb⟩ :=
    eight_bytes (show (be 2 r.record_type ++ be 6 r.body.length).length = 8 by simp)
  have hsplit : be 2 r.record_type ++ be 6 r.body.length
      = [b0, b1] ++ [b2, b3, b4, b5, b6, b7] := hb
  obtain ⟨htype, hblen⟩ := List.append_inj hsplit (by simp)
  have hval : beVal [b0, b1] = r.record_type := by
    rw [← htype, be_val 2 _ r.record_type_lt]
  have hval' : beVal [b2, b3, b4, b5, b6, b7] = r.body.length := by
    rw [← hblen, be_val 6 _ r.short]
  have hjournal : p ++ (r.encode ++ tail)
      = p ++ ([b0, b1, b2, b3, b4, b5, b6, b7] ++ (r.body ++ tail)) := by
    rw [JournalRecord.encode, ← hb]
    simp only [List.append_assoc]
  rw [hjournal] at hfit hlen ⊢
  rw [scan_header_eq T p _ b0 b1 b2 b3 b4 b5 b6 b7 hfit, hval, hval', r.known]
  -- The magic marker would be a record of type 0x310d, which is not a known one.
  have hmagic : ([b0, b1, b2, b3, b4, b5, b6, b7] == JOURNAL_MAGIC) = false := by
    rw [beq_eq_false_iff_ne]
    intro h
    have htag : [b0, b1] = [0x31, 0x0d] := by
      have htake := congrArg (List.take 2) h
      exact htake
    have hbad := r.known
    rw [← hval, htag] at hbad
    exact absurd hbad (by decide)
  have hsized : (r.body.length == 0 && !is_zero_sized_journal_record_type r.record_type)
      = false := by
    by_cases h0 : r.body.length = 0
    · rw [r.sized h0]
      simp
    · simp [h0]
  have hend : decide (p.length + 8 + r.body.length
      > (p ++ ([b0, b1, b2, b3, b4, b5, b6, b7] ++ (r.body ++ tail))).length) = false := by
    rw [hlen]
    simp only [gt_iff_lt, decide_eq_false_iff_not]
    omega
  rw [hmagic, tryFrom_of_le (by omega)]
  simp only [Bool.not_true, reject_false, ok_bind, ofOption_some, hsized]
  rw [checkedAdd_of_le (by omega), ofOption_some, ok_bind, hend,
    reject_false, ok_bind, r.encode_length, Nat.add_assoc]
  rfl

/-- What a header read returns is a well-formed record: the converse of
`scan_header_encode`. -/
theorem scan_header_ok {p : Bytes} {t : ℕ} (hfit : (p ++ rest).length ≤ T.usize_max)
    (h : scan_header T (p ++ rest) p.length = .ok (t, c)) :
    ∃ (r : JournalRecord) (tail : Bytes), rest = r.encode ++ tail := by
  -- Fewer than eight bytes are refused before anything is read.
  by_cases h8 : rest.length < 8
  · rw [scan_header] at h
    obtain ⟨header_end, hadd, h⟩ := bind_eq_ok.mp h
    obtain ⟨_, htrunc, -⟩ := bind_eq_ok.mp h
    rw [ofOption_eq_ok, checkedAdd_eq_some] at hadd
    rw [reject_eq_ok, hadd.2] at htrunc
    simp only [gt_iff_lt, List.length_append, decide_eq_false_iff_not] at htrunc
    omega
  obtain ⟨b0, b1, b2, b3, b4, b5, b6, b7, hb⟩ :=
    eight_bytes (show (rest.take 8).length = 8 by rw [List.length_take]; omega)
  have hrest : rest = [b0, b1, b2, b3, b4, b5, b6, b7] ++ rest.drop 8 := by
    rw [← hb, List.take_append_drop]
  rw [hrest] at h hfit
  rw [scan_header_eq T p _ b0 b1 b2 b3 b4 b5 b6 b7 hfit] at h
  obtain ⟨_, -, h⟩ := bind_eq_ok.mp h
  obtain ⟨_, hknown, h⟩ := bind_eq_ok.mp h
  obtain ⟨record_len, hconv, h⟩ := bind_eq_ok.mp h
  obtain ⟨_, hempty, h⟩ := bind_eq_ok.mp h
  obtain ⟨cursor, hadd, h⟩ := bind_eq_ok.mp h
  obtain ⟨_, htrunc, -⟩ := bind_eq_ok.mp h
  rw [reject_eq_ok] at hknown hempty htrunc
  rw [ofOption_eq_ok, tryFrom_eq_some] at hconv
  rw [ofOption_eq_ok, checkedAdd_eq_some] at hadd
  obtain ⟨-, rfl⟩ := hconv
  obtain ⟨-, rfl⟩ := hadd
  -- The declared length is what the journal still holds, so the body exists.
  have hbody : beVal [b2, b3, b4, b5, b6, b7] ≤ (rest.drop 8).length := by
    simp only [gt_iff_lt, List.length_append, List.length_cons, List.length_nil,
      decide_eq_false_iff_not] at htrunc
    omega
  have hblen : ((rest.drop 8).take (beVal [b2, b3, b4, b5, b6, b7])).length
      = beVal [b2, b3, b4, b5, b6, b7] := by
    rw [List.length_take]
    omega
  have hsized : beVal [b2, b3, b4, b5, b6, b7] = 0 →
      is_zero_sized_journal_record_type (beVal [b0, b1]) = true := by
    intro h0
    rw [h0] at hempty
    simpa using hempty
  refine ⟨⟨beVal [b0, b1], (rest.drop 8).take (beVal [b2, b3, b4, b5, b6, b7]),
    by simpa using hknown, by rw [hblen]; exact beVal_lt [b2, b3, b4, b5, b6, b7],
    by rw [hblen]; exact hsized⟩, (rest.drop 8).drop (beVal [b2, b3, b4, b5, b6, b7]), ?_⟩
  have htype : be 2 (beVal [b0, b1]) = [b0, b1] := val_be [b0, b1]
  have hlen : be 6 (beVal [b2, b3, b4, b5, b6, b7]) = [b2, b3, b4, b5, b6, b7] :=
    val_be [b2, b3, b4, b5, b6, b7]
  rw [JournalRecord.encode]
  dsimp only
  rw [hblen, htype, hlen]
  simp only [List.append_assoc, List.take_append_drop]
  exact hrest

/-- A header read never panics: the truncation check comes before the slice. -/
theorem scan_header_returns {p : Bytes} (hfit : (p ++ rest).length ≤ T.usize_max) :
    (scan_header T (p ++ rest) p.length).Returns := by
  by_cases h8 : rest.length < 8
  · rw [scan_header]
    refine returns_bind (returns_ofOption _ _) fun header_end hadd => ?_
    rw [ofOption_eq_ok, checkedAdd_eq_some] at hadd
    have htrunc : decide (header_end > (p ++ rest).length) = true := by
      simp only [hadd.2, gt_iff_lt, List.length_append, decide_eq_true_eq]
      omega
    rw [htrunc, reject_true, err_bind]
    exact returns_err _
  obtain ⟨b0, b1, b2, b3, b4, b5, b6, b7, hb⟩ :=
    eight_bytes (show (rest.take 8).length = 8 by rw [List.length_take]; omega)
  have hrest : rest = [b0, b1, b2, b3, b4, b5, b6, b7] ++ rest.drop 8 := by
    rw [← hb, List.take_append_drop]
  rw [hrest] at hfit ⊢
  rw [scan_header_eq T p _ b0 b1 b2 b3 b4 b5 b6 b7 hfit]
  refine returns_bind (returns_reject _ _) fun _ _ => ?_
  refine returns_bind (returns_reject _ _) fun _ _ => ?_
  refine returns_bind (returns_ofOption _ _) fun _ _ => ?_
  refine returns_bind (returns_reject _ _) fun _ _ => ?_
  refine returns_bind (returns_ofOption _ _) fun _ _ => ?_
  exact returns_bind (returns_reject _ _) fun _ _ => returns_ok _

/-! ### From one record boundary to the next

One turn of the loop, taken and reversed. -/

/-- The in-loop lifecycle checks, for a record `r` read after `done` with `tail`
still to come. -/
def Admits (done : List JournalRecord) (r : JournalRecord) (tail : Bytes) : Prop :=
  (r.record_type = 1 → done = []) ∧ (r.record_type = JOURNAL_SNAPSHOT_V1 → tail = [])

/-- The counters after one more record are the old ones plus one, and none of the
additions overflows: the records already read are fewer than the journal's bytes. -/
theorem scan_lifecycle_admits {journal : Bytes} (hdone : done.length + 1 ≤ T.usize_max)
    (hc : c + tail.length = journal.length) (h : Admits done r tail) :
    scan_lifecycle T journal r.record_type { state_after done with cursor := c }
      = .ok { state_after (done ++ [r]) with
          cursor := c
          record_count := done.length
          final_record := (state_after done).final_record } := by
  have h1 := count_type_le 1 done
  have h3 := count_type_le 3 done
  have h59 := count_type_le JOURNAL_SNAPSHOT_V1 done
  simp only [scan_lifecycle, state_after, count_type_append_singleton]
  by_cases ht1 : r.record_type = 1
  · -- A module record is the first one, so both counters are still zero.
    have hnil : done = [] := h.1 ht1
    subst hnil
    rw [if_pos ht1, add_of_le (by simpa [count_type] using hdone)]
    simp [ht1, JOURNAL_SNAPSHOT_V1, count_type]
  by_cases ht3 : r.record_type = 3
  · rw [if_neg ht1, if_pos ht3, add_of_le (by omega)]
    simp [ht3, JOURNAL_SNAPSHOT_V1]
  by_cases ht59 : r.record_type = JOURNAL_SNAPSHOT_V1
  · -- The snapshot is accepted because nothing follows it.
    have hnil : tail = [] := h.2 ht59
    have hend : c = journal.length := by rw [← hc, hnil]; rfl
    rw [if_neg ht1, if_neg ht3, if_pos ht59, add_of_le (by omega)]
    simp [ht59, hend, JOURNAL_SNAPSHOT_V1]
  · rw [if_neg ht1, if_neg ht3, if_neg ht59]
    simp [ht1, ht3, ht59]

/-- A record out of its place is an error, never a panic. -/
theorem scan_lifecycle_refuses {journal : Bytes} (hdone : done.length + 1 ≤ T.usize_max)
    (hc : c + tail.length = journal.length) (h : ¬ Admits done r tail) :
    ∃ e, scan_lifecycle T journal r.record_type { state_after done with cursor := c }
      = .err e := by
  have h1 := count_type_le 1 done
  have h59 := count_type_le JOURNAL_SNAPSHOT_V1 done
  simp only [scan_lifecycle, state_after]
  -- A module record that is not the first, or a snapshot that is not the last.
  by_cases ht1 : r.record_type = 1
  · have hne : done ≠ [] := by
      intro hnil
      refine h ⟨fun _ => hnil, fun h59 => ?_⟩
      rw [ht1] at h59
      exact absurd h59 (by decide)
    have hbad : (done.length != 0 || count_type 1 done + 1 != 1) = true := by
      simp [hne]
    rw [if_pos ht1, add_of_le (by omega), ok_bind, hbad]
    exact ⟨_, rfl⟩
  · have ht59 : r.record_type = JOURNAL_SNAPSHOT_V1 := by
      by_contra hne
      exact h ⟨fun h1 => absurd h1 ht1, fun h59 => absurd h59 hne⟩
    have hne : tail ≠ [] := fun hnil => h ⟨fun h1 => absurd h1 ht1, fun _ => hnil⟩
    have hpos : 0 < tail.length := List.length_pos_iff.mpr hne
    have hbad : (c != journal.length) = true := by
      rw [bne_iff_ne]
      omega
    have ht3 : r.record_type ≠ 3 := by rw [ht59]; decide
    rw [if_neg ht1, if_neg ht3, if_pos ht59, add_of_le (by omega), ok_bind, hbad]
    exact ⟨_, rfl⟩

/-- The journal whose records `done` have been read and whose `rest` has not. -/
def at_boundary (done : List JournalRecord) (rest : Bytes) : Bytes :=
  (JOURNAL_MAGIC ++ encode_all done) ++ rest

theorem state_after_cursor (done : List JournalRecord) :
    (state_after done).cursor = (JOURNAL_MAGIC ++ encode_all done).length := by
  rw [List.length_append]
  rfl

/-- A record is read: the boundary moves behind it. -/
theorem at_boundary_cons (done : List JournalRecord) (r : JournalRecord) (tail : Bytes) :
    at_boundary done (r.encode ++ tail) = at_boundary (done ++ [r]) tail := by
  simp only [at_boundary, encode_all_append, encode_all_cons, encode_all_nil,
    List.append_nil, List.append_assoc]

theorem at_boundary_length (done : List JournalRecord) (rest : Bytes) :
    (at_boundary done rest).length = 8 + (encode_all done).length + rest.length := by
  rw [at_boundary, List.length_append, List.length_append, magic_length]

/-- What is behind a record is the rest of the journal. -/
theorem at_boundary_tail (done : List JournalRecord) (r : JournalRecord) (tail : Bytes) :
    (JOURNAL_MAGIC ++ encode_all done).length + r.encode.length + tail.length
      = (at_boundary done (r.encode ++ tail)).length := by
  simp only [at_boundary, List.length_append]
  omega

/-- Every record takes up some of the journal. -/
theorem at_boundary_count (hfit : (at_boundary done (r.encode ++ tail)).length ≤ T.usize_max) :
    done.length + 1 ≤ T.usize_max := by
  have hlen := at_boundary_length done (r.encode ++ tail)
  rw [List.length_append, r.encode_length] at hlen
  have hcount := length_le_encode_all done
  omega

/-- One turn of the loop, past the header of a well-formed record. -/
theorem scan_record_past_header
    (hfit : (at_boundary done (r.encode ++ tail)).length ≤ T.usize_max) :
    scan_record T (at_boundary done (r.encode ++ tail)) (state_after done) = (do
      let st ← scan_lifecycle T (at_boundary done (r.encode ++ tail)) r.record_type
        { state_after done with
          cursor := (JOURNAL_MAGIC ++ encode_all done).length + r.encode.length }
      let record_count ← add T.usize_max st.record_count 1
      pure { st with record_count, final_record := some r.record_type }) := by
  have hhead := scan_header_encode T (JOURNAL_MAGIC ++ encode_all done) tail r hfit
  rw [scan_record, state_after_cursor, at_boundary, hhead, ok_bind]

/-- One turn of the loop over a well-formed record in its place. -/
theorem scan_record_encode (hfit : (at_boundary done (r.encode ++ tail)).length ≤ T.usize_max)
    (h : Admits done r tail) :
    scan_record T (at_boundary done (r.encode ++ tail)) (state_after done)
      = .ok (state_after (done ++ [r])) := by
  have hcount := at_boundary_count hfit
  rw [scan_record_past_header hfit,
    scan_lifecycle_admits hcount (at_boundary_tail done r tail) h, ok_bind]
  dsimp only
  rw [add_of_le hcount, ok_bind, pure_eq]
  -- The two states agree field by field; only the cursor and the last type move.
  simp only [state_after, encode_all_append, encode_all_cons, encode_all_nil, List.append_nil,
    List.length_append, List.length_singleton, List.getLast?_append, List.getLast?_singleton,
    Option.some_or, Option.map_some, Nat.add_assoc]

/-- One turn of the loop over a well-formed record out of its place. -/
theorem scan_record_refuses (hfit : (at_boundary done (r.encode ++ tail)).length ≤ T.usize_max)
    (h : ¬ Admits done r tail) :
    ∃ e, scan_record T (at_boundary done (r.encode ++ tail)) (state_after done) = .err e := by
  obtain ⟨e, he⟩ := scan_lifecycle_refuses (at_boundary_count hfit) (at_boundary_tail done r tail) h
  refine ⟨e, ?_⟩
  rw [scan_record_past_header hfit, he, err_bind]

/-- One turn of the loop where no well-formed record starts. -/
theorem scan_record_stuck (hfit : (at_boundary done rest).length ≤ T.usize_max)
    (h : ¬ ∃ (r : JournalRecord) (tail : Bytes), rest = r.encode ++ tail) :
    ∃ e, scan_record T (at_boundary done rest) (state_after done) = .err e := by
  have hret := scan_header_returns (T := T) hfit
  rw [scan_record, state_after_cursor]
  rw [← at_boundary] at hret
  cases hhead : scan_header T (at_boundary done rest)
      (JOURNAL_MAGIC ++ encode_all done).length with
  | ok p => exact absurd (scan_header_ok hfit hhead) h
  | err e => exact ⟨e, rfl⟩
  | panic => exact absurd hhead hret.1
  | div => exact absurd hhead hret.2

/-! ## The whole loop

At a record boundary a turn of the loop either reads one more well-formed record and moves to the
next such state (`scan_record_encode`) or, when no well-formed record starts at the cursor, stops
with an error (`scan_record_stuck`). Everything else is induction over those two. -/

/-- The in-loop checks over a run of records `rs` read after `done`. -/
def Ordered : List JournalRecord → List JournalRecord → Prop
  | _, [] => True
  | done, r :: rs => Admits done r (encode_all rs) ∧ Ordered (done ++ [r]) rs

/-- The loop recognises exactly the encodings of record lists in order, and what it
returns is the state after them. -/
theorem scan_loop_ok_iff (fuel : ℕ) (done : List JournalRecord) (rest : Bytes)
    (hfuel : rest.length < fuel) (hfit : (at_boundary done rest).length ≤ T.usize_max)
    (st : ScanState) :
    scan_loop T (at_boundary done rest) fuel (state_after done) = .ok st ↔
      ∃ rs, rest = encode_all rs ∧ Ordered done rs ∧ st = state_after (done ++ rs) := by
  induction fuel generalizing done rest with
  | zero => exact absurd hfuel (Nat.not_lt_zero _)
  | succ fuel ih =>
    have hlen := at_boundary_length done rest
    have hcur : (state_after done).cursor = 8 + (encode_all done).length := by
      rw [state_after_cursor, List.length_append, magic_length]
    rw [scan_loop]
    by_cases hnil : rest = []
    · -- The cursor is at the end: the loop stops here, and no record is left.
      subst hnil
      rw [if_neg (by rw [hcur, hlen]; simp)]
      refine ⟨fun h => ⟨[], rfl, trivial, ?_⟩, ?_⟩
      · rw [List.append_nil]
        exact (Exec.ok.inj h).symm
      · rintro ⟨rs, hrs, -, rfl⟩
        rw [encode_all_eq_nil.mp hrs.symm, List.append_nil]
    · have hpos : 0 < rest.length := List.length_pos_iff.mpr hnil
      rw [if_pos (by omega)]
      by_cases hrec : ∃ (r : JournalRecord) (tail : Bytes), rest = r.encode ++ tail
      · obtain ⟨r, tail, rfl⟩ := hrec
        have hfuel' : tail.length < fuel := by
          rw [List.length_append, r.encode_length] at hfuel
          omega
        by_cases hadm : Admits done r tail
        · rw [scan_record_encode hfit hadm, ok_bind, at_boundary_cons,
            ih (done ++ [r]) tail hfuel' (by rwa [at_boundary_cons] at hfit)]
          constructor
          · rintro ⟨rs, rfl, hord, rfl⟩
            refine ⟨r :: rs, rfl, ⟨hadm, hord⟩, ?_⟩
            rw [List.append_assoc, List.singleton_append]
          · rintro ⟨rs, hrs, hord, rfl⟩
            cases rs with
            | nil => exact absurd hrs hnil
            | cons r' rs =>
              obtain ⟨rfl, htail⟩ := encode_append_inj hrs
              refine ⟨rs, htail, hord.2, ?_⟩
              rw [List.append_assoc, List.singleton_append]
        · obtain ⟨e, he⟩ := scan_record_refuses hfit hadm
          rw [he, err_bind]
          refine ⟨nofun, ?_⟩
          rintro ⟨rs, hrs, hord, -⟩
          cases rs with
          | nil => exact absurd hrs hnil
          | cons r' rs =>
            obtain ⟨rfl, rfl⟩ := encode_append_inj hrs
            exact absurd hord.1 hadm
      · obtain ⟨e, he⟩ := scan_record_stuck hfit hrec
        rw [he, err_bind]
        refine ⟨nofun, ?_⟩
        rintro ⟨rs, hrs, -, -⟩
        cases rs with
        | nil => exact absurd hrs hnil
        | cons r rs => exact absurd ⟨r, encode_all rs, hrs⟩ hrec

/-- The loop comes to an end inside its fuel and never panics. -/
theorem scan_loop_returns (fuel : ℕ) (done : List JournalRecord) (rest : Bytes)
    (hfuel : rest.length < fuel) (hfit : (at_boundary done rest).length ≤ T.usize_max) :
    (scan_loop T (at_boundary done rest) fuel (state_after done)).Returns := by
  induction fuel generalizing done rest with
  | zero => exact absurd hfuel (Nat.not_lt_zero _)
  | succ fuel ih =>
    rw [scan_loop]
    split
    · by_cases hrec : ∃ (r : JournalRecord) (tail : Bytes), rest = r.encode ++ tail
      · obtain ⟨r, tail, rfl⟩ := hrec
        by_cases hadm : Admits done r tail
        · rw [scan_record_encode hfit hadm, ok_bind, at_boundary_cons]
          rw [at_boundary_cons] at hfit
          rw [List.length_append, r.encode_length] at hfuel
          exact ih (done ++ [r]) tail (by omega) hfit
        · obtain ⟨e, he⟩ := scan_record_refuses hfit hadm
          rw [he, err_bind]
          exact returns_err e
      · obtain ⟨e, he⟩ := scan_record_stuck hfit hrec
        rw [he, err_bind]
        exact returns_err e
    · exact returns_ok _

/-! ## The lifecycle

Some of it is checked at each record and some at the end. -/

/-- The in-loop checks, said of each record's place in the list. -/
theorem ordered_iff (done rs : List JournalRecord) :
    Ordered done rs ↔ ∀ front x back, rs = front ++ x :: back →
      (x.record_type = 1 → done ++ front = []) ∧
      (x.record_type = JOURNAL_SNAPSHOT_V1 → back = []) := by
  induction rs generalizing done with
  | nil => simp [Ordered]
  | cons r rs ih =>
    rw [Ordered, Admits, encode_all_eq_nil, ih]
    constructor
    · rintro ⟨hr, hrest⟩ front x back hsplit
      cases front with
      | nil =>
        obtain ⟨rfl, rfl⟩ := List.cons.inj hsplit
        rw [List.append_nil]
        exact hr
      | cons y front =>
        obtain ⟨rfl, rfl⟩ := List.cons.inj hsplit
        have := hrest front x back rfl
        rwa [List.append_assoc, List.singleton_append] at this
    · intro h
      refine ⟨?_, fun front x back hsplit => ?_⟩
      · have := h [] r rs rfl
        rwa [List.append_nil] at this
      · have := h (r :: front) x back (by rw [hsplit, List.cons_append])
        rwa [List.append_assoc, List.singleton_append]

theorem count_type_eq_zero {t : ℕ} : count_type t rs = 0 ↔ ∀ x ∈ rs, x.record_type ≠ t := by
  simp [count_type, List.countP_eq_zero]

/-- The final check of `scan_journal`, said of the records read. -/
def Complete (rs : List JournalRecord) : Prop :=
  count_type 1 rs = 1 ∧ count_type 3 rs ≠ 0 ∧ count_type JOURNAL_SNAPSHOT_V1 rs = 1 ∧
    rs.getLast?.map JournalRecord.record_type = some JOURNAL_SNAPSHOT_V1

/-- The in-loop and end-of-loop checks together are the lifecycle: neither half
says it alone. -/
theorem ordered_complete_iff (rs : List JournalRecord) :
    Ordered [] rs ∧ Complete rs ↔ Lifecycle rs := by
  rw [ordered_iff]
  constructor
  · rintro ⟨hord, hinit, hthread, -, hlast⟩
    refine ⟨?_, ?_, ?_⟩
    · -- Some record has type 1; the order puts it first, and any other too.
      have hex : ∃ x ∈ rs, x.record_type = 1 := by
        by_contra hno
        push Not at hno
        rw [count_type_eq_zero.mpr hno] at hinit
        exact absurd hinit (by decide)
      obtain ⟨x, hx, hx1⟩ := hex
      obtain ⟨front, back, rfl⟩ := List.append_of_mem hx
      have hfront : front = [] := (hord front x back rfl).1 hx1
      subst hfront
      refine ⟨x, back, rfl, hx1, fun y hy hy1 => ?_⟩
      obtain ⟨b1, b2, rfl⟩ := List.append_of_mem hy
      exact absurd ((hord (x :: b1) y b2 rfl).1 hy1) (by simp)
    · obtain ⟨r, hr, hr59⟩ := Option.map_eq_some_iff.mp hlast
      obtain ⟨front, rfl⟩ := List.getLast?_eq_some_iff.mp hr
      refine ⟨front, r, rfl, hr59, fun y hy hy59 => ?_⟩
      obtain ⟨f1, f2, rfl⟩ := List.append_of_mem hy
      have := (hord f1 y (f2 ++ [r]) (by simp)).2 hy59
      exact absurd this (by simp)
    · by_contra hno
      push Not at hno
      exact hthread (count_type_eq_zero.mpr hno)
  · rintro ⟨⟨r, rest, hcons, hr1, hrest⟩, ⟨front, l, hsnoc, hl59, hfront⟩, hthread⟩
    refine ⟨fun f x b hsplit => ⟨fun hx1 => ?_, fun hx59 => ?_⟩, ?_, ?_, ?_, ?_⟩
    · cases f with
      | nil => rfl
      | cons y f =>
        rw [hcons, List.cons_append, List.cons.injEq] at hsplit
        exact absurd hx1 (hrest x (by rw [hsplit.2]; simp))
    · -- A record before the last one would lie in `front`.
      by_contra hb
      obtain ⟨b', z, rfl⟩ := List.eq_nil_or_concat b |>.resolve_left hb
      rw [hsnoc, List.concat_eq_append, ← List.cons_append, ← List.append_assoc] at hsplit
      obtain ⟨hf, -⟩ := List.append_inj' hsplit rfl
      exact absurd hx59 (hfront x (by rw [hf]; simp))
    · have h0 : count_type 1 rest = 0 := count_type_eq_zero.mpr hrest
      rw [hcons]
      simpa [count_type, hr1] using h0
    · intro h0
      obtain ⟨x, hx, hx3⟩ := hthread
      exact absurd hx3 (count_type_eq_zero.mp h0 x hx)
    · rw [hsnoc, count_type_append_singleton, count_type_eq_zero.mpr hfront, if_pos hl59]
    · rw [hsnoc]
      simp [hl59]

/-! ## `scan_journal`

Overflow needs care in one direction only. Rust slices are no longer than `usize::MAX`, so a checked
addition that overflows is also one whose result lies past the end of the journal: the overflow
errors never reject anything that the truncation errors would have let through. -/

/-- Nothing that does not start with the marker is a journal. -/
theorem scan_journal_no_magic (h : ¬ ∃ rest, j = JOURNAL_MAGIC ++ rest) :
    ∃ e, scan_journal T j = .err e := by
  rw [scan_journal]
  by_cases hlen : j.length < JOURNAL_MAGIC.length
  · rw [decide_eq_true hlen, reject_true, err_bind]
    exact ⟨_, rfl⟩
  · have hslice : (slice j 0 JOURNAL_MAGIC.length : Exec Error Bytes)
        = .ok (j.take JOURNAL_MAGIC.length) := by
      rw [slice_of_le (Nat.zero_le _) (by omega), List.drop_zero, Nat.sub_zero]
    have hbad : (j.take JOURNAL_MAGIC.length != JOURNAL_MAGIC) = true := by
      rw [bne_iff_ne]
      intro heq
      refine h ⟨j.drop JOURNAL_MAGIC.length, ?_⟩
      nth_rewrite 1 [← List.take_append_drop JOURNAL_MAGIC.length j]
      rw [heq]
    rw [decide_eq_false hlen, reject_false, ok_bind, hslice, ok_bind, hbad,
      reject_true, err_bind]
    exact ⟨_, rfl⟩

/-- Past the marker, `scan_journal` is the loop and one final check. -/
theorem scan_journal_magic (T : Target) (rest : Bytes) :
    scan_journal T (at_boundary [] rest) = (do
      let st ← scan_loop T (at_boundary [] rest) ((at_boundary [] rest).length + 1)
        (state_after [])
      reject (st.init_module_records != 1 || st.set_thread_records == 0
          || st.snapshot_records != 1 || st.final_record != some JOURNAL_SNAPSHOT_V1)
        (.Checkpoint "checkpoint journal lifecycle is incomplete")) := by
  have hslice : (slice (at_boundary [] rest) 0 JOURNAL_MAGIC.length : Exec Error Bytes)
      = .ok JOURNAL_MAGIC := by
    rw [at_boundary, encode_all_nil, List.append_nil, ← List.nil_append (JOURNAL_MAGIC ++ rest)]
    exact slice_append rfl rfl
  have hlen : decide ((at_boundary [] rest).length < JOURNAL_MAGIC.length) = false := by
    rw [at_boundary_length, magic_length]
    simp
  have hsame : (JOURNAL_MAGIC != JOURNAL_MAGIC) = false := bne_self_eq_false _
  rw [scan_journal, hlen, reject_false, ok_bind, hslice, ok_bind, hsame,
    reject_false, ok_bind, state_after_nil]

/-- The end-of-loop check passes exactly on complete record lists. -/
theorem reject_incomplete_iff {e : Error} {u : Unit} :
    reject ((state_after rs).init_module_records != 1
        || (state_after rs).set_thread_records == 0
        || (state_after rs).snapshot_records != 1
        || (state_after rs).final_record != some JOURNAL_SNAPSHOT_V1) e = .ok u ↔
      Complete rs := by
  rw [reject_eq_ok]
  simp only [state_after, Bool.or_eq_false_iff, bne_eq_false_iff_eq, beq_eq_false_iff_ne,
    Complete, and_assoc]

/-- The scanner accepts exactly the journals of the grammar. -/
theorem scan_journal_ok_iff (hfit : j.length ≤ T.usize_max) :
    scan_journal T j = .ok () ↔
      ∃ rs : List JournalRecord, j = JOURNAL_MAGIC ++ encode_all rs ∧ Lifecycle rs := by
  by_cases hmagic : ∃ rest, j = JOURNAL_MAGIC ++ rest
  · obtain ⟨rest, rfl⟩ := hmagic
    have hat : JOURNAL_MAGIC ++ rest = at_boundary [] rest := by
      rw [at_boundary, encode_all_nil, List.append_nil]
    have hfuel : rest.length < (at_boundary [] rest).length + 1 := by
      rw [at_boundary_length]
      omega
    rw [hat] at hfit ⊢
    rw [scan_journal_magic, bind_eq_ok]
    simp only [scan_loop_ok_iff _ [] rest hfuel hfit]
    constructor
    · rintro ⟨st, ⟨rs, rfl, hord, rfl⟩, hfinal⟩
      refine ⟨rs, hat.symm, (ordered_complete_iff rs).mp ⟨hord, ?_⟩⟩
      exact reject_incomplete_iff.mp hfinal
    · rintro ⟨rs, hrs, hlife⟩
      obtain ⟨hord, hcomplete⟩ := (ordered_complete_iff rs).mpr hlife
      rw [← hat] at hrs
      refine ⟨state_after ([] ++ rs), ⟨rs, List.append_cancel_left hrs, hord, rfl⟩, ?_⟩
      exact reject_incomplete_iff.mpr hcomplete
  · obtain ⟨e, he⟩ := scan_journal_no_magic (T := T) hmagic
    rw [he]
    refine ⟨nofun, ?_⟩
    rintro ⟨rs, hj, -⟩
    exact absurd ⟨_, hj⟩ hmagic

/-- On every input the scan ends in a value or an error. -/
theorem scan_journal_returns (hfit : j.length ≤ T.usize_max) : (scan_journal T j).Returns := by
  by_cases hmagic : ∃ rest, j = JOURNAL_MAGIC ++ rest
  · obtain ⟨rest, rfl⟩ := hmagic
    have hat : JOURNAL_MAGIC ++ rest = at_boundary [] rest := by
      rw [at_boundary, encode_all_nil, List.append_nil]
    rw [hat] at hfit ⊢
    rw [scan_journal_magic]
    refine returns_bind ?_ (fun st _ => returns_reject _ _)
    refine scan_loop_returns _ [] rest ?_ hfit
    rw [at_boundary_length]
    omega
  · obtain ⟨e, he⟩ := scan_journal_no_magic (T := T) hmagic
    rw [he]
    exact returns_err e

/-- The scanner is a recogniser of the journal grammar: it accepts exactly the
journals of the grammar, a journal is one record list and no other, and on no input
does it index out of bounds, overflow or run on. -/
theorem scan_journal_recognises_grammar (T : Target) (j : Slice T) :
    (scan_journal T j.bytes = .ok () ↔
      ∃ rs : List JournalRecord, rs ≠ [] ∧ j.bytes = JOURNAL_MAGIC ++ encode_all rs ∧
        Lifecycle rs) ∧
    (∀ rs ss : List JournalRecord, j.bytes = JOURNAL_MAGIC ++ encode_all rs →
      j.bytes = JOURNAL_MAGIC ++ encode_all ss → rs = ss) ∧
    (scan_journal T j.bytes).Returns := by
  refine ⟨?_, ?_, scan_journal_returns j.len_le⟩
  · rw [scan_journal_ok_iff j.len_le]
    constructor
    · rintro ⟨rs, hj, hlife⟩
      refine ⟨rs, ?_, hj, hlife⟩
      rintro rfl
      obtain ⟨r, rest, hcons, -⟩ := hlife.initialised
      exact absurd hcons.symm (List.cons_ne_nil r rest)
    · rintro ⟨rs, -, hj, hlife⟩
      exact ⟨rs, hj, hlife⟩
  · intro rs ss hrs hss
    exact encode_all_inj (List.append_cancel_left (hrs.symm.trans hss))

end WasmRuntime.Journal
