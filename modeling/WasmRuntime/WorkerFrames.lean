/-
`wasix_worker.rs`, the worker's output pipe: how the worker writes a frame to it, how the parent
reads one back, and how the parent makes sure that nothing follows.
-/
import WasmRuntime.WorkerProtocol
import WasmRuntime.Monitor

set_option autoImplicit false

namespace WasmRuntime.Worker

open ByteCodec Prog Monitor

/-! ## Effects

The parent's side is a program over the pipe and the process behind it, the worker's one over the
pipe alone. -/

/-- What the parent does with the worker's standard output, its own memory and the worker
itself. `read` is one `read` into a buffer of `len` bytes. -/
inductive OutputOp where
  | read (len : ℕ)
  | try_reserve (len : ℕ)
  | wait
  | kill_tree
  | disarm

/-- What each effect is answered with. A read returns no more than it was asked for. -/
@[reducible] def OutputAnswer : OutputOp → Type
  | .read len => Except String { bytes : Bytes // bytes.length ≤ len }
  | .try_reserve _ => Except String Unit
  | .wait => Except String ExitStatus
  | .kill_tree => Unit
  | .disarm => Unit

/-- A program over these effects that may fail with an `ε`. -/
abbrev OutputM (ε : Type) := Fallible OutputOp OutputAnswer ε

/-- One call, and its answer. -/
def output (op : OutputOp) : Prog OutputOp OutputAnswer (OutputAnswer op) := perform op

/-- What the worker does with its standard output. -/
inductive WriterOp where
  | write_all (bytes : Bytes)
  | flush

/-- What each effect is answered with. -/
@[reducible] def WriterAnswer : WriterOp → Type
  | .write_all _ => Except String Unit
  | .flush => Except String Unit

/-- A program of the worker over its standard output. -/
abbrev WriterM := Fallible WriterOp WriterAnswer String

/-- One call, and its answer. -/
def call_writer (op : WriterOp) : Prog WriterOp WriterAnswer (WriterAnswer op) := perform op

/-! ## The parent reads a frame

A read may deliver any number of bytes, so `read_exact` is a loop, here a recursion on fuel; a read
that delivers nothing ends it, so the length asked for is enough fuel. The source has two frame
readers, with their own limits and their own failures: one program with parameters. -/

/-- The loop of `AsyncReadExt::read_exact`: so many bytes are missing and `read` has been
read. -/
def read_exact_loop : ℕ → ℕ → Bytes → OutputM String Bytes
  | 0, _, read => pure read
  | fuel + 1, missing, read =>
    if missing = 0 then pure read
    else do
      let bytes ← Fallible.orElse id (output (.read missing))
      Fallible.reject bytes.val.isEmpty "early eof"
      read_exact_loop fuel (missing - bytes.val.length) (read ++ bytes.val)

/-- `AsyncReadExt::read_exact`. -/
def read_exact (len : ℕ) : OutputM String Bytes := read_exact_loop len len []

/-- The messages in which the frame readers differ. -/
structure FrameMessages where
  cannot_read_length : String
  invalid_length : ℕ → String
  cannot_allocate : String
  cannot_read : String

/-- What both frame readers do: the length, the memory, the bytes. -/
def read_length_prefixed (W : Env) (m : FrameMessages) (invalid : ℕ → Bool) :
    OutputM Error Bytes := do
  let header ← Fallible.orElse (fun error => .Execution (m.cannot_read_length ++ error))
    (read_exact 4)
  let length := (Exec.tryFrom W.usize_max (beVal header)).getD W.usize_max
  Fallible.reject (invalid length) (.Execution (m.invalid_length length))
  Fallible.orElse (fun error => .Execution (m.cannot_allocate ++ error))
    (output (.try_reserve length))
  Fallible.orElse (fun error => .Execution (m.cannot_read ++ error)) (read_exact length)

def read_frame (W : Env) : OutputM Error Bytes :=
  read_length_prefixed W {
    cannot_read_length := "failed to read WASIX worker frame length: "
    invalid_length := fun length => "WASIX worker frame length " ++ Nat.repr length ++ " is invalid"
    cannot_allocate := "failed to allocate WASIX worker frame: "
    cannot_read := "failed to read WASIX worker frame: " }
    fun length => length == 0 || decide (length > MAX_HANDSHAKE_BYTES)

def read_bounded_worker_frame (W : Env) (maximum : ℕ) (allow_empty : Bool) (label : String) :
    OutputM Error Bytes :=
  read_length_prefixed W {
    cannot_read_length := "failed to read WASIX " ++ label ++ " length: "
    invalid_length := fun length => "WASIX " ++ label ++ " length " ++ Nat.repr length
      ++ " is invalid"
    cannot_allocate := "failed to allocate WASIX " ++ label ++ ": "
    cannot_read := "failed to read WASIX " ++ label ++ ": " }
    fun length => (!allow_empty && length == 0) || decide (length > maximum)

def read_restore_output_frame (W : Env) (stream : String) : OutputM Error Bytes :=
  read_bounded_worker_frame W WASIX_WORKER_MAX_RESTORE_OUTPUT_BYTES true ("restore " ++ stream)

/-! ## The parent finishes

The two ways to finish, likewise. -/

/-- The failures in which the two ways to finish differ. -/
structure FinishFailures (ε : Type) where
  cannot_finish : String → ε
  trailing : ε
  cannot_wait : String → ε
  exited : ExitStatus → ε

/-- What both do: one more read, which must find the end of the pipe, then the exit status. -/
def finish_output {ε : Type} (f : FinishFailures ε) : OutputM ε Unit := do
  let trailing ← Fallible.orElse f.cannot_finish (output (.read 1))
  Fallible.reject (trailing.val.length != 0) f.trailing
  let status ← Fallible.orElse f.cannot_wait (output .wait)
  Fallible.run (output .kill_tree)
  Fallible.run (output .disarm)
  Fallible.reject (!status.success) (f.exited status)

def finish_worker_output (W : Env) (operation : String) : OutputM Error Unit :=
  finish_output {
    cannot_finish := fun error =>
      .Execution ("failed to finish WASIX worker " ++ operation ++ ": " ++ error)
    trailing := .Execution ("WASIX worker emitted trailing " ++ operation ++ " bytes")
    cannot_wait := fun error =>
      .Execution ("failed to wait for WASIX worker " ++ operation ++ ": " ++ error)
    exited := fun status =>
      .Execution ("WASIX worker " ++ operation ++ " exited with " ++ W.display_status status) }

/-! ## The worker writes a frame

The length and the message are two writes. -/

/-- What both frame writers do once a frame is within their limit. -/
def write_length_prefixed (exceeds cannot_write : String) (message : Bytes) : WriterM Unit := do
  let length ← Fallible.ok_or exceeds (Exec.tryFrom u32_max message.length)
  Fallible.orElse (cannot_write ++ ·) (call_writer (.write_all (be 4 length)))
  Fallible.orElse (cannot_write ++ ·) (call_writer (.write_all message))
  Fallible.orElse (cannot_write ++ ·) (call_writer .flush)

def write_worker_frame (message : Bytes) : WriterM Unit := do
  Fallible.reject (decide (message.length > MAX_HANDSHAKE_BYTES))
    "worker metadata exceeds the protocol frame limit"
  write_length_prefixed "worker metadata exceeds the protocol frame limit"
    "cannot write worker metadata: " message

def write_worker_bounded_frame (message : Bytes) (maximum : ℕ) (allow_empty : Bool)
    (label : String) : WriterM Unit := do
  Fallible.reject ((!allow_empty && message.isEmpty) || decide (message.length > maximum))
    (label ++ " exceeds the protocol frame limit")
  write_length_prefixed (label ++ " exceeds the protocol frame limit")
    ("cannot write " ++ label ++ ": ") message

def write_worker_output_frame (message : Bytes) (label : String) : WriterM Unit :=
  write_worker_bounded_frame message WASIX_WORKER_MAX_RESTORE_OUTPUT_BYTES true label

/-! ## Histories

By `hearing` the parent knows nothing about the worker: any bytes, any errors, any exit status. By
`delivering s` the worker has written `s` and closed the pipe, and what varies is how the bytes of
`s` are cut into reads. -/

/-- What the parent has heard from a worker: the bytes that were delivered, whether a read
found the end of the pipe, and the exit status. -/
structure Heard where
  stream : Bytes
  ended : Bool
  status : Option ExitStatus
  deriving DecidableEq

/-- Nothing yet. -/
def Heard.start : Heard := ⟨[], false, none⟩

/-- More bytes were delivered. -/
def Heard.hear (h : Heard) (bytes : Bytes) : Heard := { h with stream := h.stream ++ bytes }

/-- The end of the pipe was found and the worker has exited. -/
def Heard.finish (h : Heard) (status : ExitStatus) : Heard :=
  { h with ended := true, status := some status }

/-- What an effect and its answer add. -/
def Heard.after (h : Heard) : (op : OutputOp) → OutputAnswer op → Heard
  | .read len, .ok bytes =>
    { h with
      stream := h.stream ++ bytes.val
      ended := h.ended || (decide (0 < len) && bytes.val.isEmpty) }
  | .wait, .ok status => { h with status := some status }
  | _, _ => h

/-- Any worker at all. -/
def hearing : Monitor Heard OutputOp OutputAnswer where
  ok _ _ _ := True
  after := Heard.after

/-- A worker that has written `s`, closed its pipe and exited with 0, in a world where memory
is to be had: a read delivers a piece of what is left, and an empty one only when nothing is
left. -/
def delivering (s : Bytes) : Monitor Heard OutputOp OutputAnswer where
  ok h op r :=
    match op, r with
    | .read len, .ok bytes =>
      h.stream ++ bytes.val <+: s ∧ (0 < len → bytes.val = [] → h.stream = s)
    | .read _, .error _ => False
    | .try_reserve _, r => r = .ok ()
    | .wait, r => r = .ok (.exited 0)
    | _, _ => True
  after := Heard.after

/-- The worker's pipe while it takes what is written. -/
def writing : Monitor Bytes WriterOp WriterAnswer where
  ok _ op r :=
    match op, r with
    | .write_all _, r => r = .ok ()
    | .flush, r => r = .ok ()
  after w op _ :=
    match op with
    | .write_all bytes => w ++ bytes
    | .flush => w

/-- No guard. -/
def anyEffect {σ E : Type} : σ → E → Prop := fun _ _ => True

theorem Heard.hear_hear (h : Heard) (a b : Bytes) : (h.hear a).hear b = h.hear (a ++ b) := by
  simp [Heard.hear]

theorem Heard.hear_nil (h : Heard) : h.hear [] = h := by simp [Heard.hear]

variable {h : Heard} {s message : Bytes}

/-- A piece that is not empty. -/
theorem Heard.after_read {len : ℕ} {bytes : { bytes : Bytes // bytes.length ≤ len }}
    (hne : bytes.val.isEmpty = false) : h.after (.read len) (.ok bytes) = h.hear bytes.val := by
  simp [Heard.after, Heard.hear, hne]

/-! ## What was returned was on the wire

The lemmas about the readers by `hearing`. -/

/-- One call, by its effect. -/
theorem output_upholds {M : Monitor Heard OutputOp OutputAnswer} (op : OutputOp)
    {Q : OutputAnswer op → Heard → Prop} (hQ : ∀ r, M.ok h op r → Q r (M.after h op r)) :
    M.Upholds anyEffect Q (output op) h := Upholds.perform trivial hQ

/-- The loop returns what it had and exactly the bytes that were delivered meanwhile. -/
theorem read_exact_loop_hears (fuel missing : ℕ) (read : Bytes) (h : Heard)
    (hfuel : missing ≤ fuel) :
    hearing.Upholds anyEffect
      (Post fun bytes h' => ∃ more, bytes = read ++ more ∧ more.length = missing ∧ h' = h.hear more)
      (read_exact_loop fuel missing read) h := by
  induction fuel generalizing missing read h with
  | zero =>
    obtain rfl : missing = 0 := by omega
    exact ⟨[], (List.append_nil read).symm, rfl, h.hear_nil.symm⟩
  | succ fuel ih =>
    unfold read_exact_loop
    by_cases hzero : missing = 0
    · rw [if_pos hzero]
      exact ⟨[], (List.append_nil read).symm, hzero.symm, h.hear_nil.symm⟩
    · rw [if_neg hzero]
      refine .bindF (Q := fun bytes h' => h' = h.after (.read missing) (.ok bytes))
        (.orElse (output_upholds (.read missing) ?_)) ?_
      · intro r _
        cases r with
        | error e => exact trivial
        | ok bytes => exact rfl
      rintro ⟨bytes, hle⟩ _ rfl
      refine .bindF (.reject _ _ _) ?_
      rintro _ _ ⟨rfl, hnonempty⟩
      rw [Heard.after_read hnonempty]
      -- Something was delivered, so the fuel that is left covers what is missing.
      have hpos : 0 < bytes.length := by
        rw [List.isEmpty_eq_false_iff] at hnonempty
        exact List.length_pos_iff.mpr hnonempty
      refine .monoF (ih (missing - bytes.length) (read ++ bytes) _ (by omega)) ?_
      rintro _ _ ⟨more, rfl, hlen, rfl⟩
      refine ⟨bytes ++ more, List.append_assoc _ _ _, ?_, h.hear_hear bytes more⟩
      rw [List.length_append, hlen]
      omega

theorem read_exact_hears (len : ℕ) (h : Heard) :
    hearing.Upholds anyEffect (Post fun bytes h' => bytes.length = len ∧ h' = h.hear bytes)
      (read_exact len) h := by
  refine .monoF (read_exact_loop_hears len len [] h (le_refl len)) ?_
  rintro _ _ ⟨more, rfl, hlen, rfl⟩
  exact ⟨hlen, rfl⟩

/-- A length that four bytes can hold is a `usize`. -/
theorem length_of_header (W : Env) {header : Bytes} (h : header.length = 4) :
    (Exec.tryFrom W.usize_max (beVal header)).getD W.usize_max = beVal header := by
  have hlt := beVal_lt header
  have hmax := W.u32_max_le_usize_max
  have hpow : 256 ^ 4 = u32_max + 1 := by decide
  rw [h, hpow] at hlt
  rw [Exec.tryFrom_of_le (by omega)]
  rfl

/-- A frame that was returned is within the reader's limits and is what was delivered, with its
length in front. -/
theorem read_length_prefixed_hears (W : Env) (m : FrameMessages) (invalid : ℕ → Bool) (h : Heard) :
    hearing.Upholds anyEffect
      (Post fun message h' => invalid message.length = false ∧ h' = h.hear (frame message))
      (read_length_prefixed W m invalid) h := by
  unfold read_length_prefixed
  refine .bindF (.orElse (read_exact_hears 4 h)) ?_
  rintro header _ ⟨hheader, rfl⟩
  rw [length_of_header W hheader]
  refine .bindF (.reject _ _ _) ?_
  rintro _ _ ⟨rfl, hvalid⟩
  refine .bindF (Q := fun _ h' => h' = h.hear header)
    (.orElse (output_upholds (.try_reserve _) ?_)) ?_
  · intro r _
    cases r with
    | error e => exact trivial
    | ok u => exact rfl
  rintro _ _ rfl
  refine .monoF (.orElse (read_exact_hears _ _)) ?_
  rintro message _ ⟨hlen, rfl⟩
  rw [hlen, frame_eq hheader hlen]
  exact ⟨hvalid, h.hear_hear header message⟩

/-- After a finish the pipe is at its end and the worker has exited with success. -/
theorem finish_output_hears {ε : Type} (f : FinishFailures ε) (h : Heard) :
    hearing.Upholds anyEffect
      (Post fun _ h' => ∃ status : ExitStatus, status.success = true ∧ h' = h.finish status)
      (finish_output f) h := by
  unfold finish_output
  refine .bindF (Q := fun bytes h' => h' = h.after (.read 1) (.ok bytes))
    (.orElse (output_upholds (.read 1) ?_)) ?_
  · intro r _
    cases r with
    | error e => exact trivial
    | ok bytes => exact rfl
  rintro ⟨trailing, hle⟩ _ rfl
  refine .bindF (.reject _ _ _) ?_
  rintro _ _ ⟨rfl, hempty⟩
  obtain rfl : trailing = [] := by simpa using hempty
  refine .bindF (Q := fun status h' => h' = h.finish status)
    (.orElse (output_upholds .wait ?_)) ?_
  · intro r _
    cases r with
    | error e => exact trivial
    | ok status => simp [Post, hearing, Heard.after, Heard.finish]
  rintro status _ rfl
  refine .bindF (Q := fun _ h' => h' = h.finish status)
    (.run (output_upholds .kill_tree fun _ _ => rfl)) ?_
  rintro _ _ rfl
  refine .bindF (Q := fun _ h' => h' = h.finish status)
    (.run (output_upholds .disarm fun _ _ => rfl)) ?_
  rintro _ _ rfl
  refine .monoF (.reject _ _ _) ?_
  rintro _ _ ⟨rfl, hstatus⟩
  exact ⟨status, by simpa using hstatus, rfl⟩

/-! ## What is on the wire is returned

The same readers by `delivering s`. -/

/-- Of two continuations of one stream the shorter begins the longer. -/
theorem prefix_of_next {front bytes more : Bytes} (hbytes : front ++ bytes <+: s)
    (hmore : front ++ more <+: s) (hle : bytes.length ≤ more.length) : bytes <+: more := by
  have hbegin : front ++ bytes <+: front ++ more := by
    apply List.prefix_of_prefix_length_le hbytes hmore
    rw [List.length_append, List.length_append]
    omega
  exact (List.prefix_append_right_inj front).mp hbegin

/-- A read before the end of the stream delivers the next bytes of it, and not none of them. -/
theorem read_delivers {more : Bytes} {missing : ℕ} (hpos : 0 < missing)
    (hlen : more.length = missing) (hnext : h.stream ++ more <+: s) :
    (delivering s).Upholds anyEffect
      (Must fun bytes h' =>
        bytes.val.isEmpty = false ∧ bytes.val <+: more ∧ h' = h.hear bytes.val)
      (output (.read missing)) h := by
  apply output_upholds
  intro r hr
  cases r with
  | error e => exact hr.elim
  | ok bytes =>
    obtain ⟨hbegin, hend⟩ := hr
    have hnonempty : bytes.val.isEmpty = false := by
      rw [List.isEmpty_eq_false_iff]
      intro hnil
      -- Nothing would be left to deliver, and yet something is missing.
      have hle := hnext.length_le
      rw [← hend hpos hnil, List.length_append] at hle
      omega
    refine ⟨hnonempty, prefix_of_next hbegin hnext ?_, Heard.after_read hnonempty⟩
    rw [hlen]
    exact bytes.2

/-- The loop returns what it had and the next bytes of the stream, in whatever pieces they
come. -/
theorem read_exact_loop_delivers (fuel missing : ℕ) (read more : Bytes) (h : Heard)
    (hfuel : missing ≤ fuel) (hlen : more.length = missing) (hnext : h.stream ++ more <+: s) :
    (delivering s).Upholds anyEffect (Must fun bytes h' => bytes = read ++ more ∧ h' = h.hear more)
      (read_exact_loop fuel missing read) h := by
  induction fuel generalizing missing read more h with
  | zero =>
    obtain rfl : more = [] := List.eq_nil_of_length_eq_zero (by omega)
    exact ⟨(List.append_nil read).symm, h.hear_nil.symm⟩
  | succ fuel ih =>
    unfold read_exact_loop
    by_cases hzero : missing = 0
    · obtain rfl : more = [] := List.eq_nil_of_length_eq_zero (by omega)
      rw [if_pos hzero]
      exact ⟨(List.append_nil read).symm, h.hear_nil.symm⟩
    · rw [if_neg hzero]
      refine .bindM (.orElseM (read_delivers (by omega) hlen hnext)) ?_
      rintro ⟨bytes, hle⟩ _ ⟨hnonempty, ⟨rest, rfl⟩, rfl⟩
      refine .bindM (.rejectM hnonempty _ _) ?_
      rintro _ _ rfl
      -- Something was read, so the fuel that is left is enough for what is missing.
      have hpos : 0 < bytes.length := by
        rw [List.isEmpty_eq_false_iff] at hnonempty
        exact List.length_pos_iff.mpr hnonempty
      simp only [List.length_append] at hlen
      refine .monoM (ih (missing - bytes.length) (read ++ bytes) rest _ (by omega)
        (by omega) ?_) ?_
      · rw [Heard.hear, List.append_assoc]
        exact hnext
      · rintro _ _ ⟨rfl, rfl⟩
        exact ⟨List.append_assoc _ _ _, h.hear_hear bytes rest⟩

theorem read_exact_delivers (more : Bytes) (h : Heard) (hnext : h.stream ++ more <+: s) :
    (delivering s).Upholds anyEffect (Must fun bytes h' => bytes = more ∧ h' = h.hear more)
      (read_exact more.length) h :=
  read_exact_loop_delivers more.length more.length [] more h (le_refl _) rfl hnext

theorem beVal_header (hsize : message.length ≤ u32_max) :
    beVal (be 4 message.length) = message.length := by
  have hpow : 256 ^ 4 = u32_max + 1 := by decide
  exact be_val 4 _ (by omega)

/-- The length in front of a frame. -/
theorem header_delivers (hnext : h.stream ++ frame message <+: s) :
    (delivering s).Upholds anyEffect
      (Must fun bytes h' => bytes = be 4 message.length ∧ h' = h.hear (be 4 message.length))
      (read_exact 4) h := by
  have hread := read_exact_delivers (s := s) (be 4 message.length) h ?_
  · rw [be_length] at hread
    exact hread
  · refine List.IsPrefix.trans ?_ hnext
    rw [frame, ← List.append_assoc]
    exact List.prefix_append _ _

/-- A frame within the reader's limits is returned. -/
theorem read_length_prefixed_delivers (W : Env) (m : FrameMessages) {invalid : ℕ → Bool}
    (hsize : message.length ≤ u32_max) (hvalid : invalid message.length = false)
    (hnext : h.stream ++ frame message <+: s) :
    (delivering s).Upholds anyEffect
      (Must fun bytes h' => bytes = message ∧ h' = h.hear (frame message))
      (read_length_prefixed W m invalid) h := by
  unfold read_length_prefixed
  refine .bindM (.orElseM (header_delivers hnext)) ?_
  rintro _ _ ⟨rfl, rfl⟩
  rw [length_of_header W (be_length 4 _), beVal_header hsize]
  refine .bindM (.rejectM hvalid _ _) ?_
  rintro _ _ rfl
  refine .bindM (Q := fun _ h' => h' = h.hear (be 4 message.length))
    (.orElseM (output_upholds (.try_reserve _) ?_)) ?_
  · rintro _ rfl
    exact rfl
  rintro _ _ rfl
  refine .monoM (.orElseM (read_exact_delivers message _ ?_)) ?_
  · rw [Heard.hear, List.append_assoc]
    exact hnext
  · rintro _ _ ⟨rfl, rfl⟩
    exact ⟨rfl, h.hear_hear _ _⟩

/-- At the end of the stream a finish succeeds. -/
theorem finish_output_delivers {ε : Type} (f : FinishFailures ε) (hend : h.stream = s) :
    (delivering s).Upholds anyEffect (Must fun _ h' => h' = h.finish (.exited 0))
      (finish_output f) h := by
  unfold finish_output
  refine .bindM (Q := fun bytes h' => bytes.val = [] ∧ h' = { h with ended := true })
    (.orElseM (output_upholds (.read 1) ?_)) ?_
  · intro r hr
    cases r with
    | error e => exact hr.elim
    | ok bytes =>
      -- The whole stream was read, so there is no byte for the probe.
      have hle := hr.1.length_le
      rw [hend, List.length_append] at hle
      have hnil : bytes.val = [] := List.eq_nil_of_length_eq_zero (by omega)
      refine ⟨hnil, ?_⟩
      simp [delivering, Heard.after, hnil]
  rintro bytes _ ⟨hnil, rfl⟩
  refine .bindM (.rejectM (by rw [hnil]; rfl) _ _) ?_
  rintro _ _ rfl
  refine .bindM (Q := fun status h' => status = .exited 0 ∧ h' = h.finish status)
    (.orElseM (output_upholds .wait ?_)) ?_
  · rintro _ rfl
    exact ⟨rfl, rfl⟩
  rintro _ _ ⟨rfl, rfl⟩
  refine .bindM (Q := fun _ h' => h' = h.finish (.exited 0))
    (.runM (output_upholds .kill_tree fun _ _ => rfl)) ?_
  rintro _ _ rfl
  refine .bindM (Q := fun _ h' => h' = h.finish (.exited 0))
    (.runM (output_upholds .disarm fun _ _ => rfl)) ?_
  rintro _ _ rfl
  exact .monoM (.rejectM rfl _ _) fun _ _ => Eq.symm

/-- A frame outside the reader's limits is refused. -/
theorem read_length_prefixed_refuses (W : Env) (m : FrameMessages) {invalid : ℕ → Bool}
    (hsize : message.length ≤ u32_max) (hinvalid : invalid message.length = true)
    (hnext : h.stream ++ frame message <+: s) :
    (delivering s).Upholds anyEffect (fun r _ => ∃ e, r = .error e)
      (read_length_prefixed W m invalid) h := by
  unfold read_length_prefixed
  refine .bindM (.orElseM (header_delivers hnext)) ?_
  rintro _ _ ⟨rfl, rfl⟩
  rw [length_of_header W (be_length 4 _), beVal_header hsize]
  simp only [hinvalid, Fallible.reject_true_bind]
  exact ⟨_, rfl⟩

/-- What a worker delivers, it delivers to the end. -/
theorem delivering_yields {α : Type} {Q : α → Heard → Prop} {p : Prog OutputOp OutputAnswer α}
    (h : (delivering s).Upholds anyEffect Q p Heard.start) :
    (delivering s).Yields Q p Heard.start := by
  refine Upholds.yields (I := fun h => h.stream <+: s) h (List.nil_prefix) ?_ ?_
  · intro h op r hbegin hr
    match op, r with
    | .read len, .ok bytes => exact hr.1
    | .read len, .error e => exact hr.elim
    | .try_reserve len, .ok u => exact hbegin
    | .try_reserve len, .error e => exact hbegin
    | .wait, .ok status => exact hbegin
    | .wait, .error e => exact hbegin
    | .kill_tree, u => exact hbegin
    | .disarm, u => exact hbegin
  · rintro h op ⟨rest, rfl⟩
    cases op with
    -- A read can be answered with all that is left, up to what was asked for.
    | read len =>
      refine ⟨.ok ⟨rest.take len, List.length_take_le len rest⟩, ?_, ?_⟩
      · exact (List.prefix_append_right_inj _).mpr (List.take_prefix len rest)
      · intro hpos hnil
        have hrest : rest = [] := by
          rw [List.take_eq_nil_iff] at hnil
          exact hnil.resolve_left (by omega)
        rw [hrest, List.append_nil]
    | try_reserve len => exact ⟨.ok (), rfl⟩
    | wait => exact ⟨.ok (.exited 0), rfl⟩
    | kill_tree => exact ⟨(), trivial⟩
    | disarm => exact ⟨(), trivial⟩

/-! ## What the worker writes

A frame, or nothing if its length is refused. -/

/-- One call, by its effect. -/
theorem call_writer_upholds {w : Bytes} (op : WriterOp) {Q : WriterAnswer op → Bytes → Prop}
    (hQ : ∀ r, writing.ok w op r → Q r (writing.after w op r)) :
    writing.Upholds anyEffect Q (call_writer op) w := Upholds.perform trivial hQ

/-- A message whose length is a `u32` is written as its frame. -/
theorem write_length_prefixed_writes (exceeds cannot_write : String)
    (hsize : message.length ≤ u32_max) (w : Bytes) :
    writing.Upholds anyEffect (Must fun _ w' => w' = w ++ frame message)
      (write_length_prefixed exceeds cannot_write message) w := by
  unfold write_length_prefixed
  refine .bindM (.ok_orM (Exec.tryFrom_of_le hsize) _ w) ?_
  rintro _ _ ⟨rfl, rfl⟩
  refine .bindM (Q := fun _ w' => w' = w ++ be 4 message.length)
    (.orElseM (call_writer_upholds (.write_all _) ?_)) ?_
  · rintro _ rfl
    exact rfl
  rintro _ _ rfl
  refine .bindM (Q := fun _ w' => w' = w ++ frame message)
    (.orElseM (call_writer_upholds (.write_all _) ?_)) ?_
  · rintro _ rfl
    exact List.append_assoc _ _ _
  rintro _ _ rfl
  refine .orElseM (call_writer_upholds .flush ?_)
  rintro _ rfl
  exact rfl

theorem write_worker_frame_writes (hsize : message.length ≤ MAX_HANDSHAKE_BYTES) (w : Bytes) :
    writing.Upholds anyEffect (Must fun _ w' => w' = w ++ frame message)
      (write_worker_frame message) w := by
  have hmax : MAX_HANDSHAKE_BYTES ≤ u32_max := by decide
  unfold write_worker_frame
  refine .bindM (.rejectM (decide_eq_false (by omega)) _ w) ?_
  rintro _ _ rfl
  exact write_length_prefixed_writes _ _ (by omega) w

theorem write_worker_bounded_frame_writes {maximum : ℕ} {allow_empty : Bool} (label : String)
    (hempty : allow_empty = true ∨ 1 ≤ message.length) (hsize : message.length ≤ maximum)
    (hmax : maximum ≤ u32_max) (w : Bytes) :
    writing.Upholds anyEffect (Must fun _ w' => w' = w ++ frame message)
      (write_worker_bounded_frame message maximum allow_empty label) w := by
  unfold write_worker_bounded_frame
  refine .bindM (.rejectM ?_ _ w) ?_
  · rw [decide_eq_false (by omega), Bool.or_false, Bool.and_eq_false_iff]
    refine hempty.imp ?_ ?_
    · rintro rfl
      rfl
    · intro hpos
      rw [List.isEmpty_eq_false_iff]
      exact List.length_pos_iff.mp hpos
  rintro _ _ rfl
  exact write_length_prefixed_writes _ _ (by omega) w

/-- A message outside the writer's limits is refused before anything is written. -/
theorem write_worker_bounded_frame_refuses {maximum : ℕ} {allow_empty : Bool} (label : String)
    (h : ¬ ((allow_empty = true ∨ 1 ≤ message.length) ∧ message.length ≤ maximum)) (w : Bytes) :
    writing.Upholds anyEffect (fun r w' => (∃ e, r = .error e) ∧ w' = w)
      (write_worker_bounded_frame message maximum allow_empty label) w := by
  have hbad : ((!allow_empty && message.isEmpty) || decide (message.length > maximum)) = true := by
    rw [Bool.or_eq_true, Bool.and_eq_true, decide_eq_true_eq, List.isEmpty_iff_length_eq_zero]
    cases allow_empty with
    | true => simp only [true_or, true_and] at h; exact .inr (by omega)
    | false =>
      simp only [Bool.false_eq_true, false_or] at h
      by_cases hzero : message.length = 0
      · exact .inl ⟨rfl, hzero⟩
      · exact .inr (by omega)
  unfold write_worker_bounded_frame
  rw [hbad]
  exact ⟨⟨_, rfl⟩, rfl⟩

theorem writing_yields {α : Type} {Q : α → Bytes → Prop} {p : Prog WriterOp WriterAnswer α}
    {w : Bytes} (h : writing.Upholds anyEffect Q p w) : writing.Yields Q p w := by
  refine Upholds.yields (I := fun _ => True) h trivial (fun _ _ _ _ _ => trivial) ?_
  intro w op _
  cases op with
  | write_all bytes => exact ⟨.ok (), rfl⟩
  | flush => exact ⟨.ok (), rfl⟩

end WasmRuntime.Worker
