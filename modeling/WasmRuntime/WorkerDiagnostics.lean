/-
`read_worker_diagnostics`: the task that reads the worker's standard error.

The task reads into a buffer of 4096 bytes until a read finds the end of the pipe. It keeps the
first `WASIX_WORKER_MAX_DIAGNOSTIC_BYTES` bytes and drops the rest, so that a worker that writes
without end is drained and not stored.
-/
import WasmRuntime.Crate
import WasmRuntime.Monitor

set_option autoImplicit false

namespace WasmRuntime.Worker

open Prog

/-! ## The program

The loop has no bound of its own, so the program is given a patience, and one that is out of
patience asks for an effect that is never answered; one more read than there are bytes is always
enough. -/

def WASIX_WORKER_MAX_DIAGNOSTIC_BYTES : ℕ := 16 * 1024

/-- What the task does with its own memory and the worker's standard error. `read` is one `read`
into a buffer of `len` bytes. -/
inductive StderrOp where
  | try_reserve_exact (len : ℕ)
  | read (len : ℕ)
  | abort

/-- What each effect is answered with. A read returns no more than it was asked for. -/
@[reducible] def StderrAnswer : StderrOp → Type
  | .try_reserve_exact _ => Except String Unit
  | .read len => Except String { bytes : Bytes // bytes.length ≤ len }
  | .abort => Empty

/-- A program over these effects that may fail with a `std::io::Error`, which is its text. -/
abbrev StderrM := Fallible StderrOp StderrAnswer String

/-- One call, and its answer. -/
def call_stderr (op : StderrOp) : Prog StderrOp StderrAnswer (StderrAnswer op) := perform op

/-- The body of the loop after a read that delivered `read`. -/
def retain (kept : WasixWorkerDiagnostics) (read : Bytes) : WasixWorkerDiagnostics :=
  let remaining := WASIX_WORKER_MAX_DIAGNOSTIC_BYTES - kept.bytes.length
  let retained := min read.length remaining
  { bytes := kept.bytes ++ read.take retained
    truncated := kept.truncated || retained != read.length }

/-- The loop, with `kept` for the variables `bytes` and `truncated`. -/
def diagnostics_loop : ℕ → WasixWorkerDiagnostics → StderrM WasixWorkerDiagnostics
  | 0, _ => .vis .abort fun answer => answer.elim
  | patience + 1, kept => do
      let read ← Fallible.orElse id (call_stderr (.read 4096))
      if read.val.isEmpty then pure kept
      else diagnostics_loop patience (retain kept read.val)

def read_worker_diagnostics (patience : ℕ) : StderrM WasixWorkerDiagnostics := do
  Fallible.orElse ("diagnostic allocation failed: " ++ ·)
    (call_stderr (.try_reserve_exact WASIX_WORKER_MAX_DIAGNOSTIC_BYTES))
  diagnostics_loop patience ⟨[], false⟩

/-! ## What one read does

What the loop makes of one read is `retain`, and one fact about it carries everything: what is kept
of `a`, after a read of `b`, is what is kept of `a ++ b` (`retain_kept`). -/

/-- The diagnostics of a worker that wrote `stream`: its beginning, and whether that is all. -/
def kept_of (stream : Bytes) : WasixWorkerDiagnostics where
  bytes := stream.take WASIX_WORKER_MAX_DIAGNOSTIC_BYTES
  truncated := decide (WASIX_WORKER_MAX_DIAGNOSTIC_BYTES < stream.length)

theorem kept_of_length (stream : Bytes) :
    (kept_of stream).bytes.length = min stream.length WASIX_WORKER_MAX_DIAGNOSTIC_BYTES := by
  unfold kept_of
  rw [List.length_take, Nat.min_comm]

/-- The cap may fall before the read, inside it or after it: what is kept is the beginning of
all that was read. -/
theorem retain_kept (stream read : Bytes) :
    retain (kept_of stream) read = kept_of (stream ++ read) := by
  unfold retain
  rw [kept_of_length]
  unfold kept_of
  have hroom : WASIX_WORKER_MAX_DIAGNOSTIC_BYTES -
      min stream.length WASIX_WORKER_MAX_DIAGNOSTIC_BYTES =
      WASIX_WORKER_MAX_DIAGNOSTIC_BYTES - stream.length := by omega
  rw [hroom]
  dsimp only
  congr 1
  · -- Taking no more than there is takes the same.
    rw [List.take_append]
    congr 1
    by_cases hfits : read.length ≤ WASIX_WORKER_MAX_DIAGNOSTIC_BYTES - stream.length
    · rw [Nat.min_eq_left hfits, List.take_length, List.take_of_length_le hfits]
    · rw [Nat.min_eq_right (by omega)]
  · -- Something of this read was dropped, or of an earlier one, exactly past the cap.
    rw [List.length_append, Bool.eq_iff_iff]
    simp only [Bool.or_eq_true, decide_eq_true_eq, bne_iff_ne, ne_eq]
    omega

/-! ## Every way of cutting the stream into reads

How the bytes are cut is up to the kernel, and the cap may fall anywhere inside a read. -/

/-- What the task has seen: the bytes that were delivered, and whether a read found the end. -/
structure Drained where
  stream : Bytes
  ended : Bool
  deriving DecidableEq

/-- Nothing yet. -/
def Drained.start : Drained := ⟨[], false⟩

/-- A worker that writes `s` to its standard error and closes it, in a world where memory is to
be had: a read delivers a piece of what is left, and nothing only when nothing is left. -/
def draining (s : Bytes) : Monitor Drained StderrOp StderrAnswer where
  ok h op r :=
    match op, r with
    | .try_reserve_exact _, r => r = .ok ()
    | .read len, .ok bytes =>
      h.stream ++ bytes.val <+: s ∧ (0 < len → bytes.val = [] → h.stream = s)
    | .read _, .error _ => False
    | .abort, r => r.elim
  after h op r :=
    match op, r with
    | .read _, .ok bytes => ⟨h.stream ++ bytes.val, h.ended || bytes.val.isEmpty⟩
    | _, _ => h

/-- Where the loop can be when the worker writes `s`: before a read, with the beginning of what
was delivered so far in its buffer, or past the end of the pipe. -/
inductive Draining (s : Bytes) : StderrM WasixWorkerDiagnostics → Drained → Prop where
  | reading {patience : ℕ} {stream : Bytes} (hpart : stream <+: s) :
      Draining s (diagnostics_loop (patience + 1) (kept_of stream)) ⟨stream, false⟩
  | done : Draining s (.ret (.ok (kept_of s))) ⟨s, true⟩

variable {s : Bytes} {patience : ℕ} {p : StderrM WasixWorkerDiagnostics} {h : Drained}

/-- One read, and what the loop does with it. -/
theorem diagnostics_loop_read {stream : Bytes} {read : { bytes : Bytes // bytes.length ≤ 4096 }}
    (hcomes : (draining s).Comes
      (if read.val.isEmpty then pure (kept_of stream)
        else diagnostics_loop patience (retain (kept_of stream) read.val) :
          StderrM WasixWorkerDiagnostics)
      ⟨stream ++ read.val, false || read.val.isEmpty⟩ p h) :
    (read.val = [] ∧ p = .ret (.ok (kept_of stream)) ∧ h = ⟨stream, true⟩) ∨
      (read.val ≠ [] ∧ (draining s).Comes (diagnostics_loop patience (kept_of (stream ++ read.val)))
        ⟨stream ++ read.val, false⟩ p h) := by
  by_cases hempty : read.val = []
  · left
    rw [hempty, List.append_nil] at hcomes
    cases hcomes
    exact ⟨hempty, rfl, rfl⟩
  · right
    have hsome : read.val.isEmpty = false := List.isEmpty_eq_false_iff.mpr hempty
    rw [hsome, retain_kept] at hcomes
    exact ⟨hempty, hcomes⟩

/-- A run of the loop. A read that is not empty uses up patience and brings the end nearer, so
patience for one read more than there are bytes left does not run out. -/
theorem diagnostics_loop_comes {stream : Bytes} (hpart : stream <+: s)
    (hpatience : s.length < patience + stream.length)
    (hcomes : (draining s).Comes (diagnostics_loop patience (kept_of stream)) ⟨stream, false⟩ p h) :
    Draining s p h := by
  induction patience generalizing stream with
  | zero =>
    have hle := hpart.length_le
    omega
  | succ patience ih =>
    cases hcomes with
    | here => exact .reading hpart
    | @vis _ _ _ _ _ r hok hrest =>
      cases r with
      | error e => exact hok.elim
      | ok read =>
        have hmore : stream ++ read.val <+: s := hok.1
        rcases diagnostics_loop_read hrest with ⟨hempty, rfl, rfl⟩ | ⟨hne, hrest⟩
        · -- An empty read is the end of the pipe, and all of `s` was delivered.
          have hall : stream = s := hok.2 (by omega) hempty
          rw [hall]
          exact .done
        · have hpos : 0 < read.val.length := List.length_pos_iff.mpr hne
          apply ih hmore _ hrest
          rw [List.length_append]
          omega

/-- The same from the start of the task. -/
theorem read_worker_diagnostics_comes (hpatience : s.length < patience)
    (hcomes : (draining s).Comes (read_worker_diagnostics patience) Drained.start p h) :
    (p = read_worker_diagnostics patience ∧ h = Drained.start) ∨ Draining s p h := by
  cases hcomes with
  | here => exact .inl ⟨rfl, rfl⟩
  | @vis _ _ _ _ _ r hok hrest =>
    right
    have hr : r = .ok () := hok
    subst hr
    -- Nothing is what is kept of nothing.
    have hloop : (draining s).Comes (diagnostics_loop patience (kept_of [])) ⟨[], false⟩ p h :=
      hrest
    exact diagnostics_loop_comes List.nil_prefix (by simpa using hpatience) hloop

/-- Where the loop is, it can go on: there is a next piece, or the end. -/
theorem Draining.goes_on (hat : Draining s p h) :
    (∃ e k r, p = .vis e k ∧ (draining s).ok h e r) ∨
      ∃ d, p = .ret (.ok d) ∧ d = kept_of s ∧ h = ⟨s, true⟩ := by
  cases hat with
  | @reading patience stream hpart =>
    left
    obtain ⟨rest, hrest⟩ := hpart
    have hpiece : (rest.take 4096).length ≤ 4096 := List.length_take_le 4096 rest
    refine ⟨.read 4096, _, .ok ⟨rest.take 4096, hpiece⟩, rfl, ?_, ?_⟩
    · rw [← hrest, List.prefix_append_right_inj]
      exact List.take_prefix 4096 rest
    · intro _ hempty
      have hnil : rest = [] := by simpa using hempty
      rw [← hrest, hnil, List.append_nil]
  | done => exact .inr ⟨_, rfl, rfl, rfl⟩

/-- The buffer where the loop is: the beginning of what was delivered so far, within the cap. -/
def Buffers (p : StderrM WasixWorkerDiagnostics) (h : Drained) : Prop :=
  ∃ kept : WasixWorkerDiagnostics,
    ((∃ patience, p = diagnostics_loop patience kept) ∨ p = .ret (.ok kept)) ∧
      kept.bytes = h.stream.take WASIX_WORKER_MAX_DIAGNOSTIC_BYTES ∧
      kept.bytes.length ≤ WASIX_WORKER_MAX_DIAGNOSTIC_BYTES

theorem Draining.buffers (hat : Draining s p h) : Buffers p h := by
  have hcap : ∀ stream, (kept_of stream).bytes.length ≤ WASIX_WORKER_MAX_DIAGNOSTIC_BYTES := by
    intro stream
    rw [kept_of_length]
    exact Nat.min_le_right _ _
  cases hat with
  | reading => exact ⟨_, .inl ⟨_, rfl⟩, rfl, hcap _⟩
  | done => exact ⟨_, .inr rfl, rfl, hcap _⟩

/-- The diagnostics do not depend on how the stream was cut. Whatever a worker writes to its
standard error, and in whatever pieces the reads deliver it, the task reads to the end of the
pipe and returns the first bytes of the stream up to the cap, marked as truncated exactly when
there were more. At no point of the run does the buffer hold more than the cap. -/
theorem read_worker_diagnostics_of_stream (s : Bytes) (more : ℕ) :
    (draining s).Yields
      (fun r h => r = .ok ⟨s.take WASIX_WORKER_MAX_DIAGNOSTIC_BYTES,
          decide (s.length > WASIX_WORKER_MAX_DIAGNOSTIC_BYTES)⟩ ∧
        h.stream = s ∧ h.ended = true)
      (read_worker_diagnostics (s.length + 1 + more)) Drained.start ∧
    ∀ p h, (draining s).Comes (read_worker_diagnostics (s.length + 1 + more)) Drained.start p h →
      (p = read_worker_diagnostics (s.length + 1 + more) ∧ h = Drained.start) ∨ Buffers p h := by
  have hpatience : s.length < s.length + 1 + more := by omega
  constructor
  · intro p h hcomes
    rcases read_worker_diagnostics_comes hpatience hcomes with ⟨rfl, rfl⟩ | hat
    · exact .inl ⟨.try_reserve_exact _, _, .ok (), rfl, rfl⟩
    · rcases hat.goes_on with hnext | ⟨d, rfl, rfl, rfl⟩
      · exact .inl hnext
      · exact .inr ⟨_, rfl, rfl, rfl, rfl⟩
  · intro p h hcomes
    rcases read_worker_diagnostics_comes hpatience hcomes with hstart | hat
    · exact .inl hstart
    · exact .inr hat.buffers

/-- A worker that writes one byte more than the cap: there is a run, it returns, and what it
returns is full and says that something is missing. -/
theorem read_worker_diagnostics_of_stream_overlong :
    ∃ kept h, (draining (List.replicate 16385 120)).Comes (read_worker_diagnostics 16386)
        Drained.start (.ret (.ok kept)) h ∧
      kept.bytes = List.replicate 16384 120 ∧ kept.truncated = true ∧
      Buffers (.ret (.ok kept)) h := by
  have hlength : (List.replicate 16385 (120 : UInt8)).length = 16385 := List.length_replicate
  have hrun := read_worker_diagnostics_of_stream (List.replicate 16385 120) 0
  rw [hlength] at hrun
  obtain ⟨_, h, hcomes, rfl, -, -⟩ := hrun.1.returns
  refine ⟨_, h, hcomes, ?_, by rfl, ?_⟩
  · rw [List.take_replicate]
    rfl
  · rcases hrun.2 _ h hcomes with ⟨hstart, -⟩ | hbuffers
    · cases hstart
    · exact hbuffers

end WasmRuntime.Worker
