/-
`wasix_worker.rs`, what a worker writes once its guest has run, and what the parent makes of it.

The last part of a capture is four frames (completion, journal, stdout, stderr), the last part of a
restore three (no journal), and after them the end of the pipe.
-/
import WasmRuntime.WorkerFrames

set_option autoImplicit false

namespace WasmRuntime.Worker

open ByteCodec Prog Monitor Exec

/-! ## Failures

What an operation can fail with before the supervisor makes an `Error` of it. -/

structure RestoreOperationFailure where
  phase : WasixCheckpointRestorePhase
  reason : WasixCheckpointRestoreFailureReason
  deriving DecidableEq, Repr

/-- `RestoreOperationFailure::protocol`. -/
def RestoreOperationFailure.protocol (phase : WasixCheckpointRestorePhase) :
    RestoreOperationFailure := ⟨phase, .Protocol⟩

/-- `RestoreOperationFailure::runtime`. -/
def RestoreOperationFailure.runtime : RestoreOperationFailure := ⟨.Execution, .Runtime⟩

structure CaptureOperationFailure where
  phase : WasixCheckpointCapturePhase
  reason : WasixCheckpointCaptureFailureReason
  exit_status : Option ExitStatus
  deriving DecidableEq

/-- `CaptureOperationFailure::new`. -/
def CaptureOperationFailure.new (phase : WasixCheckpointCapturePhase)
    (reason : WasixCheckpointCaptureFailureReason) : CaptureOperationFailure :=
  ⟨phase, reason, none⟩

/-- `CaptureOperationFailure::protocol`. -/
def CaptureOperationFailure.protocol (phase : WasixCheckpointCapturePhase) :
    CaptureOperationFailure := .new phase .Protocol

/-- `CaptureOperationFailure::runtime`. -/
def CaptureOperationFailure.runtime : CaptureOperationFailure := .new .Execution .Runtime

/-- `CaptureOperationFailure::worker_process`. -/
def CaptureOperationFailure.worker_process (status : ExitStatus) : CaptureOperationFailure :=
  ⟨.Shutdown, .WorkerProcess, some status⟩

/-! ## The parent

It checks each frame against its own limits. -/

theorem WasixCheckpointRestoreCompletion.validate_returns (W : Env)
    (self : WasixCheckpointRestoreCompletion) (stdout stderr : Bytes) :
    (self.validate W stdout stderr).Returns := returns_reject _ _

theorem WasixCheckpointCaptureCompletion.validate_returns (W : Env)
    (self : WasixCheckpointCaptureCompletion) (journal stdout stderr : Bytes) :
    (self.validate W journal stdout stderr).Returns := returns_reject _ _

def finish_checkpoint_capture_output : OutputM CaptureOperationFailure Unit :=
  finish_output {
    cannot_finish := fun _ => .protocol .Shutdown
    trailing := .protocol .Shutdown
    cannot_wait := fun _ => .new .Shutdown .WorkerProcess
    exited := .worker_process }

def collect_checkpoint_capture_output (W : Env) : OutputM CaptureOperationFailure
    (WasixCheckpointCaptureCompletion × Bytes × Bytes × Bytes) := do
  let frame ← Fallible.orElse (fun _ => .runtime) (read_frame W)
  let completion ← Fallible.orElse (fun _ => .protocol .Execution)
    (.ret (W.capture_completion_from_slice frame))
  let output_failure : CaptureOperationFailure := .protocol .Output
  let journal ← Fallible.orElse (fun _ => output_failure)
    (read_bounded_worker_frame W WASIX_WORKER_MAX_CHECKPOINT_BYTES false "capture journal")
  let captured_stdout ← Fallible.orElse (fun _ => output_failure)
    (read_bounded_worker_frame W WASIX_WORKER_MAX_RESTORE_OUTPUT_BYTES true "capture stdout")
  let captured_stderr ← Fallible.orElse (fun _ => output_failure)
    (read_bounded_worker_frame W WASIX_WORKER_MAX_RESTORE_OUTPUT_BYTES true "capture stderr")
  Fallible.orElse (fun _ => output_failure)
    (.ret ((completion.validate W journal captured_stdout captured_stderr).toExcept
      (completion.validate_returns W journal captured_stdout captured_stderr)))
  finish_checkpoint_capture_output
  pure (completion, journal, captured_stdout, captured_stderr)

def collect_checkpoint_restore_output (W : Env) :
    OutputM RestoreOperationFailure (Bytes × Bytes) := do
  let frame ← Fallible.orElse (fun _ => .runtime) (read_frame W)
  let completion ← Fallible.orElse (fun _ => .protocol .Execution)
    (.ret (W.restore_completion_from_slice frame))
  let output_failure : RestoreOperationFailure := .protocol .Output
  let restored_stdout ← Fallible.orElse (fun _ => output_failure)
    (read_restore_output_frame W "stdout")
  let restored_stderr ← Fallible.orElse (fun _ => output_failure)
    (read_restore_output_frame W "stderr")
  Fallible.orElse (fun _ => .protocol .Output)
    (.ret ((completion.validate W restored_stdout restored_stderr).toExcept
      (completion.validate_returns W restored_stdout restored_stderr)))
  pure (restored_stdout, restored_stderr)

/-- The end of `perform_checkpoint_restore`, once the worker has been authorized. -/
def finish_checkpoint_restore (W : Env) : OutputM RestoreOperationFailure (Bytes × Bytes) := do
  let output ← collect_checkpoint_restore_output W
  Fallible.orElse (fun _ => ⟨.Shutdown, .WorkerProcess⟩)
    (finish_worker_output W "checkpoint restore")
  pure output

/-! ## The worker

It checks each frame against the worker's limits before it writes it. -/

structure ExecutedCheckpointRestore where
  exit_code : ℤ
  stdout : Bytes
  stderr : Bytes

structure ExecutedCheckpointCapture where
  exit_code : ℤ
  journal : Bytes
  stdout : Bytes
  stderr : Bytes

/-- The end of `write_wasix_checkpoint_restore`, once the guest has run. -/
def write_restored_output (W : Env) (restored : ExecutedCheckpointRestore) : WriterM Unit := do
  let stdout_bytes ← Fallible.ok_or "restore output length overflows u64"
    (tryFrom u64_max restored.stdout.length)
  let stderr_bytes ← Fallible.ok_or "restore error output length overflows u64"
    (tryFrom u64_max restored.stderr.length)
  let completion : WasixCheckpointRestoreCompletion := {
    exit_code := restored.exit_code
    stdout_bytes := stdout_bytes
    stdout_sha256 := W.sha256_hex restored.stdout
    stderr_bytes := stderr_bytes
    stderr_sha256 := W.sha256_hex restored.stderr }
  write_worker_frame (to_vec completion.to_json)
  write_worker_output_frame restored.stdout "restore stdout"
  write_worker_output_frame restored.stderr "restore stderr"

/-- The end of `write_wasix_checkpoint_capture`, once the guest has run. -/
def write_captured_output (W : Env) (captured : ExecutedCheckpointCapture) : WriterM Unit := do
  let journal_bytes ← Fallible.ok_or "capture journal length overflows u64"
    (tryFrom u64_max captured.journal.length)
  let stdout_bytes ← Fallible.ok_or "capture stdout length overflows u64"
    (tryFrom u64_max captured.stdout.length)
  let stderr_bytes ← Fallible.ok_or "capture stderr length overflows u64"
    (tryFrom u64_max captured.stderr.length)
  let completion : WasixCheckpointCaptureCompletion := {
    exit_code := captured.exit_code
    journal_bytes := journal_bytes
    journal_sha256 := W.sha256_hex captured.journal
    stdout_bytes := stdout_bytes
    stdout_sha256 := W.sha256_hex captured.stdout
    stderr_bytes := stderr_bytes
    stderr_sha256 := W.sha256_hex captured.stderr }
  write_worker_frame (to_vec completion.to_json)
  write_worker_bounded_frame captured.journal WASIX_WORKER_MAX_CHECKPOINT_BYTES false
    "capture journal"
  write_worker_output_frame captured.stdout "capture stdout"
  write_worker_output_frame captured.stderr "capture stderr"

/-! ## Completions

A completion ties the frames together by their lengths and digests. -/

/-- The completion of a restore. -/
def ExecutedCheckpointRestore.completion (W : Env) (restored : ExecutedCheckpointRestore) :
    WasixCheckpointRestoreCompletion :=
  ⟨restored.exit_code, restored.stdout.length, W.sha256_hex restored.stdout,
    restored.stderr.length, W.sha256_hex restored.stderr⟩

/-- The completion of a capture. -/
def ExecutedCheckpointCapture.completion (W : Env) (captured : ExecutedCheckpointCapture) :
    WasixCheckpointCaptureCompletion :=
  ⟨captured.exit_code, captured.journal.length, W.sha256_hex captured.journal,
    captured.stdout.length, W.sha256_hex captured.stdout,
    captured.stderr.length, W.sha256_hex captured.stderr⟩

variable {W : Env} {stdout stderr journal s message : Bytes} {ε α : Type} {n maximum : ℕ}
  {allow_empty : Bool} {restored : ExecutedCheckpointRestore}
  {captured : ExecutedCheckpointCapture}

theorem outputMatches_iff {bytes : Bytes} {expected_bytes : ℕ} {expected_sha256 : String}
    (h : bytes.length ≤ u64_max) :
    outputMatches W bytes expected_bytes expected_sha256 = true ↔
      expected_bytes = bytes.length ∧ expected_sha256 = W.sha256_hex bytes := by
  rw [outputMatches, tryFrom_of_le h]
  simp only [Bool.and_eq_true, beq_iff_eq, Option.some.injEq]
  exact and_congr eq_comm eq_comm

/-- A completion passes exactly when it is the one of a guest that exited with 0 and produced
this output. -/
theorem WasixCheckpointRestoreCompletion.validate_iff
    {completion : WasixCheckpointRestoreCompletion} (hout : stdout.length ≤ u64_max)
    (herr : stderr.length ≤ u64_max) :
    completion.validate W stdout stderr = .ok () ↔
      completion = ExecutedCheckpointRestore.completion W ⟨0, stdout, stderr⟩ := by
  obtain ⟨exit_code, stdout_bytes, stdout_sha256, stderr_bytes, stderr_sha256⟩ := completion
  simp only [WasixCheckpointRestoreCompletion.validate, reject_eq_ok, Bool.or_eq_false_iff,
    bne_eq_false_iff_eq, Bool.not_eq_false', outputMatches_iff hout, outputMatches_iff herr,
    ExecutedCheckpointRestore.completion, WasixCheckpointRestoreCompletion.mk.injEq, and_assoc]

/-- The same for a capture. -/
theorem WasixCheckpointCaptureCompletion.validate_iff
    {completion : WasixCheckpointCaptureCompletion} (hjournal : journal.length ≤ u64_max)
    (hout : stdout.length ≤ u64_max) (herr : stderr.length ≤ u64_max) :
    completion.validate W journal stdout stderr = .ok () ↔
      completion = ExecutedCheckpointCapture.completion W ⟨0, journal, stdout, stderr⟩ := by
  obtain ⟨exit_code, journal_bytes, journal_sha256, stdout_bytes, stdout_sha256, stderr_bytes,
    stderr_sha256⟩ := completion
  simp only [WasixCheckpointCaptureCompletion.validate, reject_eq_ok, Bool.or_eq_false_iff,
    bne_eq_false_iff_eq, Bool.not_eq_false', outputMatches_iff hjournal, outputMatches_iff hout,
    outputMatches_iff herr, ExecutedCheckpointCapture.completion,
    WasixCheckpointCaptureCompletion.mk.injEq, and_assoc]

/-! ## Streams

`CaptureStream` and `RestoreStream` say what such a stream is, in terms of bytes. What a stream
leaves open is the spelling of the completion: the parent accepts any text that `serde_json` decodes
to the completion of the output that follows. -/

/-- The text of a message frame: not empty and within the limit. -/
def MessageText (text : Bytes) : Prop := 1 ≤ text.length ∧ text.length ≤ MAX_HANDSHAKE_BYTES

/-- `s` is the output of a restore with this stdout and stderr. -/
structure RestoreStream (W : Env) (stdout stderr s : Bytes) : Prop where
  frames : ∃ text, MessageText text ∧
    W.restore_completion_from_slice text
      = .ok (ExecutedCheckpointRestore.completion W ⟨0, stdout, stderr⟩) ∧
    s = frame text ++ (frame stdout ++ frame stderr)
  stdout_le : stdout.length ≤ WASIX_WORKER_MAX_RESTORE_OUTPUT_BYTES
  stderr_le : stderr.length ≤ WASIX_WORKER_MAX_RESTORE_OUTPUT_BYTES

/-- `s` is the output of a capture with this journal, stdout and stderr. -/
structure CaptureStream (W : Env) (journal stdout stderr s : Bytes) : Prop where
  frames : ∃ text, MessageText text ∧
    W.capture_completion_from_slice text
      = .ok (ExecutedCheckpointCapture.completion W ⟨0, journal, stdout, stderr⟩) ∧
    s = frame text ++ (frame journal ++ (frame stdout ++ frame stderr))
  journal_pos : 1 ≤ journal.length
  journal_le : journal.length ≤ WASIX_WORKER_MAX_CHECKPOINT_BYTES
  stdout_le : stdout.length ≤ WASIX_WORKER_MAX_RESTORE_OUTPUT_BYTES
  stderr_le : stderr.length ≤ WASIX_WORKER_MAX_RESTORE_OUTPUT_BYTES

/-! ### What the parent accepts is a stream

By `hearing`: whatever the worker sent. -/

theorem read_frame_hears (W : Env) (h : Heard) :
    hearing.Upholds anyEffect
      (Post fun text h' => MessageText text ∧ h' = h.hear (frame text)) (read_frame W) h := by
  refine .monoF (read_length_prefixed_hears W _ _ h) ?_
  rintro text _ ⟨hvalid, rfl⟩
  simp only [Bool.or_eq_false_iff, beq_eq_false_iff_ne, decide_eq_false_iff_not] at hvalid
  exact ⟨⟨by omega, by omega⟩, rfl⟩

theorem read_bounded_worker_frame_hears (W : Env) (maximum : ℕ) (allow_empty : Bool)
    (label : String) (h : Heard) :
    hearing.Upholds anyEffect
      (Post fun message h' => message.length ≤ maximum ∧
        (allow_empty = false → 1 ≤ message.length) ∧ h' = h.hear (frame message))
      (read_bounded_worker_frame W maximum allow_empty label) h := by
  refine .monoF (read_length_prefixed_hears W _ _ h) ?_
  rintro message _ ⟨hvalid, rfl⟩
  simp only [Bool.or_eq_false_iff, Bool.and_eq_false_iff, decide_eq_false_iff_not,
    Bool.not_eq_false', beq_eq_false_iff_ne] at hvalid
  obtain ⟨hempty, hle⟩ := hvalid
  refine ⟨by omega, ?_, rfl⟩
  intro hno
  rcases hempty with hyes | hpos
  · rw [hno] at hyes
    exact absurd hyes (by decide)
  · omega

/-- `result.map_err(wrap)?` on a result that is at hand. -/
theorem result_hears {δ : Type} (wrap : δ → ε) (x : Except δ α) (h : Heard) :
    hearing.Upholds anyEffect (Post fun a h' => h = h' ∧ x = .ok a)
      (Fallible.orElse wrap (.ret x)) h := Upholds.orElse (.ofExcept x h)

/-- Every output limit is a `u64`. -/
theorem le_u64_max (h : n ≤ WASIX_WORKER_MAX_CHECKPOINT_BYTES) : n ≤ u64_max :=
  h.trans (by decide)

theorem output_le_checkpoint :
    WASIX_WORKER_MAX_RESTORE_OUTPUT_BYTES ≤ WASIX_WORKER_MAX_CHECKPOINT_BYTES := by decide

/-- The frames of a restore. -/
theorem collect_checkpoint_restore_output_hears (W : Env) (h : Heard) :
    hearing.Upholds anyEffect
      (Post fun result h' => ∃ s, RestoreStream W result.1 result.2 s ∧ h' = h.hear s)
      (collect_checkpoint_restore_output W) h := by
  have hmax := output_le_checkpoint
  unfold collect_checkpoint_restore_output
  refine .bindF (.orElse (read_frame_hears W h)) ?_
  rintro text _ ⟨htext, rfl⟩
  refine .bindF (result_hears _ _ _) ?_
  rintro completion _ ⟨rfl, hdecoded⟩
  refine .bindF (.orElse (read_bounded_worker_frame_hears W _ _ _ _)) ?_
  rintro stdout _ ⟨hout, -, rfl⟩
  refine .bindF (.orElse (read_bounded_worker_frame_hears W _ _ _ _)) ?_
  rintro stderr _ ⟨herr, -, rfl⟩
  refine .bindF (result_hears _ _ _) ?_
  rintro ⟨⟩ _ ⟨rfl, hvalid⟩
  rw [toExcept_eq_ok, WasixCheckpointRestoreCompletion.validate_iff (le_u64_max (by omega))
    (le_u64_max (by omega))] at hvalid
  rw [hvalid] at hdecoded
  refine ⟨_, ⟨⟨text, htext, hdecoded, rfl⟩, hout, herr⟩, ?_⟩
  rw [Heard.hear_hear, Heard.hear_hear]

/-- A restore that the parent accepted: a stream, its end, and a successful exit. -/
theorem finish_checkpoint_restore_hears (W : Env) (h : Heard) :
    hearing.Upholds anyEffect
      (Post fun result h' => ∃ s status, RestoreStream W result.1 result.2 s ∧
        ExitStatus.success status = true ∧ h' = (h.hear s).finish status)
      (finish_checkpoint_restore W) h := by
  unfold finish_checkpoint_restore
  refine .bindF (collect_checkpoint_restore_output_hears W h) ?_
  rintro result _ ⟨s, hs, rfl⟩
  refine .bindF (.orElse (finish_output_hears _ _)) ?_
  rintro _ _ ⟨status, hstatus, rfl⟩
  exact ⟨s, status, hs, hstatus, rfl⟩

/-- A capture that the parent accepted: a stream, its end, and a successful exit. -/
theorem collect_checkpoint_capture_output_hears (W : Env) (h : Heard) :
    hearing.Upholds anyEffect
      (Post fun result h' => ∃ s status,
        CaptureStream W result.2.1 result.2.2.1 result.2.2.2 s ∧
        result.1 = ExecutedCheckpointCapture.completion W
          ⟨0, result.2.1, result.2.2.1, result.2.2.2⟩ ∧
        ExitStatus.success status = true ∧ h' = (h.hear s).finish status)
      (collect_checkpoint_capture_output W) h := by
  have hmax := output_le_checkpoint
  unfold collect_checkpoint_capture_output
  refine .bindF (.orElse (read_frame_hears W h)) ?_
  rintro text _ ⟨htext, rfl⟩
  refine .bindF (result_hears _ _ _) ?_
  rintro completion _ ⟨rfl, hdecoded⟩
  refine .bindF (.orElse (read_bounded_worker_frame_hears W _ _ _ _)) ?_
  rintro journal _ ⟨hjournal, hpos, rfl⟩
  refine .bindF (.orElse (read_bounded_worker_frame_hears W _ _ _ _)) ?_
  rintro stdout _ ⟨hout, -, rfl⟩
  refine .bindF (.orElse (read_bounded_worker_frame_hears W _ _ _ _)) ?_
  rintro stderr _ ⟨herr, -, rfl⟩
  refine .bindF (result_hears _ _ _) ?_
  rintro ⟨⟩ _ ⟨rfl, hvalid⟩
  rw [toExcept_eq_ok, WasixCheckpointCaptureCompletion.validate_iff (le_u64_max hjournal)
    (le_u64_max (by omega)) (le_u64_max (by omega))] at hvalid
  rw [hvalid] at hdecoded
  refine .bindF (finish_output_hears _ _) ?_
  rintro _ _ ⟨status, hstatus, rfl⟩
  refine ⟨_, status, ⟨⟨text, htext, hdecoded, rfl⟩, hpos rfl, hjournal, hout, herr⟩, hvalid,
    hstatus, ?_⟩
  rw [Heard.hear_hear, Heard.hear_hear, Heard.hear_hear]

/-! ### Every stream is accepted, in whatever pieces

By `delivering s`: however the stream is cut into reads. -/

theorem read_frame_delivers {text rest : Bytes} (W : Env) {h : Heard} (htext : MessageText text)
    (hs : h.stream ++ (frame text ++ rest) = s) :
    (delivering s).Upholds anyEffect (Must fun read h' => read = text ∧ h' = h.hear (frame text))
      (read_frame W) h := by
  obtain ⟨hpos, hle⟩ := htext
  have hmax : MAX_HANDSHAKE_BYTES ≤ u32_max := by decide
  apply read_length_prefixed_delivers
  · omega
  · simp only [Bool.or_eq_false_iff, beq_eq_false_iff_ne, decide_eq_false_iff_not]
    omega
  · rw [← hs, ← List.append_assoc]
    exact List.prefix_append _ _

theorem read_bounded_worker_frame_delivers (W : Env) (label : String) {h : Heard} (rest : Bytes)
    (hmax : maximum ≤ u32_max) (hle : message.length ≤ maximum)
    (hempty : allow_empty = true ∨ 1 ≤ message.length)
    (hs : h.stream ++ (frame message ++ rest) = s) :
    (delivering s).Upholds anyEffect
      (Must fun read h' => read = message ∧ h' = h.hear (frame message))
      (read_bounded_worker_frame W maximum allow_empty label) h := by
  apply read_length_prefixed_delivers
  · omega
  · simp only [Bool.or_eq_false_iff, Bool.and_eq_false_iff, decide_eq_false_iff_not,
      Bool.not_eq_false', beq_eq_false_iff_ne]
    exact ⟨hempty.imp_right fun hpos => by omega, by omega⟩
  · rw [← hs, ← List.append_assoc]
    exact List.prefix_append _ _

theorem result_delivers {δ : Type} (wrap : δ → ε) {x : Except δ α} {a : α} (hx : x = .ok a)
    (h : Heard) :
    (delivering s).Upholds anyEffect (Must fun b h' => a = b ∧ h = h')
      (Fallible.orElse wrap (.ret x)) h := Upholds.orElseM (Upholds.ofExceptM hx h)

/-- A restore's stream is accepted. -/
theorem finish_checkpoint_restore_delivers (hs : RestoreStream W stdout stderr s) :
    (delivering s).Upholds anyEffect
      (Must fun result h' => result = (stdout, stderr) ∧
        h' = (Heard.start.hear s).finish (.exited 0))
      (finish_checkpoint_restore W) Heard.start := by
  obtain ⟨⟨text, htext, hdecoded, rfl⟩, hout, herr⟩ := hs
  have hmax : WASIX_WORKER_MAX_RESTORE_OUTPUT_BYTES ≤ u32_max := by decide
  have hlimit := output_le_checkpoint
  unfold finish_checkpoint_restore collect_checkpoint_restore_output
  refine .bindM (Upholds.bindM (.orElseM (read_frame_delivers W htext rfl)) ?_) ?_
    (Q := fun result h' => result = (stdout, stderr) ∧
      h' = Heard.start.hear (frame text ++ (frame stdout ++ frame stderr)))
  · rintro _ _ ⟨rfl, rfl⟩
    refine .bindM (result_delivers _ hdecoded _) ?_
    rintro _ _ ⟨rfl, rfl⟩
    refine .bindM (.orElseM (read_bounded_worker_frame_delivers W _ _ hmax hout
      (.inl rfl) rfl)) ?_
    rintro _ _ ⟨rfl, rfl⟩
    refine .bindM (.orElseM (read_bounded_worker_frame_delivers W _ [] hmax
      herr (.inl rfl) ?_)) ?_
    · simp [Heard.hear, Heard.start]
    rintro _ _ ⟨rfl, rfl⟩
    refine .bindM (result_delivers _ ((toExcept_eq_ok _).mpr
      ((WasixCheckpointRestoreCompletion.validate_iff (le_u64_max (by omega))
        (le_u64_max (by omega))).mpr rfl)) _) ?_
    rintro _ _ ⟨rfl, rfl⟩
    refine ⟨rfl, ?_⟩
    rw [Heard.hear_hear, Heard.hear_hear]
  · rintro _ _ ⟨rfl, rfl⟩
    refine .bindM (.orElseM (finish_output_delivers _ rfl)) ?_
    rintro _ _ rfl
    exact ⟨rfl, rfl⟩

/-- A capture's stream is accepted. -/
theorem collect_checkpoint_capture_output_delivers (hs : CaptureStream W journal stdout stderr s) :
    (delivering s).Upholds anyEffect
      (Must fun result h' =>
        result = (ExecutedCheckpointCapture.completion W ⟨0, journal, stdout, stderr⟩,
          journal, stdout, stderr) ∧
        h' = (Heard.start.hear s).finish (.exited 0))
      (collect_checkpoint_capture_output W) Heard.start := by
  obtain ⟨⟨text, htext, hdecoded, rfl⟩, hpos, hjournal, hout, herr⟩ := hs
  have hmax : WASIX_WORKER_MAX_RESTORE_OUTPUT_BYTES ≤ u32_max := by decide
  have hlimit := output_le_checkpoint
  unfold collect_checkpoint_capture_output
  refine .bindM (.orElseM (read_frame_delivers W htext rfl)) ?_
  rintro _ _ ⟨rfl, rfl⟩
  refine .bindM (result_delivers _ hdecoded _) ?_
  rintro _ _ ⟨rfl, rfl⟩
  refine .bindM (.orElseM (read_bounded_worker_frame_delivers W _ _ (by decide)
    hjournal (.inr hpos) rfl)) ?_
  rintro _ _ ⟨rfl, rfl⟩
  refine .bindM (.orElseM (read_bounded_worker_frame_delivers W _ (frame stderr)
    hmax hout (.inl rfl) ?_)) ?_
  · simp [Heard.hear, Heard.start]
  rintro _ _ ⟨rfl, rfl⟩
  refine .bindM (.orElseM (read_bounded_worker_frame_delivers W _ [] hmax
    herr (.inl rfl) ?_)) ?_
  · simp [Heard.hear, Heard.start]
  rintro _ _ ⟨rfl, rfl⟩
  -- The completion is about the very frames that were read, so validation finds no difference.
  refine .bindM (result_delivers _ ((toExcept_eq_ok _).mpr
    ((WasixCheckpointCaptureCompletion.validate_iff (le_u64_max hjournal)
      (le_u64_max (by omega)) (le_u64_max (by omega))).mpr rfl)) _) ?_
  rintro _ _ ⟨rfl, rfl⟩
  refine .bindM (finish_output_delivers _ ?_) ?_
  · simp [Heard.hear, Heard.start]
  rintro _ _ rfl
  refine ⟨rfl, ?_⟩
  rw [Heard.hear_hear, Heard.hear_hear, Heard.hear_hear]

/-! ## How long a message can get

The frames with the messages have one limit for both sides, so what is to be shown is that no
message reaches it: not the report of a worker with the longest list of groups a deployment may
allow, not a completion with the longest numbers. -/

theorem Env.sha256_hex_length (W : Env) (bytes : Bytes) : (utf8 (W.sha256_hex bytes)).length ≤ 64 :=
  (Checkpoint.isCanonicalSha256_length
    (Checkpoint.isCanonicalSha256_sha256_hex W.checkpoint.crypto bytes)).le

/-- A `u64` in JSON. -/
theorem size_u64_le (h : n ≤ u64_max) : Json.size (Json.num n) ≤ 4 * 20 :=
  Json.size_num_le (by decide) (lt_of_le_of_lt h (by decide))

/-- A `u32` in JSON. -/
theorem size_u32_le (v : UInt32) : Json.size (Json.num v.toNat) ≤ 4 * 10 :=
  Json.size_num_le (by decide) (lt_trans v.toNat_lt (by decide))

/-- A digest in JSON. -/
theorem size_sha256_le (W : Env) (bytes : Bytes) :
    Json.size (Json.str (W.sha256_hex bytes)) ≤ 386 :=
  Json.size_str_le_of (W.sha256_hex_length bytes)

/-- An object whose members have these keys, and values within these bounds. -/
theorem size_fields_le {fields : List (String × Json.Text)} (bounds : List (String × ℕ))
    (h : List.Forall₂ (fun f b => f.1 = b.1 ∧ Json.size f.2 ≤ b.2) fields bounds)
    (hkeys : ∀ b ∈ bounds, (utf8 b.1).length ≤ 30) :
    Json.size (Json.obj fields) ≤ 2 + (bounds.map (·.2 + 184)).sum := by
  refine (Json.size_obj_le fields).trans ?_
  apply Nat.add_le_add_left
  induction h with
  | nil => exact le_refl _
  | @cons f b _ _ hf _ ih =>
    obtain ⟨hkey, hvalue⟩ := hf
    have hstr := Json.size_str_le_of (hkeys b List.mem_cons_self)
    have hrest := ih fun b' hb' => hkeys b' (List.mem_cons_of_mem b hb')
    rw [← hkey] at hstr
    rw [List.map_cons, List.sum_cons, List.map_cons, List.sum_cons, Json.size_member]
    omega

/-- A message within the frame limit. -/
theorem MessageText.of_fields {fields : List (String × Json.Text)} (bounds : List (String × ℕ))
    (h : List.Forall₂ (fun f b => f.1 = b.1 ∧ Json.size f.2 ≤ b.2) fields bounds)
    (hkeys : ∀ b ∈ bounds, (utf8 b.1).length ≤ 30)
    (hsum : 2 + (bounds.map (·.2 + 184)).sum ≤ MAX_HANDSHAKE_BYTES) :
    MessageText (to_vec (Json.obj fields)) :=
  ⟨Json.size_obj_pos fields, (size_fields_le bounds h hkeys).trans hsum⟩

/-- `i32`. -/
def IsI32 (i : ℤ) : Prop := -2 ^ 31 ≤ i ∧ i < 2 ^ 31

theorem size_i32_le {i : ℤ} (h : IsI32 i) : Json.size (Json.int i) ≤ 4 * 10 + 1 := by
  obtain ⟨hlow, hhigh⟩ := h
  exact Json.size_int_le (by decide) (by omega)

theorem ExecutedCheckpointRestore.completion_fits (W : Env) (hexit : IsI32 restored.exit_code)
    (hout : restored.stdout.length ≤ u64_max) (herr : restored.stderr.length ≤ u64_max) :
    MessageText (to_vec (restored.completion W).to_json) := by
  apply MessageText.of_fields [("exitCode", 4 * 10 + 1), ("stdoutBytes", 4 * 20),
    ("stdoutSha256", 386), ("stderrBytes", 4 * 20), ("stderrSha256", 386)]
  · exact .cons ⟨rfl, size_i32_le hexit⟩
      (.cons ⟨rfl, size_u64_le hout⟩ (.cons ⟨rfl, size_sha256_le W _⟩
      (.cons ⟨rfl, size_u64_le herr⟩ (.cons ⟨rfl, size_sha256_le W _⟩ .nil))))
  · decide
  · decide

theorem ExecutedCheckpointCapture.completion_fits (W : Env) (hexit : IsI32 captured.exit_code)
    (hjournal : captured.journal.length ≤ u64_max) (hout : captured.stdout.length ≤ u64_max)
    (herr : captured.stderr.length ≤ u64_max) :
    MessageText (to_vec (captured.completion W).to_json) := by
  apply MessageText.of_fields [("exitCode", 4 * 10 + 1), ("journalBytes", 4 * 20),
    ("journalSha256", 386), ("stdoutBytes", 4 * 20), ("stdoutSha256", 386),
    ("stderrBytes", 4 * 20), ("stderrSha256", 386)]
  · exact .cons ⟨rfl, size_i32_le hexit⟩
      (.cons ⟨rfl, size_u64_le hjournal⟩ (.cons ⟨rfl, size_sha256_le W _⟩
      (.cons ⟨rfl, size_u64_le hout⟩ (.cons ⟨rfl, size_sha256_le W _⟩
      (.cons ⟨rfl, size_u64_le herr⟩ (.cons ⟨rfl, size_sha256_le W _⟩ .nil))))))
  · decide
  · decide

theorem WasixCheckpointTransportAck.fits (W : Env) (hjournal : journal.length ≤ u64_max) :
    MessageText (to_vec
      (WasixCheckpointTransportAck.to_json ⟨journal.length, W.sha256_hex journal⟩)) := by
  apply MessageText.of_fields [("journalBytes", 4 * 20), ("journalSha256", 386)]
  · exact .cons ⟨rfl, size_u64_le hjournal⟩ (.cons ⟨rfl, size_sha256_le W _⟩ .nil)
  · decide
  · decide

theorem WasixCheckpointRestoreAck.fits (W : Env) {module : Bytes}
    (hmodule : module.length ≤ u64_max) (hjournal : journal.length ≤ u64_max) :
    MessageText (to_vec (WasixCheckpointRestoreAck.to_json
      ⟨module.length, W.sha256_hex module, journal.length, W.sha256_hex journal⟩)) := by
  apply MessageText.of_fields [("moduleBytes", 4 * 20), ("moduleSha256", 386),
    ("journalBytes", 4 * 20), ("journalSha256", 386)]
  · exact .cons ⟨rfl, size_u64_le hmodule⟩ (.cons ⟨rfl, size_sha256_le W _⟩
      (.cons ⟨rfl, size_u64_le hjournal⟩ (.cons ⟨rfl, size_sha256_le W _⟩ .nil)))
  · decide
  · decide

theorem WasixCheckpointCaptureAck.fits (W : Env) {module request : Bytes}
    (hmodule : module.length ≤ u64_max) (hrequest : request.length ≤ u64_max) :
    MessageText (to_vec (WasixCheckpointCaptureAck.to_json
      ⟨module.length, W.sha256_hex module, request.length, W.sha256_hex request⟩)) := by
  apply MessageText.of_fields [("moduleBytes", 4 * 20), ("moduleSha256", 386),
    ("requestBytes", 4 * 20), ("requestSha256", 386)]
  · exact .cons ⟨rfl, size_u64_le hmodule⟩ (.cons ⟨rfl, size_sha256_le W _⟩
      (.cons ⟨rfl, size_u64_le hrequest⟩ (.cons ⟨rfl, size_sha256_le W _⟩ .nil)))
  · decide
  · decide

/-- A list of so many `u32`s. -/
theorem size_ids_le {ids : List UInt32} (h : ids.length ≤ n) :
    Json.size (Json.arr (ids.map fun v => Json.num v.toNat)) ≤ 2 + n * 41 := by
  have hvalues : ∀ t ∈ ids.map fun v => Json.num v.toNat, Json.size t ≤ 4 * 10 := by
    simp only [List.mem_map, forall_exists_index, and_imp, forall_apply_eq_imp_iff₂]
    intro v _
    exact size_u32_le v
  have hsize := Json.size_arr_le hvalues
  rw [List.length_map] at hsize
  omega

/-- A list of so many `u64`s. -/
theorem size_masks_le (masks : Vector UInt64 n) :
    Json.size (Json.arr (masks.toList.map fun v => Json.num v.toNat)) ≤ 2 + n * 81 := by
  have hvalues : ∀ t ∈ masks.toList.map fun v => Json.num v.toNat, Json.size t ≤ 4 * 20 := by
    simp only [List.mem_map, forall_exists_index, and_imp, forall_apply_eq_imp_iff₂]
    intro v _
    have hv := v.toNat_lt
    apply size_u64_le
    unfold u64_max
    omega
  have hsize := Json.size_arr_le hvalues
  rw [List.length_map, Vector.length_toList] at hsize
  omega

theorem WasixWorkerIsolation.size_to_json_le {isolation : WasixWorkerIsolation}
    (hgroups : isolation.supplementary_group_ids.length ≤ WASIX_WORKER_MAX_SUPPLEMENTARY_GROUPS) :
    Json.size isolation.to_json ≤ 7000 := by
  unfold WasixWorkerIsolation.to_json
  refine (size_fields_le [("profileVersion", 4 * 10), ("userIds", 2 + 4 * 41),
    ("groupIds", 2 + 4 * 41), ("supplementaryGroupIds", 2 + 64 * 41),
    ("hasRootSupplementaryGroup", 5), ("noNewPrivileges", 5), ("dumpable", 5),
    ("capabilityMasks", 2 + 4 * 81), ("coreFileLimits", 2 + 2 * 81),
    ("fileSizeLimits", 2 + 2 * 81), ("addressSpaceLimits", 2 + 2 * 81),
    ("openFileLimits", 2 + 2 * 81), ("closedInheritedDescriptorCount", 4 * 10)] ?_ ?_).trans ?_
  · exact .cons ⟨rfl, size_u32_le _⟩
      (.cons ⟨rfl, size_ids_le Vector.length_toList.le⟩
      (.cons ⟨rfl, size_ids_le Vector.length_toList.le⟩
      (.cons ⟨rfl, size_ids_le hgroups⟩
      (.cons ⟨rfl, Json.size_bool_le _⟩ (.cons ⟨rfl, Json.size_bool_le _⟩
      (.cons ⟨rfl, Json.size_bool_le _⟩
      (.cons ⟨rfl, size_masks_le _⟩ (.cons ⟨rfl, size_masks_le _⟩ (.cons ⟨rfl, size_masks_le _⟩
      (.cons ⟨rfl, size_masks_le _⟩ (.cons ⟨rfl, size_masks_le _⟩
      (.cons ⟨rfl, size_u32_le _⟩ .nil))))))))))))
  · decide
  · decide

/-- The report of a worker that the parent accepts. -/
theorem WasixWorkerMetadata.fits {metadata : WasixWorkerMetadata} {process_id : UInt32}
    {executable : Bytes} {allowed_groups : List UInt32}
    (hvalid : metadata.validate W process_id (W.sha256_hex executable) allowed_groups = .ok ()) :
    MessageText (to_vec metadata.to_json) := by
  simp only [WasixWorkerMetadata.validate, bind_eq_ok, reject_eq_ok,
    bne_eq_false_iff_eq] at hvalid
  obtain ⟨_, -, _, hruntime, _, hcohort, _, hsha, _, -, hisolation⟩ := hvalid
  simp only [WasixWorkerIsolation.validate, bind_eq_ok, reject_eq_ok,
    Bool.or_eq_false_iff, decide_eq_false_iff_not] at hisolation
  obtain ⟨_, -, _, -, _, -, _, -, _, ⟨hgroups, -⟩, -⟩ := hisolation
  have hfits : Json.size metadata.isolation.to_json ≤ 7000 :=
    WasixWorkerIsolation.size_to_json_le (by omega)
  unfold WasixWorkerMetadata.to_json
  rw [hruntime, hcohort, hsha]
  apply MessageText.of_fields [("protocolVersion", 4 * 10), ("runtimeVersion", 6 * 38 + 2),
    ("cohortId", 6 * 38 + 2), ("workerBuildSha256", 386), ("processId", 4 * 10),
    ("isolation", 7000)]
  · exact .cons ⟨rfl, size_u32_le _⟩
      (.cons ⟨rfl, Json.size_str_le_of (by decide)⟩ (.cons ⟨rfl, Json.size_str_le_of (by decide)⟩
      (.cons ⟨rfl, size_sha256_le W executable⟩ (.cons ⟨rfl, size_u32_le _⟩
      (.cons ⟨rfl, hfits⟩ .nil)))))
  · decide
  · decide

/-! ### The worker writes a stream

Its messages pass the limits, so what it writes is what the parent accepts. -/

theorem write_worker_output_frame_writes (label : String)
    (hsize : message.length ≤ WASIX_WORKER_MAX_RESTORE_OUTPUT_BYTES) (w : Bytes) :
    writing.Upholds anyEffect (Must fun _ w' => w' = w ++ frame message)
      (write_worker_output_frame message label) w :=
  write_worker_bounded_frame_writes label (.inl rfl) hsize (by decide) w

/-- What a restore leaves on the pipe. -/
def ExecutedCheckpointRestore.transcript (W : Env) (restored : ExecutedCheckpointRestore) : Bytes :=
  frame (to_vec (restored.completion W).to_json) ++ (frame restored.stdout ++ frame restored.stderr)

/-- What a capture leaves on the pipe. -/
def ExecutedCheckpointCapture.transcript (W : Env) (captured : ExecutedCheckpointCapture) : Bytes :=
  frame (to_vec (captured.completion W).to_json)
    ++ (frame captured.journal ++ (frame captured.stdout ++ frame captured.stderr))

/-- The writer of a restore. -/
theorem write_restored_output_writes (hexit : IsI32 restored.exit_code)
    (hout : restored.stdout.length ≤ WASIX_WORKER_MAX_RESTORE_OUTPUT_BYTES)
    (herr : restored.stderr.length ≤ WASIX_WORKER_MAX_RESTORE_OUTPUT_BYTES) (w : Bytes) :
    writing.Upholds anyEffect (Must fun _ w' => w' = w ++ restored.transcript W)
      (write_restored_output W restored) w := by
  have hlimit := output_le_checkpoint
  have hout64 : restored.stdout.length ≤ u64_max := le_u64_max (by omega)
  have herr64 : restored.stderr.length ≤ u64_max := le_u64_max (by omega)
  unfold write_restored_output
  refine .bindM (.ok_orM (tryFrom_of_le hout64) _ w) ?_
  rintro _ _ ⟨rfl, rfl⟩
  refine .bindM (.ok_orM (tryFrom_of_le herr64) _ w) ?_
  rintro _ _ ⟨rfl, rfl⟩
  refine .bindM (write_worker_frame_writes
    (restored.completion_fits W hexit hout64 herr64).2 w) ?_
  rintro _ _ rfl
  refine .bindM (write_worker_output_frame_writes _ hout _) ?_
  rintro _ _ rfl
  refine .monoM (write_worker_output_frame_writes _ herr _) ?_
  rintro _ _ rfl
  rw [ExecutedCheckpointRestore.transcript]
  simp only [List.append_assoc]

/-- The writer of a capture. -/
theorem write_captured_output_writes (hexit : IsI32 captured.exit_code)
    (hpos : 1 ≤ captured.journal.length)
    (hjournal : captured.journal.length ≤ WASIX_WORKER_MAX_CHECKPOINT_BYTES)
    (hout : captured.stdout.length ≤ WASIX_WORKER_MAX_RESTORE_OUTPUT_BYTES)
    (herr : captured.stderr.length ≤ WASIX_WORKER_MAX_RESTORE_OUTPUT_BYTES) (w : Bytes) :
    writing.Upholds anyEffect (Must fun _ w' => w' = w ++ captured.transcript W)
      (write_captured_output W captured) w := by
  have hlimit := output_le_checkpoint
  have hjournal64 : captured.journal.length ≤ u64_max := le_u64_max hjournal
  have hout64 : captured.stdout.length ≤ u64_max := le_u64_max (by omega)
  have herr64 : captured.stderr.length ≤ u64_max := le_u64_max (by omega)
  unfold write_captured_output
  refine .bindM (.ok_orM (tryFrom_of_le hjournal64) _ w) ?_
  rintro _ _ ⟨rfl, rfl⟩
  refine .bindM (.ok_orM (tryFrom_of_le hout64) _ w) ?_
  rintro _ _ ⟨rfl, rfl⟩
  refine .bindM (.ok_orM (tryFrom_of_le herr64) _ w) ?_
  rintro _ _ ⟨rfl, rfl⟩
  refine .bindM (write_worker_frame_writes
    (captured.completion_fits W hexit hjournal64 hout64 herr64).2 w) ?_
  rintro _ _ rfl
  refine .bindM (write_worker_bounded_frame_writes _ (.inr hpos) hjournal (by decide) _) ?_
  rintro _ _ rfl
  refine .bindM (write_worker_output_frame_writes _ hout _) ?_
  rintro _ _ rfl
  refine .monoM (write_worker_output_frame_writes _ herr _) ?_
  rintro _ _ rfl
  rw [ExecutedCheckpointCapture.transcript]
  simp only [List.append_assoc]

/-! ## The round trip

What the worker's writers write, the parent's collectors accept. -/

/-- A message that both sides pass: the worker writes it, and the parent reads what was
written. -/
structure Agreed (W : Env) (text : Bytes) : Prop where
  fits : MessageText text
  written : writing.Yields (fun r w => r = .ok () ∧ w = frame text) (write_worker_frame text) []
  read : (delivering (frame text)).Yields (fun r _ => r = .ok text) (read_frame W) Heard.start

/-- What a postcondition says of a value that is known. -/
theorem eq_ok_of_must {σ : Type} {Q : α → σ → Prop} {r : Except ε α} {s : σ}
    (h : Monitor.Must Q r s) : ∃ a, r = .ok a ∧ Q a s := by
  cases r with
  | ok a => exact ⟨a, rfl, h⟩
  | error e => exact h.elim

theorem MessageText.agreed {text : Bytes} (h : MessageText text) : Agreed W text := by
  refine ⟨h, ?_, ?_⟩
  · refine writing_yields (Monitor.Upholds.mono (write_worker_frame_writes h.2 []) ?_)
    intro r w hr
    obtain ⟨_, rfl, hw⟩ := eq_ok_of_must hr
    exact ⟨rfl, hw⟩
  · refine delivering_yields (Monitor.Upholds.mono (read_frame_delivers W h (List.append_nil _)) ?_)
    intro r w hr
    obtain ⟨_, rfl, rfl, -⟩ := eq_ok_of_must hr
    rfl

/-- The output limits of a bounded frame, as both sides state them. -/
def Within (message : Bytes) (maximum : ℕ) (allow_empty : Bool) : Prop :=
  (allow_empty = true ∨ 1 ≤ message.length) ∧ message.length ≤ maximum

/-- The worker's limit, exactly. -/
theorem write_worker_bounded_frame_iff (label : String) (hmax : maximum ≤ u32_max) :
    writing.Yields (fun r _ => r = .ok () ↔ Within message maximum allow_empty)
      (write_worker_bounded_frame message maximum allow_empty label) [] := by
  apply writing_yields
  by_cases hwithin : Within message maximum allow_empty
  · refine Monitor.Upholds.mono
      (write_worker_bounded_frame_writes label hwithin.1 hwithin.2 hmax []) ?_
    intro r w hr
    obtain ⟨_, rfl, -⟩ := eq_ok_of_must hr
    exact iff_of_true rfl hwithin
  · refine Monitor.Upholds.mono (write_worker_bounded_frame_refuses label hwithin []) ?_
    rintro _ _ ⟨⟨e, rfl⟩, -⟩
    exact iff_of_false nofun hwithin

/-- The parent's limit, exactly. -/
theorem read_bounded_worker_frame_iff (W : Env) (label : String) (hmax : maximum ≤ u32_max)
    (hsize : message.length ≤ u32_max) :
    (delivering (frame message)).Yields
      (fun r _ => r = .ok message ↔ Within message maximum allow_empty)
      (read_bounded_worker_frame W maximum allow_empty label) Heard.start := by
  apply delivering_yields
  by_cases hwithin : Within message maximum allow_empty
  · refine Monitor.Upholds.mono (read_bounded_worker_frame_delivers W label [] hmax hwithin.2
      hwithin.1 (List.append_nil _)) ?_
    intro r h hr
    obtain ⟨_, rfl, rfl, -⟩ := eq_ok_of_must hr
    exact iff_of_true rfl hwithin
  · refine Monitor.Upholds.mono (read_length_prefixed_refuses W _ hsize ?_ (List.prefix_refl _)) ?_
    · simp only [Within, not_and_or, not_or, Nat.not_le, Bool.not_eq_true] at hwithin
      simp only [Bool.or_eq_true, Bool.and_eq_true, Bool.not_eq_true', beq_iff_eq,
        decide_eq_true_eq]
      exact hwithin.imp (And.imp_right fun hlt => by omega) id
    · rintro _ _ ⟨e, rfl⟩
      exact iff_of_false nofun hwithin

/-- What the worker writes of a capture, the parent accepts. -/
theorem capture_transcript_accepted (hexit : captured.exit_code = 0)
    (hpos : 1 ≤ captured.journal.length)
    (hjournal : captured.journal.length ≤ WASIX_WORKER_MAX_CHECKPOINT_BYTES)
    (hout : captured.stdout.length ≤ WASIX_WORKER_MAX_RESTORE_OUTPUT_BYTES)
    (herr : captured.stderr.length ≤ WASIX_WORKER_MAX_RESTORE_OUTPUT_BYTES)
    (hserde : W.capture_completion_from_slice (to_vec (captured.completion W).to_json)
      = .ok (captured.completion W)) :
    writing.Yields (fun r w => r = .ok () ∧ w = captured.transcript W)
        (write_captured_output W captured) [] ∧
      (delivering (captured.transcript W)).Yields
        (fun r h => r = .ok (captured.completion W, captured.journal, captured.stdout,
            captured.stderr) ∧ h.stream = captured.transcript W ∧ h.ended = true)
        (collect_checkpoint_capture_output W) Heard.start := by
  have hi32 : IsI32 captured.exit_code := by
    rw [hexit]
    unfold IsI32
    omega
  have hlimit := output_le_checkpoint
  have hfits := captured.completion_fits W hi32 (le_u64_max hjournal) (le_u64_max (by omega))
    (le_u64_max (by omega))
  constructor
  · refine writing_yields (Monitor.Upholds.mono
      (write_captured_output_writes hi32 hpos hjournal hout herr []) ?_)
    intro r w hr
    obtain ⟨_, rfl, hw⟩ := eq_ok_of_must hr
    exact ⟨rfl, hw⟩
  · obtain ⟨exit_code, journal, stdout, stderr⟩ := captured
    obtain rfl : exit_code = 0 := hexit
    have hstream : CaptureStream W journal stdout stderr
        (ExecutedCheckpointCapture.transcript W ⟨0, journal, stdout, stderr⟩) :=
      ⟨⟨_, hfits, hserde, rfl⟩, hpos, hjournal, hout, herr⟩
    refine delivering_yields (Monitor.Upholds.mono
      (collect_checkpoint_capture_output_delivers hstream) ?_)
    intro r h hr
    obtain ⟨_, rfl, rfl, rfl⟩ := eq_ok_of_must hr
    exact ⟨rfl, rfl, rfl⟩

/-- What the worker writes of a restore, the parent accepts. -/
theorem restore_transcript_accepted (hexit : restored.exit_code = 0)
    (hout : restored.stdout.length ≤ WASIX_WORKER_MAX_RESTORE_OUTPUT_BYTES)
    (herr : restored.stderr.length ≤ WASIX_WORKER_MAX_RESTORE_OUTPUT_BYTES)
    (hserde : W.restore_completion_from_slice (to_vec (restored.completion W).to_json)
      = .ok (restored.completion W)) :
    writing.Yields (fun r w => r = .ok () ∧ w = restored.transcript W)
        (write_restored_output W restored) [] ∧
      (delivering (restored.transcript W)).Yields
        (fun r h => r = .ok (restored.stdout, restored.stderr) ∧
          h.stream = restored.transcript W ∧ h.ended = true)
        (finish_checkpoint_restore W) Heard.start := by
  have hi32 : IsI32 restored.exit_code := by
    rw [hexit]
    unfold IsI32
    omega
  have hlimit := output_le_checkpoint
  have hfits := restored.completion_fits W hi32 (le_u64_max (by omega)) (le_u64_max (by omega))
  constructor
  · refine writing_yields (Monitor.Upholds.mono
      (write_restored_output_writes hi32 hout herr []) ?_)
    intro r w hr
    obtain ⟨_, rfl, hw⟩ := eq_ok_of_must hr
    exact ⟨rfl, hw⟩
  · obtain ⟨exit_code, stdout, stderr⟩ := restored
    obtain rfl : exit_code = 0 := hexit
    have hstream : RestoreStream W stdout stderr
        (ExecutedCheckpointRestore.transcript W ⟨0, stdout, stderr⟩) :=
      ⟨⟨_, hfits, hserde, rfl⟩, hout, herr⟩
    refine delivering_yields (Monitor.Upholds.mono
      (finish_checkpoint_restore_delivers hstream) ?_)
    intro r h hr
    obtain ⟨_, rfl, rfl, rfl⟩ := eq_ok_of_must hr
    exact ⟨rfl, rfl, rfl⟩

/-- The worker's output and the parent's reading of it. What the worker writes for a guest that
exited with 0 within the limits is its transcript, and the parent accepts the transcript in
whatever pieces it comes and returns the output that went in. Whatever else the parent accepts,
from whatever worker, is such a stream to the last byte, with any spelling of the completion
that decodes to it. Every message of a worker that the parent accepts passes both sides'
checks, and so does a bounded frame at the one side exactly when it does at the other. The
decoder is asked only to decode the completion at hand. -/
theorem worker_output_round_trip (W : Env) :
    (∀ captured : ExecutedCheckpointCapture, captured.exit_code = 0 →
      1 ≤ captured.journal.length →
      captured.journal.length ≤ WASIX_WORKER_MAX_CHECKPOINT_BYTES →
      captured.stdout.length ≤ WASIX_WORKER_MAX_RESTORE_OUTPUT_BYTES →
      captured.stderr.length ≤ WASIX_WORKER_MAX_RESTORE_OUTPUT_BYTES →
      W.capture_completion_from_slice (to_vec (captured.completion W).to_json)
        = .ok (captured.completion W) →
      writing.Yields (fun r w => r = .ok () ∧ w = captured.transcript W)
          (write_captured_output W captured) [] ∧
        (delivering (captured.transcript W)).Yields
          (fun r h => r = .ok (captured.completion W, captured.journal, captured.stdout,
              captured.stderr) ∧ h.stream = captured.transcript W ∧ h.ended = true)
          (collect_checkpoint_capture_output W) Heard.start) ∧
    (∀ completion journal stdout stderr h,
      hearing.Comes (collect_checkpoint_capture_output W) Heard.start
        (.ret (.ok (completion, journal, stdout, stderr))) h →
      CaptureStream W journal stdout stderr h.stream ∧ h.ended = true ∧
        completion = ExecutedCheckpointCapture.completion W ⟨0, journal, stdout, stderr⟩) ∧
    (∀ restored : ExecutedCheckpointRestore, restored.exit_code = 0 →
      restored.stdout.length ≤ WASIX_WORKER_MAX_RESTORE_OUTPUT_BYTES →
      restored.stderr.length ≤ WASIX_WORKER_MAX_RESTORE_OUTPUT_BYTES →
      W.restore_completion_from_slice (to_vec (restored.completion W).to_json)
        = .ok (restored.completion W) →
      writing.Yields (fun r w => r = .ok () ∧ w = restored.transcript W)
          (write_restored_output W restored) [] ∧
        (delivering (restored.transcript W)).Yields
          (fun r h => r = .ok (restored.stdout, restored.stderr) ∧
            h.stream = restored.transcript W ∧ h.ended = true)
          (finish_checkpoint_restore W) Heard.start) ∧
    (∀ stdout stderr h,
      hearing.Comes (finish_checkpoint_restore W) Heard.start (.ret (.ok (stdout, stderr))) h →
      RestoreStream W stdout stderr h.stream ∧ h.ended = true) ∧
    (∀ (metadata : WasixWorkerMetadata) (process_id : UInt32) (executable : Bytes)
      (allowed_groups : List UInt32),
      metadata.validate W process_id (W.sha256_hex executable) allowed_groups = .ok () →
      Agreed W (to_vec metadata.to_json)) ∧
    (∀ module journal request : Bytes, module.length ≤ u64_max → journal.length ≤ u64_max →
      request.length ≤ u64_max →
      Agreed W (to_vec (WasixCheckpointTransportAck.to_json
        ⟨journal.length, W.sha256_hex journal⟩)) ∧
      Agreed W (to_vec (WasixCheckpointRestoreAck.to_json
        ⟨module.length, W.sha256_hex module, journal.length, W.sha256_hex journal⟩)) ∧
      Agreed W (to_vec (WasixCheckpointCaptureAck.to_json
        ⟨module.length, W.sha256_hex module, request.length, W.sha256_hex request⟩))) ∧
    (∀ (exit_code : ℤ) (journal stdout stderr : Bytes), IsI32 exit_code →
      journal.length ≤ u64_max → stdout.length ≤ u64_max → stderr.length ≤ u64_max →
      Agreed W (to_vec (ExecutedCheckpointRestore.completion W
        ⟨exit_code, stdout, stderr⟩).to_json) ∧
      Agreed W (to_vec (ExecutedCheckpointCapture.completion W
        ⟨exit_code, journal, stdout, stderr⟩).to_json)) ∧
    (∀ (message : Bytes) (maximum : ℕ) (allow_empty : Bool) (label label' : String),
      maximum ≤ u32_max → message.length ≤ u32_max →
      writing.Yields (fun r _ => r = .ok () ↔ Within message maximum allow_empty)
          (write_worker_bounded_frame message maximum allow_empty label) [] ∧
        (delivering (frame message)).Yields
          (fun r _ => r = .ok message ↔ Within message maximum allow_empty)
          (read_bounded_worker_frame W maximum allow_empty label') Heard.start) := by
  refine ⟨?_, ?_, ?_, ?_, ?_, ?_, ?_, ?_⟩
  · intro captured hexit hpos hjournal hout herr hserde
    exact capture_transcript_accepted hexit hpos hjournal hout herr hserde
  · intro completion journal stdout stderr h hcomes
    -- From the start nothing was heard before, so what was heard is the stream itself.
    obtain ⟨s, status, hs, hcompletion, -, rfl⟩ :=
      (collect_checkpoint_capture_output_hears W Heard.start).comes hcomes
    exact ⟨hs, rfl, hcompletion⟩
  · intro restored hexit hout herr hserde
    exact restore_transcript_accepted hexit hout herr hserde
  · intro stdout stderr h hcomes
    obtain ⟨s, status, hs, -, rfl⟩ :=
      (finish_checkpoint_restore_hears W Heard.start).comes hcomes
    exact ⟨hs, rfl⟩
  · intro metadata process_id executable allowed_groups hvalid
    exact (WasixWorkerMetadata.fits hvalid).agreed
  · intro module journal request hmodule hjournal hrequest
    exact ⟨(WasixCheckpointTransportAck.fits W hjournal).agreed,
      (WasixCheckpointRestoreAck.fits W hmodule hjournal).agreed,
      (WasixCheckpointCaptureAck.fits W hmodule hrequest).agreed⟩
  · intro exit_code journal stdout stderr hexit hjournal hout herr
    exact ⟨(ExecutedCheckpointRestore.completion_fits W hexit hout herr).agreed,
      (ExecutedCheckpointCapture.completion_fits W hexit hjournal hout herr).agreed⟩
  · intro message maximum allow_empty label label' hmax hsize
    exact ⟨write_worker_bounded_frame_iff label hmax,
      read_bounded_worker_frame_iff W label' hmax hsize⟩

/-! ### An example

A capture and a restore whose guests wrote nothing. -/

/-- A capture of the checkpoint example's journal by a guest that wrote nothing. -/
def sampleCapture : ExecutedCheckpointCapture := ⟨0, Checkpoint.sampleJournal, [], []⟩

/-- A restore of a guest that wrote nothing. -/
def sampleRestore : ExecutedCheckpointRestore := ⟨0, [], []⟩

/-- The digest of the checkpoint example's journal, and that of nothing. -/
def sampleDigest (bytes : Bytes) : String := Checkpoint.sampleEnv.crypto.sha256_hex bytes

/-- The completion of the capture. -/
def sampleCaptureCompletion : WasixCheckpointCaptureCompletion :=
  ⟨0, Checkpoint.sampleJournal.length, sampleDigest Checkpoint.sampleJournal, 0, sampleDigest [],
    0, sampleDigest []⟩

/-- The completion of the restore. -/
def sampleRestoreCompletion : WasixCheckpointRestoreCompletion :=
  ⟨0, 0, sampleDigest [], 0, sampleDigest []⟩

theorem sampleEnv_usize_bits : 32 ≤ Checkpoint.sampleEnv.target.usize_bits := by decide

/-- An environment on the target of the checkpoint example that decodes the two completions. -/
def sampleTranscriptEnv : Env where
  checkpoint := Checkpoint.sampleEnv
  usize_bits_ge := sampleEnv_usize_bits
  metadata_from_slice _ := .error "expected value at line 1 column 1"
  transport_ack_from_slice _ := .error "expected value at line 1 column 1"
  restore_ack_from_slice _ := .error "expected value at line 1 column 1"
  restore_completion_from_slice text :=
    if text = to_vec sampleRestoreCompletion.to_json then .ok sampleRestoreCompletion
    else .error "expected value at line 1 column 1"
  capture_request_from_slice _ := .error "expected value at line 1 column 1"
  capture_ack_from_slice _ := .error "expected value at line 1 column 1"
  capture_completion_from_slice text :=
    if text = to_vec sampleCaptureCompletion.to_json then .ok sampleCaptureCompletion
    else .error "expected value at line 1 column 1"
  debug value := value
  display_error _ := ""
  display_status _ := ""

/-- A worker with one group, as it reports itself to the parent that spawned it as 7. -/
def sampleWorker : WasixWorkerMetadata where
  protocol_version := WASIX_WORKER_PROTOCOL_VERSION
  runtime_version := CARGO_PKG_VERSION
  cohort_id := WASIX_COHORT_ID
  worker_build_sha256 := sampleDigest []
  process_id := 7
  isolation := {
    profile_version := WASIX_WORKER_ISOLATION_PROFILE_VERSION
    user_ids := .replicate 4 1000
    group_ids := .replicate 4 1000
    supplementary_group_ids := [1000]
    has_root_supplementary_group := false
    no_new_privileges := true
    dumpable := false
    capability_masks := .replicate 4 0
    core_file_limits := .replicate 2 0
    file_size_limits := .replicate 2 1024
    address_space_limits := .replicate 2 1024
    open_file_limits := .replicate 2 64
    closed_inherited_descriptor_count := 0 }

theorem sampleTranscriptEnv_capture :
    sampleTranscriptEnv.capture_completion_from_slice
      (to_vec (sampleCapture.completion sampleTranscriptEnv).to_json)
        = .ok (sampleCapture.completion sampleTranscriptEnv) := by
  have hcompletion : sampleCapture.completion sampleTranscriptEnv = sampleCaptureCompletion := rfl
  rw [hcompletion]
  simp only [sampleTranscriptEnv, if_true]

theorem sampleTranscriptEnv_restore :
    sampleTranscriptEnv.restore_completion_from_slice
      (to_vec (sampleRestore.completion sampleTranscriptEnv).to_json)
        = .ok (sampleRestore.completion sampleTranscriptEnv) := by
  have hcompletion : sampleRestore.completion sampleTranscriptEnv = sampleRestoreCompletion := rfl
  rw [hcompletion]
  simp only [sampleTranscriptEnv, if_true]

/-- The example goes through in both directions: the parent comes to the return of the journal,
and what it heard by then is the stream. -/
theorem worker_output_round_trip_sample :
    (∃ h, hearing.Comes (collect_checkpoint_capture_output sampleTranscriptEnv) Heard.start
        (.ret (.ok (sampleCapture.completion sampleTranscriptEnv, Checkpoint.sampleJournal, [],
          []))) h ∧ CaptureStream sampleTranscriptEnv Checkpoint.sampleJournal [] [] h.stream) ∧
      (∃ h, hearing.Comes (finish_checkpoint_restore sampleTranscriptEnv) Heard.start
        (.ret (.ok ([], []))) h ∧ RestoreStream sampleTranscriptEnv [] [] h.stream) ∧
      Agreed sampleTranscriptEnv (to_vec sampleWorker.to_json) := by
  obtain ⟨hcapture, haccepted, hrestore, hrestored, hready, -⟩ :=
    worker_output_round_trip sampleTranscriptEnv
  have hhears : ∀ s h op r, (delivering s).ok h op r → hearing.ok h op r :=
    fun _ _ _ _ _ => trivial
  refine ⟨?_, ?_, ?_⟩
  · obtain ⟨-, hread⟩ := hcapture sampleCapture rfl (by decide) (by decide) (by decide) (by decide)
      sampleTranscriptEnv_capture
    obtain ⟨_, h, hcomes, rfl, -⟩ := hread.returns
    have hheard := hcomes.weaken (hhears _) rfl
    exact ⟨h, hheard, (haccepted _ _ _ _ h hheard).1⟩
  · obtain ⟨-, hread⟩ := hrestore sampleRestore rfl (by decide) (by decide)
      sampleTranscriptEnv_restore
    obtain ⟨_, h, hcomes, rfl, -⟩ := hread.returns
    have hheard := hcomes.weaken (hhears _) rfl
    exact ⟨h, hheard, (hrestored _ _ h hheard).1⟩
  · exact hready sampleWorker 7 [] [1000] (by decide +kernel)

end WasmRuntime.Worker
