/-
The crate-wide vocabulary: `crate::Error`, the build target, the version constants and the two
cryptographic primitives.
-/
import WasmRuntime.Exec

set_option autoImplicit false

namespace WasmRuntime

open ByteCodec

/-! ## `error.rs`

The variants and fields that some modelled function makes or reads. -/

inductive WasixCheckpointRestorePhase where
  | Ready | Input | Authorization | Execution | Output | Shutdown
  deriving DecidableEq, Repr

inductive WasixCheckpointCapturePhase where
  | Ready | Input | Authorization | Execution | Output | Shutdown
  deriving DecidableEq, Repr

inductive WasixCheckpointRestoreFailureReason where
  | Protocol | Runtime | ResourceLimit | WorkerProcess
  deriving DecidableEq, Repr

inductive WasixCheckpointCaptureFailureReason where
  | Protocol | Runtime | ResourceLimit | WorkerProcess
  deriving DecidableEq, Repr

structure WasixWorkerDiagnostics where
  bytes : Bytes
  truncated : Bool
  deriving DecidableEq, Repr

structure WasixCheckpointRestoreFailure where
  phase : WasixCheckpointRestorePhase
  reason : WasixCheckpointRestoreFailureReason
  diagnostics : WasixWorkerDiagnostics
  exit_code : Option ℤ
  exit_signal : Option ℤ
  deriving DecidableEq, Repr

structure WasixCheckpointCaptureFailure where
  phase : WasixCheckpointCapturePhase
  reason : WasixCheckpointCaptureFailureReason
  diagnostics : WasixWorkerDiagnostics
  exit_code : Option ℤ
  exit_signal : Option ℤ
  deriving DecidableEq, Repr

/-- `crate::Error`. -/
inductive Error where
  | Configuration (message : String)
  | Io (message : String)
  | Preparation (message : String)
  | UnsupportedComponent (message : String)
  | Execution (message : String)
  | Limit (what : String)
  | Cancelled
  | IdleEvicted
  | InvalidState (what : String)
  | Timeout
  | Cache (message : String)
  | Checkpoint (message : String)
  | CheckpointRestore (failure : WasixCheckpointRestoreFailure)
  | CheckpointCapture (failure : WasixCheckpointCaptureFailure)
  deriving DecidableEq, Repr

/-! ## The build target

`Target` holds what the compiler knows and the source does not: the width of `usize`, the byte order
and the target triple that `build.rs` exports as `RUNTRUE_BUILD_TARGET`. -/

/-- What the compiler fixes. `usize` is 16, 32 or 64 bits wide on every Rust
target. The triple is a built-in name or the file stem of a custom target
specification, so a file-name length bounds it. -/
structure Target where
  usize_bits : ℕ
  little_endian : Bool
  build_target : String
  usize_bits_mem : usize_bits = 16 ∨ usize_bits = 32 ∨ usize_bits = 64
  build_target_short : (utf8 build_target).length ≤ 255

theorem usize_bits_64 : 64 = 16 ∨ 64 = 32 ∨ 64 = 64 := .inr (.inr rfl)

theorem linux_gnu_short : (utf8 "x86_64-unknown-linux-gnu").length ≤ 255 := by decide

/-- `usize::MAX`. -/
def Target.usize_max (T : Target) : ℕ := 2 ^ T.usize_bits - 1

/-- `u32::MAX`. -/
def u32_max : ℕ := 2 ^ 32 - 1

/-- `u64::MAX`. -/
def u64_max : ℕ := 2 ^ 64 - 1

theorem Target.usize_max_le_u64_max (T : Target) : T.usize_max ≤ u64_max := by
  unfold Target.usize_max u64_max
  rcases T.usize_bits_mem with h | h | h <;> rw [h] <;> omega

/-- A `usize` holds at least sixteen bits. -/
theorem Target.u16_max_le_usize_max (T : Target) : 65535 ≤ T.usize_max := by
  unfold Target.usize_max
  rcases T.usize_bits_mem with h | h | h <;> rw [h] <;> omega

/-- A `&[u8]`. The language bounds the length of a slice, and the scanner and the
codec count bytes in `usize` because of it. -/
structure Slice (T : Target) where
  bytes : Bytes
  len_le : bytes.length ≤ T.usize_max

/-- `env!("CARGO_PKG_VERSION")`. -/
def CARGO_PKG_VERSION : String := "0.1.0-alpha.6"

def WASIX_WORKER_PROTOCOL_VERSION : UInt32 := 8

def WASIX_COHORT_ID : String := "wasmer-7.1.0+wasix-0.701.0+webc-11.0.0"

def WASMTIME_VERSION : String := "46.0.3"

/-! ## Primitives

`Crypto` holds SHA-256 and HMAC-SHA256 as the `sha2` and `hmac` crates document them, functions from
byte strings to 32 bytes. Nothing in the development looks inside; a result that needs more (that
two given strings do not collide) says so in its hypotheses. -/

/-- SHA-256 and HMAC-SHA256. The streaming interfaces of both crates hash the
concatenation of what they are fed, so one argument stands for a sequence of
`update` calls. -/
structure Crypto where
  sha256 : Bytes → Bytes
  hmac_sha256 : Bytes → Bytes → Bytes
  sha256_length : ∀ bytes, (sha256 bytes).length = 32
  hmac_sha256_length : ∀ key bytes, (hmac_sha256 key bytes).length = 32

/-- `hex::encode(Sha256::digest(bytes))`. -/
def Crypto.sha256_hex (C : Crypto) (bytes : Bytes) : String := hexEncode (C.sha256 bytes)

end WasmRuntime
