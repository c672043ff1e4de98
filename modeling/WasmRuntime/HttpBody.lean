/-
Bodies that are polled for frames, and the limiter around them.

A body is known by what it answers: each poll finds it pending, at its end, or with a frame or
an error. What `LimitBody` makes of an answer is one function, `LimitBody.poll_frame`, and a
reader is whoever polls it any number of times, also after an error.

`drain_bytes_le` is the point of the limiter. However the bytes are split over frames, and
whatever the body answers after an error, the data that gets through is at most the limit.
-/
import WasmRuntime.Exec

set_option autoImplicit false

namespace WasmRuntime.Http

/-- `std::task::Poll`. -/
inductive Poll (α : Type) where
  | Pending
  | Ready (value : α)
  deriving DecidableEq, Repr

/-- A frame: data, or trailers. -/
inductive Frame where
  | data (bytes : Bytes)
  | trailers (headers : List (String × Bytes))
  deriving DecidableEq, Repr

/-- `Frame::data_ref`. -/
def Frame.data_ref : Frame → Option Bytes
  | .data bytes => some bytes
  | .trailers _ => none

/-- What a poll of a body answers. -/
abbrev FramePoll (ε : Type) : Type := Poll (Option (Except ε Frame))

/-- The data bytes in an answer. -/
def FramePoll.bytes {ε : Type} : FramePoll ε → ℕ
  | .Ready (some (.ok frame)) => (frame.data_ref.map List.length).getD 0
  | _ => 0

structure SizeHint where
  lower : ℕ
  upper : Option ℕ
  deriving DecidableEq, Repr

/-- `SizeHint::set_upper`, which asserts that the bound is not under the lower one. -/
def SizeHint.set_upper {ε : Type} (hint : SizeHint) (value : ℕ) : Exec ε SizeHint :=
  if hint.lower ≤ value then .ok { hint with upper := some value } else .panic

structure LimitBody (β ε : Type) where
  body : β
  remaining : ℕ
  error : ℕ → ε

namespace LimitBody

variable {β ε ε' : Type}

/-- `LimitBody::new`. -/
def new (body : β) (limit : ℕ) (error : ℕ → ε) : LimitBody β ε where
  body := body
  remaining := limit
  error := error

/-- `LimitBody::poll_frame`, from what the inner body answers. -/
def poll_frame (into : ε' → ε) (me : LimitBody β ε) (frame : FramePoll ε') :
    FramePoll ε × LimitBody β ε :=
  match frame with
  | .Pending => (.Pending, me)
  | .Ready (some (.ok frame)) =>
    let bytes := (frame.data_ref.map List.length).getD 0
    if bytes > me.remaining then
      (.Ready (some (.error (me.error bytes))), { me with remaining := 0 })
    else (.Ready (some (.ok frame)), { me with remaining := me.remaining - bytes })
  | .Ready (some (.error error)) => (.Ready (some (.error (into error))), me)
  | .Ready none => (.Ready none, me)

/-- `LimitBody::size_hint`, from that of the inner body. -/
def size_hint (me : LimitBody β ε) (hint : SizeHint) : Exec ε SizeHint :=
  if hint.upper.all fun upper => decide (upper > me.remaining) then hint.set_upper me.remaining
  else .ok hint

/-- The bound that a hint is given never exceeds what remains, and the assertion fails for a
body that announces more than that. -/
theorem size_hint_panics_iff (me : LimitBody β ε) (hint : SizeHint)
    (hhint : ∀ upper ∈ hint.upper, hint.lower ≤ upper) :
    me.size_hint hint = .panic ↔ me.remaining < hint.lower := by
  rw [size_hint]
  cases hupper : hint.upper with
  | none => simp [SizeHint.set_upper]
  | some upper =>
    have hle := hhint upper hupper
    by_cases hover : upper > me.remaining
    · simp [SizeHint.set_upper, hover]
    · simp only [Option.all_some, decide_eq_true_eq, if_neg hover, reduceCtorEq, false_iff]
      omega

/-- What a reader gets that polls once for each answer of the inner body. -/
def drain (into : ε' → ε) (me : LimitBody β ε) : List (FramePoll ε') → List (FramePoll ε)
  | [] => []
  | answer :: rest =>
    let polled := me.poll_frame into answer
    polled.1 :: polled.2.drain into rest

/-- One poll: the bytes that get through come off what remains. -/
theorem poll_frame_bytes (into : ε' → ε) (me : LimitBody β ε) (frame : FramePoll ε') :
    (me.poll_frame into frame).1.bytes + (me.poll_frame into frame).2.remaining
      ≤ me.remaining := by
  rcases frame with _ | (_ | (error | frame))
  · simp [poll_frame, FramePoll.bytes]
  · simp [poll_frame, FramePoll.bytes]
  · simp [poll_frame, FramePoll.bytes]
  · by_cases hover : (frame.data_ref.map List.length).getD 0 > me.remaining
    · simp [poll_frame, if_pos hover, FramePoll.bytes]
    · simp only [poll_frame, if_neg hover, FramePoll.bytes]
      omega

/-- Whatever the inner body answers, and however often it is polled, the data that gets
through is at most what remains. -/
theorem drain_bytes_le (into : ε' → ε) (me : LimitBody β ε) (answers : List (FramePoll ε')) :
    ((me.drain into answers).map FramePoll.bytes).sum ≤ me.remaining := by
  induction answers generalizing me with
  | nil => exact Nat.zero_le _
  | cons answer rest ih =>
    have hstep := poll_frame_bytes into me answer
    have hrest := ih (me.poll_frame into answer).2
    rw [drain, List.map_cons, List.sum_cons]
    omega

end LimitBody

end WasmRuntime.Http
