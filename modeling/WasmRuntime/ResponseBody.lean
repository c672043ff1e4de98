/-
A request that is alone with the response to it.

The buffered and the streaming way meet in `ResponseBody.gather`, which says what a body comes to
after `n` polls and names neither the service nor its limits.
-/
import WasmRuntime.Admission

set_option autoImplicit false

namespace WasmRuntime.Http

open Prog

variable {ρ β : Type}

/-! ## The response

A response body is known by its answers: what each poll finds, in order, and what `is_end_stream`
says after so many polls. -/

/-- A body, by its answers. -/
structure ResponseBody where
  /-- What a poll answers, after so many. -/
  poll : ℕ → FramePoll String
  /-- What `is_end_stream` answers, after so many polls. -/
  is_end_stream : ℕ → Bool

/-- What `Body` documents of `is_end_stream`: when it is true, the next poll finds the end. -/
def ResponseBody.Honest (body : ResponseBody) : Prop :=
  ∀ n, body.is_end_stream n = true → body.poll n = .Ready none

/-- The data of a frame. -/
def Frame.bytes (frame : Frame) : Bytes := frame.data_ref.getD []

/-- What reading a body comes to within `n` polls, after `polls` of them that brought `read`:
nothing yet, an error, or all of its data; and the polls by then. -/
def ResponseBody.gather (body : ResponseBody) :
    ℕ → ℕ → Bytes → Awaited (Except String Bytes) × ℕ
  | 0, polls, _ => (.dropped, polls)
  | n + 1, polls, read =>
    match body.poll polls with
    | .Pending => body.gather n (polls + 1) read
    | .Ready (some (.ok frame)) => body.gather n (polls + 1) (read ++ frame.bytes)
    | .Ready (some (.error error)) => (.ready (.error error), polls + 1)
    | .Ready none => (.ready (.ok read), polls + 1)

/-! ## The request alone

`Host` is the rest of what a request meets, the parts of the response and the values that the clock
and the other counters happen to read, and `Host.step` lets the request run on that, from counters
of any value. -/

/-- What a request meets. -/
structure Host where
  target : Target
  parts : Parts
  body : ResponseBody
  /-- What the clock, `workers_created` and the package tier read, one after the other. -/
  reading : ℕ → ℕ

/-- The counters, the polls of the body so far, and the readings. -/
structure Serving extends Counters where
  polls : ℕ
  readings : ℕ

/-- What an operation answers. -/
def Host.answer (H : Host) (s : Serving) : (op : ServiceOp ρ β) → op.Answer
  | .acquire_owned => if 0 < s.available then .ready (.ok ()) else .dropped
  | .load_workers_created | .load_package_tier | .now => H.reading s.readings
  | .fetch_add_next_request => s.next_request
  | .handle _ _ => .ready (.ok H.parts)
  | .is_end_stream => H.body.is_end_stream s.polls
  | .poll_frame => H.body.poll s.polls
  -- `handle_polled` and `read_to_end` ask for neither of these.
  | .collect => .dropped
  | .owner => .drop
  | .release_permit | .fetch_add_in_flight | .fetch_sub_in_flight | .fetch_add_completed
  | .returned _ | .yielded _ => ()

/-- What it leaves behind. -/
def Host.after (H : Host) (s : Serving) (op : ServiceOp ρ β) : Serving where
  toCounters := s.toCounters.next H.target op (H.answer s op)
  polls := match op with
    | .poll_frame => s.polls + 1
    | _ => s.polls
  readings := match op with
    | .load_workers_created | .load_package_tier | .now => s.readings + 1
    | _ => s.readings

/-- One operation of the request. -/
def Host.step (H : Host) (s : Serving) (op : ServiceOp ρ β) : op.Answer × Serving :=
  (H.answer s op, H.after s op)

theorem Host.step_poll_frame (H : Host) (s : Serving) :
    H.step s (.poll_frame : ServiceOp ρ β)
      = (H.body.poll s.polls, { s with polls := s.polls + 1 }) := rfl

/-! ## Collecting

`HttpService::handle` collects the body. What `BodyExt::collect` does with a body is written out as
its polls, and `handle_polled n` is `handle` with them in place: its future is dropped after `n`
polls of the body if it is not done by then, so that "handle returns" and "handle goes on for ever"
are statements about all `n`. -/

/-- `BodyExt::collect` and `to_bytes`, dropped after `n` polls. -/
def collect : ℕ → Bytes → ServiceM ρ β (Awaited (Except String Bytes))
  | 0, _ => pure .dropped
  | n + 1, collected => do
      match ← ask .poll_frame with
      | .Pending => collect n collected
      | .Ready (some (.ok frame)) => collect n (collected ++ frame.bytes)
      | .Ready (some (.error error)) => pure (.ready (.error error))
      | .Ready none => pure (.ready (.ok collected))

/-- Every operation is itself, but for the collecting. -/
def polled (n : ℕ) : (op : ServiceOp ρ β) → ServiceM ρ β op.Answer
  | .collect => collect n []
  | op => ask op

/-- `HttpService::handle`, dropped after `n` polls of the response body. -/
def handle_polled (self : HttpService ρ) (request : HttpRequest) (n : ℕ) :
    ServiceM ρ β (Awaited (Except Error HttpResponse)) :=
  (handle self request).via (polled n)

/-- It gathers what there is to be gathered. -/
theorem interp_collect (H : Host) (n : ℕ) (collected : Bytes) (s : Serving) :
    interp H.step (collect n collected : ServiceM ρ β _) s
      = ((H.body.gather n s.polls collected).1,
          { s with polls := (H.body.gather n s.polls collected).2 }) := by
  induction n generalizing collected s with
  | zero => rfl
  | succ n ih =>
    rcases hpoll : H.body.poll s.polls with _ | (_ | (error | frame))
    all_goals simp only [collect, ask, perform_bind, interp_vis, Host.step_poll_frame,
      ResponseBody.gather, hpoll]
    · exact ih collected _
    · rfl
    · rfl
    · exact ih (collected ++ frame.bytes) _

/-! ## The buffered response

What `handle` returns is a function of what it has collected. -/

/-- A result that is a value. -/
def Awaited.isOk {ε α : Type} : Awaited (Except ε α) → Bool
  | .ready (.ok _) => true
  | _ => false

/-- The state when the request has given back what it took, completed or not. -/
def Serving.over (H : Host) (s : Serving) (completed : Bool) (polls readings : ℕ) : Serving where
  available := s.available - 1 + 1
  in_flight := ((s.in_flight + 1) % (H.target.usize_max + 1) + H.target.usize_max)
    % (H.target.usize_max + 1)
  completed_requests :=
    if completed then (s.completed_requests + 1) % (u64_max + 1) else s.completed_requests
  next_request := (s.next_request + 1) % (u64_max + 1)
  polls := polls
  readings := readings

/-- A counter of the width of the target comes back to where it was. -/
theorem Serving.over_in_flight {H : Host} {s : Serving} (h : s.in_flight ≤ H.target.usize_max)
    (completed : Bool) (polls readings : ℕ) :
    (s.over H completed polls readings).in_flight = s.in_flight := by
  show ((s.in_flight + 1) % (H.target.usize_max + 1) + H.target.usize_max)
    % (H.target.usize_max + 1) = s.in_flight
  rw [Nat.mod_add_mod, show s.in_flight + 1 + H.target.usize_max
    = s.in_flight + (H.target.usize_max + 1) by omega, Nat.add_mod_right]
  exact Nat.mod_eq_of_lt (by omega)

/-- What `handle` returns, by what it has collected. -/
def HttpService.buffered (self : HttpService ρ) (H : Host) (s : Serving) :
    Awaited (Except String Bytes) → Awaited (Except Error HttpResponse)
  | .dropped => .dropped
  | .ready (.error error) => .ready (.error (.Execution error))
  | .ready (.ok body) =>
    if body.length > self.max_output_bytes then .ready (.error (.Limit "output bytes"))
    else .ready (.ok {
      status := H.parts.status, headers := H.parts.headers, body := body,
      elapsed := H.reading (s.readings + 3) - H.reading s.readings,
      package_tier := package_tier_from_code (H.reading (s.readings + 1)),
      worker_created := decide (H.reading (s.readings + 4) > H.reading (s.readings + 2)) })

/-- A buffered request that comes to collecting: it is within the input limit, and it can be
built. -/
structure HttpService.Accepts (service : HttpService ρ) (request : HttpRequest) : Prop where
  input : request.body.length ≤ service.max_input_bytes
  builds : ∃ built, service.builder request = .ok built

/-- The run of `handle`. -/
theorem interp_handle_polled (H : Host) {self : HttpService ρ} {request : HttpRequest} (n : ℕ)
    {s : Serving} (haccepts : self.Accepts request) (hfree : 0 < s.available) :
    interp H.step (handle_polled self request n : ServiceM ρ β _) s =
      (self.buffered H s (H.body.gather n s.polls []).1,
        s.over H (self.buffered H s (H.body.gather n s.polls []).1).isOk
          (H.body.gather n s.polls []).2
          (if (self.buffered H s (H.body.gather n s.polls []).1).isOk then s.readings + 5
            else s.readings + 3)) := by
  have hinput : ¬ request.body.length > self.max_input_bytes := Nat.not_lt.mpr haccepts.input
  obtain ⟨built, hbuilt⟩ := haccepts.builds
  -- Up to the collecting there is one way to go.
  simp only [handle_polled, handle, if_neg hinput, handle_admitted, build_request, hbuilt,
    package_tier, ask, perform_bind, vis_bind, via, polled, interp_vis, Host.step, Host.answer,
    Host.after, if_pos hfree, Counters.next, pure_eq, ret_bind]
  rw [interp_bind, interp_collect]
  dsimp only
  rcases H.body.gather n s.polls [] with ⟨(error | body) | _, polls⟩
  · rfl
  · by_cases hlen : body.length > self.max_output_bytes
    · simp only [HttpService.buffered, if_pos hlen]
      rfl
    · simp only [HttpService.buffered, if_neg hlen]
      rfl
  · rfl

/-! ## The streaming response

It is read by `read_to_end`, by a reader who polls up to the end or the first error and drops the
body. -/

/-- A reader who polls up to the end or the first error, for at most `n` times, and then drops
the body: the data of the frames. -/
def StreamingHttpBody.read_to_end :
    ℕ → Bytes → StreamingHttpBody → ServiceM ρ β (Awaited (Except Error Bytes))
  | 0, _, body => do
      drop_completion body.completion
      pure .dropped
  | n + 1, read, body => do
      match ← body.poll_frame with
      | (.Pending, body) => read_to_end n read body
      | (.Ready (some (.ok frame)), body) => read_to_end n (read ++ frame.bytes) body
      | (.Ready (some (.error error)), body) => do
          drop_completion body.completion
          pure (.ready (.error error))
      | (.Ready none, body) => do
          drop_completion body.completion
          pure (.ready (.ok read))

/-- `handle_streaming` and the reader of its response. -/
def handle_streaming_read (self : HttpService ρ) (request : StreamingRequest β) (n : ℕ) :
    ServiceM ρ β (Awaited (Except Error Bytes)) := do
  match ← handle_streaming self request with
  | .dropped => pure .dropped
  | .ready (.error error) => pure (.ready (.error error))
  | .ready (.ok (_, body)) => body.read_to_end n []

/-- What becomes of the state when a completion, if there is one, is dropped or completes. -/
def Serving.settle (H : Host) (s : Serving) (completion : Option HttpRequestCompletion)
    (completed : Bool) : Serving :=
  match completion with
  | none => s
  | some _ => { s with
      available := s.available + 1
      in_flight := (s.in_flight + H.target.usize_max) % (H.target.usize_max + 1)
      completed_requests :=
        if completed then (s.completed_requests + 1) % (u64_max + 1) else s.completed_requests }

@[simp] theorem Serving.settle_polls (H : Host) (s : Serving)
    (completion : Option HttpRequestCompletion) (completed : Bool) :
    (s.settle H completion completed).polls = s.polls := by
  cases completion <;> rfl

theorem interp_drop_completion (H : Host) (completion : Option HttpRequestCompletion)
    (s : Serving) :
    interp H.step (drop_completion completion : ServiceM ρ β Unit) s
      = ((), s.settle H completion false) := by
  cases completion <;> rfl

/-- One poll of a streaming body, by what the inner body answers. -/
theorem interp_poll_frame (H : Host) (body : StreamingHttpBody) (s : Serving) :
    interp H.step (body.poll_frame : ServiceM ρ β _) s =
      match H.body.poll s.polls with
      | .Pending => ((.Pending, body), { s with polls := s.polls + 1 })
      | .Ready (some (.ok frame)) =>
        if frame.bytes.length > body.remaining then
          ((.Ready (some (.error (.Limit "output bytes"))),
              { body with remaining := 0, completion := none }),
            { s with polls := s.polls + 1 }.settle H body.completion false)
        else ((.Ready (some (.ok frame)),
            { body with remaining := body.remaining - frame.bytes.length }),
          { s with polls := s.polls + 1 })
      | .Ready (some (.error error)) =>
        ((.Ready (some (.error (.Execution error))), { body with completion := none }),
          { s with polls := s.polls + 1 }.settle H body.completion false)
      | .Ready none =>
        ((.Ready none, { body with completion := none }),
          { s with polls := s.polls + 1 }.settle H body.completion true) := by
  -- In the order of the constructors: pending, the end, an error, a frame.
  rcases hpoll : H.body.poll s.polls with _ | (_ | (error | frame))
  all_goals simp only [StreamingHttpBody.poll_frame, ask, perform_bind, interp_vis,
    Host.step_poll_frame, hpoll]
  · rfl
  · obtain ⟨remaining, completion, metadata⟩ := body
    cases completion <;> rfl
  · rw [interp_bind, interp_drop_completion]
    rfl
  · cases frame with
    | trailers headers => rfl
    | data bytes =>
      show interp H.step (if bytes.length > body.remaining then _ else _) _
        = if bytes.length > body.remaining then _ else _
      by_cases hover : bytes.length > body.remaining
      · rw [if_pos hover, if_pos hover, interp_bind, interp_drop_completion]
        rfl
      · rw [if_neg hover, if_neg hover]
        rfl

end WasmRuntime.Http
