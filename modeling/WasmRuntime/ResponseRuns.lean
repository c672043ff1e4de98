/-
Buffered and streaming responses, from the first poll of the body to the last.
-/
import WasmRuntime.BodyLimits

set_option autoImplicit false

namespace WasmRuntime.Http

open Prog

variable {ρ β : Type}

/-! ## Reading a streaming response

A budget for the bytes and a number of polls, by induction on the polls. -/

/-- How a reader with a budget fares: it gets a value just when the body comes to one within the
budget, and the completion, if there was one, is counted just then and given back in any case. -/
structure Reads (H : Host) (n : ℕ) (read : Bytes) (body : StreamingHttpBody) (s : Serving)
    (out : Awaited (Except Error Bytes) × Serving) : Prop where
  ok : ∀ data, out.1 = .ready (.ok data) ↔
    (H.body.gather n s.polls read).1 = .ready (.ok data) ∧
      data.length ≤ read.length + body.remaining
  counters : out.2.toCounters = (s.settle H body.completion out.1.isOk).toCounters

theorem gather_length {body : ResponseBody} {n polls : ℕ} {read data : Bytes}
    (h : (body.gather n polls read).1 = .ready (.ok data)) : read.length ≤ data.length := by
  induction n generalizing polls read with
  | zero => cases h
  | succ n ih =>
    rw [ResponseBody.gather] at h
    split at h
    · exact ih h
    · have hle := ih h
      rw [List.length_append] at hle
      omega
    · cases h
    · cases h
      exact Nat.le_refl _

theorem read_to_end_reads (H : Host) (n : ℕ) (read : Bytes) (body : StreamingHttpBody)
    (s : Serving) :
    Reads H n read body s (interp H.step (body.read_to_end n read : ServiceM ρ β _) s) := by
  induction n generalizing read body s with
  | zero =>
    rw [StreamingHttpBody.read_to_end, interp_bind, interp_drop_completion]
    refine ⟨fun data => ⟨fun h => ?_, fun h => ?_⟩, rfl⟩
    · cases h
    · cases h.1
  | succ n ih =>
    rw [StreamingHttpBody.read_to_end, interp_bind, interp_poll_frame]
    rcases hpoll : H.body.poll s.polls with _ | (_ | (error | frame))
    · -- Nothing yet: the rest of the run is that of one poll less.
      obtain ⟨hok, hcounters⟩ := ih read body { s with polls := s.polls + 1 }
      refine ⟨?_, hcounters.trans ?_⟩
      · rw [ResponseBody.gather, hpoll]
        exact hok
      · cases body.completion <;> rfl
    · refine ⟨?_, ?_⟩
      · intro data
        rw [ResponseBody.gather, hpoll]
        constructor
        · rintro h
          cases h
          exact ⟨rfl, Nat.le_add_right _ _⟩
        · rintro ⟨h, -⟩
          cases h
          rfl
      · cases hcompletion : body.completion <;> rfl
    · refine ⟨?_, ?_⟩
      · intro data
        rw [ResponseBody.gather, hpoll]
        refine ⟨fun h => ?_, fun h => ?_⟩
        · cases h
        · cases h.1
      · cases hcompletion : body.completion <;> rfl
    · by_cases hover : frame.bytes.length > body.remaining
      · -- Too much: whatever is still to come, the total is beyond the budget.
        dsimp only
        rw [if_pos hover]
        refine ⟨?_, ?_⟩
        · intro data
          rw [ResponseBody.gather, hpoll]
          refine ⟨fun h => ?_, ?_⟩
          · cases h
          · rintro ⟨hdata, hlen⟩
            have hle := gather_length hdata
            rw [List.length_append] at hle
            omega
        · cases hcompletion : body.completion <;> rfl
      · dsimp only
        rw [if_neg hover]
        obtain ⟨hok, hcounters⟩ := ih (read ++ frame.bytes)
          { body with remaining := body.remaining - frame.bytes.length }
          { s with polls := s.polls + 1 }
        refine ⟨?_, hcounters.trans ?_⟩
        · intro data
          rw [ResponseBody.gather, hpoll]
          refine (hok data).trans ?_
          have hsum : (read ++ frame.bytes).length + (body.remaining - frame.bytes.length)
              = read.length + body.remaining := by
            rw [List.length_append]
            omega
          rw [hsum]
        · cases body.completion <;> rfl

/-! ## The start of a streaming response

The body may be at its end before the first poll. -/

/-- A streaming request that comes to a response: its size hint is within the input limit. -/
structure HttpService.AcceptsStreaming (service : HttpService ρ) (request : StreamingRequest β) :
    Prop where
  lower : request.size_hint.lower ≤ (Exec.tryFrom u64_max service.max_input_bytes).getD u64_max
  upper : ∀ upper ∈ request.size_hint.upper,
    upper ≤ (Exec.tryFrom u64_max service.max_input_bytes).getD u64_max

/-- The state once the request is admitted and has its response. -/
def Serving.admitted (H : Host) (s : Serving) : Serving where
  available := s.available - 1
  in_flight := (s.in_flight + 1) % (H.target.usize_max + 1)
  completed_requests := s.completed_requests
  next_request := (s.next_request + 1) % (u64_max + 1)
  polls := s.polls
  readings := s.readings + 5

/-- The body that `handle_streaming` returns. -/
def HttpService.response_body (self : HttpService ρ) (H : Host) (s : Serving) :
    StreamingHttpBody where
  remaining := self.max_output_bytes
  completion := if H.body.is_end_stream s.polls then none else some {}
  metadata := {
    request_id := s.next_request
    package_tier := package_tier_from_code (H.reading (s.readings + 1))
    worker_created := decide (H.reading (s.readings + 3) > H.reading (s.readings + 2))
    headers_elapsed := H.reading (s.readings + 4) - H.reading s.readings }

theorem interp_streaming_body (H : Host) (max_output_bytes : ℕ) (metadata : HttpDispatchMetadata)
    (s : Serving) :
    interp H.step (streaming_body max_output_bytes metadata {} : ServiceM ρ β _) s =
      ({ remaining := max_output_bytes
         completion := if H.body.is_end_stream s.polls then none else some {}
         metadata := metadata },
        if H.body.is_end_stream s.polls then s.settle H (some {}) true else s) := by
  rw [streaming_body, ask, perform_bind, interp_vis]
  show interp H.step (if H.body.is_end_stream s.polls = true then _ else _) _ = _
  by_cases hend : H.body.is_end_stream s.polls = true
  · rw [if_pos hend, if_pos hend, if_pos hend]
    rfl
  · rw [if_neg hend, if_neg hend, if_neg hend]
    rfl

/-- The run of `handle_streaming`: the request is counted at once if the body is at its end. -/
theorem interp_handle_streaming (H : Host) {self : HttpService ρ} {request : StreamingRequest β}
    {s : Serving} (haccepts : self.AcceptsStreaming request) (hfree : 0 < s.available) :
    interp H.step (handle_streaming self request) s =
      (.ready (.ok (H.parts, self.response_body H s)),
        if H.body.is_end_stream s.polls then (s.admitted H).settle H (some {}) true
        else s.admitted H) := by
  have hhint : ¬ (request.size_hint.lower
        > (Exec.tryFrom u64_max self.max_input_bytes).getD u64_max ∨
      (request.size_hint.upper.any fun upper =>
        decide (upper > (Exec.tryFrom u64_max self.max_input_bytes).getD u64_max)) = true) := by
    rintro (hlower | hupper)
    · exact Nat.not_lt.mpr haccepts.lower hlower
    · cases hsome : request.size_hint.upper with
      | none => simp [hsome] at hupper
      | some upper =>
        have hover := haccepts.upper upper hsome
        simp only [hsome, Option.any_some, decide_eq_true_eq] at hupper
        omega
  simp only [handle_streaming, if_neg hhint, package_tier, ask, perform_bind, vis_bind, interp_vis,
    Host.step, Host.answer, Host.after, if_pos hfree, Counters.next, pure_eq, ret_bind]
  refine (interp_bind H.step _ _ _).trans ?_
  rw [interp_streaming_body]
  rfl

/-! ## The two ways agree

They agree on what a response comes to (`buffered_streaming_agree`): the one collects everything and
looks at the total, the other takes each frame off a budget, and for every number of polls they
return a value together or not at all. -/

/-- A buffered request, with `n` polls of the response body. -/
def Host.buffered (H : Host) (self : HttpService ρ) (request : HttpRequest) (s : Serving) (n : ℕ) :
    Awaited (Except Error HttpResponse) × Serving :=
  interp H.step (handle_polled self request n : ServiceM ρ Unit _) s

/-- A streaming request whose response is read with `n` polls. -/
def Host.streamed (H : Host) (self : HttpService ρ) (request : StreamingRequest β) (s : Serving)
    (n : ℕ) : Awaited (Except Error Bytes) × Serving :=
  interp H.step (handle_streaming_read self request n) s

/-- What `handle` makes of the body that it gathers: a response within the limit, the limit's
error, or neither of the two. -/
theorem buffered_cases {H : Host} {self : HttpService ρ} {request : HttpRequest} {s : Serving}
    (haccepts : self.Accepts request) (hfree : 0 < s.available) (n : ℕ) :
    (∃ response, (H.buffered self request s n).1 = .ready (.ok response) ∧
      (H.body.gather n s.polls []).1 = .ready (.ok response.body) ∧
      response.body.length ≤ self.max_output_bytes) ∨
    (∃ body, (H.buffered self request s n).1 = .ready (.error (.Limit "output bytes")) ∧
      (H.body.gather n s.polls []).1 = .ready (.ok body) ∧
      self.max_output_bytes < body.length) ∨
    ((∀ response, (H.buffered self request s n).1 ≠ .ready (.ok response)) ∧
      (H.buffered self request s n).1 ≠ .ready (.error (.Limit "output bytes")) ∧
      ∀ body, (H.body.gather n s.polls []).1 ≠ .ready (.ok body)) := by
  rw [Host.buffered, interp_handle_polled H n haccepts hfree]
  dsimp only
  rcases (H.body.gather n s.polls []).1 with (error | body) | _
  · exact .inr (.inr (by simp [HttpService.buffered]))
  · by_cases hlen : body.length > self.max_output_bytes
    · rw [HttpService.buffered, if_pos hlen]
      exact .inr (.inl ⟨body, rfl, rfl, hlen⟩)
    · rw [HttpService.buffered, if_neg hlen]
      exact .inl ⟨_, rfl, rfl, Nat.le_of_not_lt hlen⟩
  · exact .inr (.inr (by simp [HttpService.buffered]))

/-- `handle` returns the body that it gathers, if it is within the limit. -/
theorem buffered_ok {H : Host} {self : HttpService ρ} {request : HttpRequest} {s : Serving}
    (haccepts : self.Accepts request) (hfree : 0 < s.available) (n : ℕ) (data : Bytes) :
    (∃ response, (H.buffered self request s n).1 = .ready (.ok response) ∧ response.body = data) ↔
      (H.body.gather n s.polls []).1 = .ready (.ok data) ∧
        data.length ≤ self.max_output_bytes := by
  rcases @buffered_cases _ H self request s haccepts hfree n with
    ⟨response, hbuffered, hgather, hle⟩ | ⟨body, hbuffered, hgather, hlt⟩ |
    ⟨hbuffered, -, hgather⟩
  · rw [hbuffered, hgather]
    constructor
    · rintro ⟨_, h, rfl⟩
      cases h
      exact ⟨rfl, hle⟩
    · rintro ⟨h, -⟩
      cases h
      exact ⟨response, rfl, rfl⟩
  · rw [hbuffered, hgather]
    constructor
    · rintro ⟨_, h, -⟩
      cases h
    · rintro ⟨h, hle⟩
      cases h
      omega
  · constructor
    · rintro ⟨response, h, -⟩
      exact absurd h (hbuffered response)
    · rintro ⟨h, -⟩
      exact absurd h (hgather data)

/-- A reader gets what there is to be gathered, if it is within the limit; the request is
counted if the reader gets it or the body was at its end from the start. -/
theorem streamed_reads {H : Host} {self : HttpService ρ} {request : StreamingRequest β}
    {s : Serving} (haccepts : self.AcceptsStreaming request) (hfree : 0 < s.available) (n : ℕ) :
    (∀ data, (H.streamed self request s n).1 = .ready (.ok data) ↔
      (H.body.gather n s.polls []).1 = .ready (.ok data) ∧
        data.length ≤ self.max_output_bytes) ∧
    (H.streamed self request s n).2.toCounters
      = (s.over H (H.body.is_end_stream s.polls || (H.streamed self request s n).1.isOk)
          0 0).toCounters := by
  rw [Host.streamed, handle_streaming_read, interp_bind, interp_handle_streaming H haccepts hfree]
  -- A body that is at its end from the start is counted when the response is made.
  by_cases hend : H.body.is_end_stream s.polls = true
  · rw [if_pos hend]
    have hreads := read_to_end_reads (ρ := ρ) (β := β) H n [] (self.response_body H s)
      ((s.admitted H).settle H (some {}) true)
    have hcompletion : (self.response_body H s).completion = none := if_pos hend
    refine ⟨?_, hreads.counters.trans ?_⟩
    · intro data
      refine (hreads.ok data).trans ?_
      rw [List.length_nil, Nat.zero_add, Serving.settle_polls]
      rfl
    · rw [hcompletion, hend, Bool.true_or]
      rfl
  · rw [if_neg hend]
    have hreads := read_to_end_reads (ρ := ρ) (β := β) H n [] (self.response_body H s)
      (s.admitted H)
    have hcompletion : (self.response_body H s).completion = some {} := if_neg hend
    refine ⟨?_, hreads.counters.trans ?_⟩
    · intro data
      refine (hreads.ok data).trans ?_
      rw [List.length_nil, Nat.zero_add]
      rfl
    · rw [hcompletion, Bool.eq_false_of_not_eq_true hend, Bool.false_or]
      rfl

theorem Awaited.isOk_iff {ε α : Type} {x : Awaited (Except ε α)} :
    x.isOk = true ↔ ∃ v, x = .ready (.ok v) := by
  rcases x with (e | v) | _
  · exact ⟨nofun, fun ⟨_, h⟩ => nomatch h⟩
  · exact ⟨fun _ => ⟨v, rfl⟩, fun _ => rfl⟩
  · exact ⟨nofun, fun ⟨_, h⟩ => nomatch h⟩

/-- The counters after a buffered response. -/
theorem buffered_counters {H : Host} {self : HttpService ρ} {request : HttpRequest} {s : Serving}
    (haccepts : self.Accepts request) (hfree : 0 < s.available) (n : ℕ) :
    (H.buffered self request s n).2.toCounters
      = (s.over H (H.buffered self request s n).1.isOk 0 0).toCounters := by
  rw [Host.buffered, interp_handle_polled H n haccepts hfree]
  rfl

/-- For every response: after any number of polls `handle` returns a body just when a reader of
the streaming response has got the same data, to the end and without an error. Both are then
counted once, and nothing stays in flight; if it never comes to that, neither is ever
counted. -/
theorem buffered_streaming_agree (H : Host) (hhonest : H.body.Honest) (self : HttpService ρ)
    (request : HttpRequest) (streaming : StreamingRequest β) (haccepts : self.Accepts request)
    (hstreaming : self.AcceptsStreaming streaming) (s : Serving) (hfree : 0 < s.available)
    (hwidth : s.in_flight ≤ H.target.usize_max) :
    (∀ n data, (∃ response, (H.buffered self request s n).1 = .ready (.ok response) ∧
        response.body = data) ↔ (H.streamed self streaming s n).1 = .ready (.ok data)) ∧
    (∀ n, (H.buffered self request s n).1.isOk = true →
      (H.buffered self request s n).2.completed_requests
          = (s.completed_requests + 1) % (u64_max + 1) ∧
        (H.streamed self streaming s n).2.completed_requests
          = (s.completed_requests + 1) % (u64_max + 1) ∧
        (H.buffered self request s n).2.in_flight = s.in_flight ∧
        (H.streamed self streaming s n).2.in_flight = s.in_flight) ∧
    ((∀ n, (H.buffered self request s n).1.isOk = false) → ∀ n,
      (H.buffered self request s n).2.completed_requests = s.completed_requests ∧
        (H.streamed self streaming s n).2.completed_requests = s.completed_requests) := by
  have hagree : ∀ n data, (∃ response,
      (H.buffered self request s n).1 = .ready (.ok response) ∧ response.body = data) ↔
      (H.streamed self streaming s n).1 = .ready (.ok data) := by
    intro n data
    rw [buffered_ok haccepts hfree, (streamed_reads hstreaming hfree n).1]
  have hsame : ∀ n, (H.streamed self streaming s n).1.isOk
      = (H.buffered self request s n).1.isOk := by
    intro n
    rw [Bool.eq_iff_iff, Awaited.isOk_iff, Awaited.isOk_iff]
    constructor
    · rintro ⟨data, hdata⟩
      obtain ⟨response, hresponse, -⟩ := (hagree n data).mpr hdata
      exact ⟨response, hresponse⟩
    · rintro ⟨response, hresponse⟩
      exact ⟨response.body, (hagree n _).mp ⟨response, hresponse, rfl⟩⟩
  refine ⟨hagree, ?_, ?_⟩
  · intro n hok
    have hbuffered := buffered_counters (H := H) haccepts hfree n
    have hstreamed := (streamed_reads (H := H) hstreaming hfree n).2
    rw [hsame, hok, Bool.or_true] at hstreamed
    rw [hok] at hbuffered
    rw [hbuffered, hstreamed]
    have hback := Serving.over_in_flight hwidth true 0 0
    exact ⟨rfl, rfl, hback, hback⟩
  · intro hnever n
    -- A body at its end from the start would have been returned, empty, after one poll.
    have hopen : H.body.is_end_stream s.polls = false := by
      refine Bool.eq_false_of_not_eq_true fun hend => ?_
      have hgather : (H.body.gather 1 s.polls []).1 = .ready (.ok []) := by
        rw [ResponseBody.gather, hhonest _ hend]
      obtain ⟨response, hresponse, -⟩ :=
        (buffered_ok haccepts hfree 1 []).mpr ⟨hgather, Nat.zero_le _⟩
      have hnot := hnever 1
      rw [hresponse] at hnot
      cases hnot
    have hbuffered := buffered_counters (H := H) haccepts hfree n
    have hstreamed := (streamed_reads (H := H) hstreaming hfree n).2
    rw [hsame, hopen, hnever, Bool.false_or] at hstreamed
    rw [hnever] at hbuffered
    rw [hbuffered, hstreamed]
    exact ⟨rfl, rfl⟩

/-- A response of one frame of two bytes, whose body knows that it is at its end once the frame
is out. -/
def shortResponse : ResponseBody where
  poll n := if n = 0 then .Ready (some (.ok (.data [104, 105]))) else .Ready none
  is_end_stream n := decide (0 < n)

/-- A service that has that response to every request. -/
def shortHost : Host := ⟨target64, ⟨200, []⟩, shortResponse, fun _ => 0⟩

theorem shortResponse_honest : shortResponse.Honest := by
  intro n hn
  have hpos : n ≠ 0 := by
    have := of_decide_eq_true hn
    omega
  exact if_neg hpos

/-- A new service with one permit. -/
def freshServing : Serving := ⟨⟨1, 0, 0, 1⟩, 0, 0⟩

/-- Both ways return the two bytes after two polls. -/
theorem buffered_streaming_agree_short :
    (∃ response, (shortHost.buffered (⟨16, 16, fun _ => .ok ()⟩ : HttpService Unit)
        ⟨"GET", "/", [], []⟩ freshServing 2).1 = .ready (.ok response) ∧
      response.body = [104, 105]) ∧
    (shortHost.streamed (⟨16, 16, fun _ => .ok ()⟩ : HttpService Unit)
        (⟨⟨0, some 0⟩, ()⟩ : StreamingRequest Unit) freshServing 2).1
      = .ready (.ok [104, 105]) := by
  have h := (buffered_streaming_agree shortHost shortResponse_honest
    (⟨16, 16, fun _ => .ok ()⟩ : HttpService Unit) ⟨"GET", "/", [], []⟩
    (⟨⟨0, some 0⟩, ()⟩ : StreamingRequest Unit) ⟨by decide, (), rfl⟩ ⟨by decide, by decide⟩
    freshServing (by decide) (by decide)).1 2 [104, 105]
  exact ⟨h.mpr rfl, rfl⟩

/-! ## How far the buffered way reads

`handle` looks at the limit when it has the whole body, so the first frame that is too much stops it
only if it is the last one (`buffered_bounded_iff`). -/

namespace ResponseBody

variable {body : ResponseBody}

/-- A poll that finds neither the end nor an error. -/
def Goes (body : ResponseBody) (i : ℕ) : Prop :=
  body.poll i = .Pending ∨ ∃ frame, body.poll i = .Ready (some (.ok frame))

/-- The data of the first `k` polls. -/
def data (body : ResponseBody) (k : ℕ) : ℕ := dataLength ((List.range k).map body.poll)

theorem data_zero (body : ResponseBody) : body.data 0 = 0 := rfl

theorem data_succ (body : ResponseBody) (k : ℕ) :
    body.data (k + 1) = body.data k + (body.poll k).bytes := by
  simp only [data, dataLength, List.range_succ, List.map_append, List.map_cons, List.map_nil,
    List.sum_append, List.sum_cons, List.sum_nil, Nat.add_zero]

theorem data_mono (body : ResponseBody) {j k : ℕ} (h : j ≤ k) : body.data j ≤ body.data k := by
  induction k, h using Nat.le_induction with
  | base => exact Nat.le_refl _
  | succ k _ ih =>
    rw [data_succ]
    omega

/-- The response goes on up to poll `k`, and that one brings its data above `max` for the first
time. -/
structure Exceeds (body : ResponseBody) (max k : ℕ) : Prop where
  goes : ∀ i < k, body.Goes i
  within : body.data k ≤ max
  beyond : max < body.data (k + 1)

/-- The limit is passed by a frame. -/
theorem Exceeds.frame {max k : ℕ} (h : body.Exceeds max k) :
    ∃ frame, body.poll k = .Ready (some (.ok frame)) := by
  have hover := h.beyond
  have hwithin := h.within
  rw [data_succ] at hover
  rcases hpoll : body.poll k with _ | (_ | (error | frame))
  · rw [hpoll] at hover
    simp only [FramePoll.bytes] at hover
    omega
  · rw [hpoll] at hover
    simp only [FramePoll.bytes] at hover
    omega
  · rw [hpoll] at hover
    simp only [FramePoll.bytes] at hover
    omega
  · exact ⟨frame, rfl⟩

/-- Polls that go on and bring `more` leave the rest of the reading as it is. -/
theorem gather_goes {polls : ℕ} (read : Bytes) (h : body.Goes polls) :
    ∃ more : Bytes, more.length = (body.poll polls).bytes ∧
      ∀ n, body.gather (n + 1) polls read = body.gather n (polls + 1) (read ++ more) := by
  rcases h with hpoll | ⟨frame, hpoll⟩
  · refine ⟨[], ?_, fun n => ?_⟩
    · rw [hpoll]
      rfl
    · rw [gather, hpoll, List.append_nil]
  · refine ⟨frame.bytes, ?_, fun n => ?_⟩
    · rw [hpoll]
      cases frame <;> rfl
    · rw [gather, hpoll]

/-- A reading that comes to a value has gone on up to the poll that found the end, and has all
the data up to there. -/
theorem gather_ok {n polls : ℕ} {read collected : Bytes} {stop : ℕ}
    (h : body.gather n polls read = (.ready (.ok collected), stop)) :
    ∃ j, stop = j + 1 ∧ polls ≤ j ∧ body.poll j = .Ready none ∧
      (∀ i, polls ≤ i → i < j → body.Goes i) ∧
      collected.length + body.data polls = read.length + body.data j := by
  induction n generalizing polls read with
  | zero => cases h
  | succ n ih =>
    rcases hpoll : body.poll polls with _ | (_ | (error | frame))
    case Ready.none =>
      rw [gather, hpoll] at h
      cases h
      exact ⟨polls, rfl, Nat.le_refl _, hpoll, fun i hi hlt => by omega, rfl⟩
    case Ready.some.error =>
      rw [gather, hpoll] at h
      cases h
    -- The two ways to go on are one: the rest of the reading has what this poll brought.
    all_goals
      have hgoes : body.Goes polls := by
        first | exact .inl hpoll | exact .inr ⟨_, hpoll⟩
      obtain ⟨more, hmore, hrest⟩ := gather_goes read hgoes
      rw [hrest] at h
      obtain ⟨j, hstop, hle, hend, hopen, hlength⟩ := ih h
      refine ⟨j, hstop, by omega, hend, ?_, ?_⟩
      · intro i hi hlt
        rcases Nat.eq_or_lt_of_le hi with rfl | hbeyond
        · exact hgoes
        · exact hopen i hbeyond hlt
      · rw [data_succ, List.length_append] at hlength
        omega

/-- Conversely, a body that goes on to its end is read to it. -/
theorem gather_to_end {polls j : ℕ} (read : Bytes) (hle : polls ≤ j)
    (hgoes : ∀ i, polls ≤ i → i < j → body.Goes i) (hend : body.poll j = .Ready none) :
    ∃ collected, body.gather (j + 1 - polls) polls read = (.ready (.ok collected), j + 1) := by
  obtain ⟨n, rfl⟩ := Nat.exists_eq_add_of_le hle
  induction n generalizing polls read with
  | zero =>
    refine ⟨read, ?_⟩
    rw [show polls + 0 + 1 - polls = 0 + 1 by omega, gather]
    rw [show body.poll polls = .Ready none from hend]
  | succ n ih =>
    obtain ⟨more, -, hrest⟩ := gather_goes read (hgoes polls (Nat.le_refl _) (by omega))
    have hshift : polls + 1 + n = polls + (n + 1) := by omega
    rw [← hshift] at hend
    obtain ⟨collected, hcollected⟩ := ih (read ++ more) (Nat.le_add_right (polls + 1) n)
      (fun i hi hlt => hgoes i (by omega) (by omega)) hend
    refine ⟨collected, ?_⟩
    rw [show polls + (n + 1) + 1 - polls = n + 1 + 1 by omega, hrest]
    rw [hshift, show polls + (n + 1) + 1 - (polls + 1) = n + 1 by omega] at hcollected
    exact hcollected

/-- A reading does not go beyond the end. -/
theorem gather_stop {n polls j : ℕ} {read : Bytes} (hle : polls ≤ j)
    (hend : body.poll j = .Ready none) : (body.gather n polls read).2 ≤ j + 1 := by
  induction n generalizing polls read with
  | zero =>
    show polls ≤ j + 1
    omega
  | succ n ih =>
    have hnext : body.poll polls ≠ .Ready none → polls + 1 ≤ j := by
      intro hne
      have hdiffer : polls ≠ j := by
        rintro rfl
        exact hne hend
      omega
    rcases hpoll : body.poll polls with _ | (_ | (error | frame))
    all_goals rw [gather, hpoll]
    · exact ih (hnext (by rw [hpoll]; intro hne; cases hne))
    · show polls + 1 ≤ j + 1
      omega
    · show polls + 1 ≤ j + 1
      omega
    · exact ih (hnext (by rw [hpoll]; intro hne; cases hne))

end ResponseBody

/-- `handle` does not read on once a response is too large: whenever a frame brings the data
above the limit, no frame after it is pulled, so that no more than the limit and that frame is
accumulated, and the limit is reported. -/
def Host.StopsInTime (H : Host) (self : HttpService ρ) (request : HttpRequest) (s : Serving) :
    Prop :=
  ∀ k, H.body.Exceeds self.max_output_bytes k →
    (∀ n i frame, k < i → i < (H.buffered self request s n).2.polls →
      H.body.poll i ≠ .Ready (some (.ok frame))) ∧
    (∀ n, H.body.data (H.buffered self request s n).2.polls
      ≤ self.max_output_bytes + (H.body.poll k).bytes) ∧
    ∃ n, (H.buffered self request s n).1 = .ready (.error (.Limit "output bytes"))

theorem buffered_polls {H : Host} {self : HttpService ρ} {request : HttpRequest} {s : Serving}
    (haccepts : self.Accepts request) (hfree : 0 < s.available) (n : ℕ) :
    (H.buffered self request s n).2.polls = (H.body.gather n s.polls []).2 := by
  rw [Host.buffered, interp_handle_polled H n haccepts hfree]
  rfl

/-- The limit is reported when the whole body has been collected, and only then. -/
theorem buffered_limit {H : Host} {self : HttpService ρ} {request : HttpRequest} {s : Serving}
    (haccepts : self.Accepts request) (hfree : 0 < s.available) (n : ℕ) :
    (H.buffered self request s n).1 = .ready (.error (.Limit "output bytes")) ↔
      ∃ collected, (H.body.gather n s.polls []).1 = .ready (.ok collected) ∧
        self.max_output_bytes < collected.length := by
  rcases @buffered_cases _ H self request s haccepts hfree n with
    ⟨response, hbuffered, hgather, hle⟩ | ⟨body, hbuffered, hgather, hlt⟩ |
    ⟨-, hbuffered, hgather⟩
  · rw [hbuffered, hgather]
    constructor
    · intro h
      cases h
    · rintro ⟨_, h, hover⟩
      cases h
      omega
  · rw [hbuffered, hgather]
    exact ⟨fun _ => ⟨body, rfl, hlt⟩, fun _ => rfl⟩
  · constructor
    · exact fun h => absurd h hbuffered
    · rintro ⟨collected, h, -⟩
      exact absurd h (hgather collected)

/-- It stops in time just when the first frame that is too much is followed by the end of the
response and nothing else. -/
theorem buffered_bounded_iff (H : Host) (self : HttpService ρ) (request : HttpRequest)
    (haccepts : self.Accepts request) (s : Serving) (hfree : 0 < s.available)
    (hfresh : s.polls = 0) :
    H.StopsInTime self request s ↔
      ∀ k, H.body.Exceeds self.max_output_bytes k →
        ∃ j, k < j ∧ H.body.poll j = .Ready none ∧
          ∀ i, k < i → i < j → H.body.poll i = .Pending := by
  constructor
  · intro hstops k hexceeds
    obtain ⟨hpulled, -, n, hlimit⟩ := hstops k hexceeds
    obtain ⟨collected, hcollected, -⟩ := (buffered_limit haccepts hfree n).mp hlimit
    have hpolls := buffered_polls (H := H) haccepts hfree n
    rcases hgather : H.body.gather n s.polls [] with ⟨result, stop⟩
    rw [hgather] at hcollected hpolls
    cases hcollected
    obtain ⟨j, rfl, -, hend, hgoes, -⟩ := ResponseBody.gather_ok hgather
    obtain ⟨frame, hframe⟩ := hexceeds.frame
    have hbeyond : k < j := by
      -- The end is not among the polls that go on, nor is it the frame that is too much.
      rcases Nat.lt_trichotomy j k with hlt | rfl | hgt
      · rcases hexceeds.goes j hlt with hpoll | ⟨_, hpoll⟩
        · rw [hpoll] at hend
          cases hend
        · rw [hpoll] at hend
          cases hend
      · rw [hframe] at hend
        cases hend
      · exact hgt
    refine ⟨j, hbeyond, hend, ?_⟩
    intro i hi hlt
    rcases hgoes i (by omega) hlt with hpending | ⟨frame', hframe'⟩
    · exact hpending
    · refine absurd hframe' (hpulled n i frame' hi ?_)
      rw [hpolls]
      exact Nat.lt_succ_of_lt hlt
  · intro hends k hexceeds
    obtain ⟨j, hkj, hend, hpending⟩ := hends k hexceeds
    obtain ⟨frame, hframe⟩ := hexceeds.frame
    have hpolls : ∀ n, (H.buffered self request s n).2.polls ≤ j + 1 := by
      intro n
      rw [buffered_polls haccepts hfree]
      exact ResponseBody.gather_stop (by omega) hend
    have hquiet : ∀ m, k + 1 ≤ m → m ≤ j + 1 → H.body.data m = H.body.data (k + 1) := by
      intro m hm
      induction m, hm using Nat.le_induction with
      | base => exact fun _ => rfl
      | succ m hkm ih =>
        intro hmj
        rw [ResponseBody.data_succ, ih (by omega)]
        rcases Nat.eq_or_lt_of_le (Nat.le_of_lt_succ hmj) with rfl | hlt
        · rw [hend]
          rfl
        · rw [hpending m hkm hlt]
          rfl
    have hwhole := hquiet (j + 1) (by omega) (Nat.le_refl _)
    refine ⟨?_, ?_, j + 1, ?_⟩
    · intro n i frame' hki hi
      have hij := hpolls n
      rcases Nat.eq_or_lt_of_le (show i ≤ j by omega) with rfl | hlt
      · rw [hend]
        exact nofun
      · rw [hpending i hki hlt]
        exact nofun
    · intro n
      have hmono := H.body.data_mono (hpolls n)
      have hstep := H.body.data_succ k
      have hwithin := hexceeds.within
      omega
    · have hopen : ∀ i, 0 ≤ i → i < j → H.body.Goes i := by
        intro i _ hlt
        rcases Nat.lt_trichotomy i k with hik | rfl | hik
        · exact hexceeds.goes i hik
        · exact .inr ⟨frame, hframe⟩
        · exact .inl (hpending i hik hlt)
      obtain ⟨collected, hcollected⟩ :=
        ResponseBody.gather_to_end [] (Nat.zero_le j) hopen hend
      obtain ⟨j', hstop, -, -, -, hlength⟩ := ResponseBody.gather_ok hcollected
      cases hstop
      rw [buffered_limit haccepts hfree, hfresh]
      refine ⟨collected, congrArg Prod.fst hcollected, ?_⟩
      have hover := hexceeds.beyond
      rw [hquiet j hkj (Nat.le_succ j), ResponseBody.data_zero, List.length_nil] at hlength
      omega

/-- Two bytes under a limit of one, and then the end: the limit is reported in time. -/
theorem buffered_bounded_short :
    shortHost.StopsInTime (⟨16, 1, fun _ => .ok ()⟩ : HttpService Unit) ⟨"GET", "/", [], []⟩
      freshServing := by
  refine (buffered_bounded_iff shortHost (⟨16, 1, fun _ => .ok ()⟩ : HttpService Unit)
    ⟨"GET", "/", [], []⟩ ⟨by decide, (), rfl⟩ freshServing (by decide) rfl).mpr ?_
  intro k hexceeds
  obtain ⟨frame, hframe⟩ := hexceeds.frame
  have hk : k = 0 := by
    by_contra hne
    rw [show shortHost.body.poll k = .Ready none from if_neg hne] at hframe
    cases hframe
  subst hk
  exact ⟨1, by decide, rfl, fun i hi hlt => by omega⟩

/-- A response without an end, a byte at a time. -/
def endlessHost : Host where
  target := target64
  parts := ⟨200, []⟩
  body := ⟨fun _ => .Ready (some (.ok (.data [0]))), fun _ => false⟩
  reading _ := 0

/-- Under a limit of one byte the second frame is too much. However often the response is
polled, `handle` goes on and has accumulated as many bytes. -/
theorem endless_response_accumulates :
    endlessHost.body.Exceeds 1 1 ∧
      ∀ n, (endlessHost.buffered (⟨16, 1, fun _ => .ok ()⟩ : HttpService Unit)
          ⟨"GET", "/", [], []⟩ freshServing n).1 = .dropped ∧
        endlessHost.body.data (endlessHost.buffered (⟨16, 1, fun _ => .ok ()⟩ : HttpService Unit)
          ⟨"GET", "/", [], []⟩ freshServing n).2.polls = n := by
  have hgather : ∀ n polls read,
      endlessHost.body.gather n polls read = (.dropped, polls + n) := by
    intro n
    induction n with
    | zero => exact fun _ _ => rfl
    | succ n ih =>
      intro polls read
      refine (ih (polls + 1) (read ++ [0])).trans ?_
      rw [show polls + 1 + n = polls + (n + 1) by omega]
  have hdata : ∀ n, endlessHost.body.data n = n := by
    intro n
    induction n with
    | zero => rfl
    | succ n ih =>
      rw [ResponseBody.data_succ, ih]
      rfl
  refine ⟨⟨fun i _ => .inr ⟨_, rfl⟩, by decide, by decide⟩, fun n => ?_⟩
  rw [Host.buffered, interp_handle_polled endlessHost n ⟨by decide, (), rfl⟩ (by decide), hgather]
  exact ⟨rfl, (hdata _).trans (Nat.zero_add n)⟩

/-! ## What is counted

A streaming response is counted when its body answers the end to a poll, or when the body is at its
end before the first poll. A reader may stop in between, as soon as `is_end_stream` is true, and
such a reader leaves nothing counted (`streaming_counted_iff`). -/

/-- `StreamingHttpBody::is_end_stream`. -/
def StreamingHttpBody.is_end_stream (_self : StreamingHttpBody) : ServiceM ρ β Bool :=
  ask .is_end_stream

/-- A consumer that looks before it polls, or does not. -/
def StreamingHttpBody.look (looks : Bool) (body : StreamingHttpBody) : ServiceM ρ β Bool :=
  if looks then body.is_end_stream else pure false

/-- Why a consumer stopped. -/
inductive Stopped where
  /-- A poll found the end. -/
  | ended
  /-- `is_end_stream` was true. -/
  | told
  | failed
  /-- The polls allowed to it are used up. -/
  | unfinished
  deriving DecidableEq, Repr

/-- A poll found the end. -/
def Stopped.isEnded : Stopped → Bool
  | .ended => true
  | _ => false

/-- A consumer that polls up to the end of the stream, and that before some of its polls, those
that `looks` says, stops if `is_end_stream` is true; then it drops the body. -/
def StreamingHttpBody.consume (looks : ℕ → Bool) :
    ℕ → ℕ → StreamingHttpBody → ServiceM ρ β Stopped
  | 0, _, body => do
      drop_completion body.completion
      pure .unfinished
  | n + 1, polls, body => do
      let told ← body.look (looks polls)
      if told then
        drop_completion body.completion
        pure .told
      else
        match ← body.poll_frame with
        | (.Ready none, body) => do
            drop_completion body.completion
            pure .ended
        | (.Ready (some (.error _)), body) => do
            drop_completion body.completion
            pure .failed
        | (.Ready (some (.ok _)), body) => consume looks n (polls + 1) body
        | (.Pending, body) => consume looks n (polls + 1) body

/-- `handle_streaming` and the consumer of its response. -/
def handle_streaming_consume (self : HttpService ρ) (request : StreamingRequest β)
    (looks : ℕ → Bool) (n : ℕ) : ServiceM ρ β (Option Stopped) := do
  match ← handle_streaming self request with
  | .dropped => pure none
  | .ready (.error _) => pure none
  | .ready (.ok (_, body)) => do
      let stopped ← body.consume looks n 0
      pure (some stopped)

/-- A consumer of a body without errors, within what remains: a completion is counted just when
the consumer stops because a poll found the end. -/
theorem consume_counted (H : Host) (looks : ℕ → Bool) (n : ℕ) (body : StreamingHttpBody)
    (s : Serving) (hclean : ∀ i error, H.body.poll i ≠ .Ready (some (.error error)))
    (hwithin : ∀ k, H.body.data k ≤ H.body.data s.polls + body.remaining) :
    (interp H.step (body.consume looks n s.polls : ServiceM ρ β _) s).2.completed_requests =
      (s.settle H body.completion (interp H.step
        (body.consume looks n s.polls : ServiceM ρ β _) s).1.isEnded).completed_requests := by
  induction n generalizing body s with
  | zero =>
    rw [StreamingHttpBody.consume, interp_bind, interp_drop_completion]
    rfl
  | succ n ih =>
    have hlook : interp H.step (body.look (looks s.polls) : ServiceM ρ β Bool) s
        = (looks s.polls && H.body.is_end_stream s.polls, s) := by
      cases looks s.polls with
      | true => rfl
      | false => rfl
    rw [StreamingHttpBody.consume, interp_bind, hlook]
    dsimp only
    -- Told that the body has ended, the consumer drops it without another poll.
    by_cases htold : (looks s.polls && H.body.is_end_stream s.polls) = true
    · rw [if_pos htold, interp_bind, interp_drop_completion]
      rfl
    · rw [if_neg htold, interp_bind, interp_poll_frame]
      rcases hpoll : H.body.poll s.polls with _ | (_ | (error | frame))
      · have hnext := hwithin
        have hsame : H.body.data (s.polls + 1) = H.body.data s.polls := by
          rw [ResponseBody.data_succ, hpoll]
          rfl
        rw [← hsame] at hnext
        have hrest := ih body { s with polls := s.polls + 1 } hnext
        refine hrest.trans ?_
        cases body.completion <;> rfl
      · cases hcompletion : body.completion <;> rfl
      · exact absurd hpoll (hclean s.polls error)
      · have hstep : H.body.data (s.polls + 1) = H.body.data s.polls + frame.bytes.length := by
          rw [ResponseBody.data_succ, hpoll]
          cases frame <;> rfl
        -- All the data is within what remains, so this frame is.
        have hfits : ¬ frame.bytes.length > body.remaining := by
          have hle := hwithin (s.polls + 1)
          omega
        dsimp only
        rw [if_neg hfits]
        have hrest := ih { body with remaining := body.remaining - frame.bytes.length }
          { s with polls := s.polls + 1 } (fun k => by
            have hle := hwithin k
            show H.body.data k
              ≤ H.body.data (s.polls + 1) + (body.remaining - frame.bytes.length)
            omega)
        refine hrest.trans ?_
        cases body.completion <;> rfl

/-- A streaming request and its consumer. -/
def Host.consumed (H : Host) (self : HttpService ρ) (request : StreamingRequest β) (s : Serving)
    (looks : ℕ → Bool) (n : ℕ) : Option Stopped × Serving :=
  interp H.step (handle_streaming_consume self request looks n) s

theorem consumed_eq {H : Host} {self : HttpService ρ} {request : StreamingRequest β} {s : Serving}
    (haccepts : self.AcceptsStreaming request) (hfree : 0 < s.available) (looks : ℕ → Bool)
    (n : ℕ) :
    H.consumed self request s looks n =
      (fun out : Stopped × Serving => (some out.1, out.2))
        (interp H.step ((self.response_body H s).consume looks n 0 : ServiceM ρ β _)
          (if H.body.is_end_stream s.polls then (s.admitted H).settle H (some {}) true
            else s.admitted H)) := by
  rw [Host.consumed, handle_streaming_consume, interp_bind,
    interp_handle_streaming H haccepts hfree]
  exact interp_bind H.step _ _ _

/-- For every response without errors and within the limit, and every consumer that stopped at
the end of the stream: the request is counted, once, just when the body was at its end before
the first poll or the consumer went on until a poll found the end. -/
theorem streaming_counted_iff (H : Host) (self : HttpService ρ) (request : StreamingRequest β)
    (haccepts : self.AcceptsStreaming request) (s : Serving) (hfree : 0 < s.available)
    (hfresh : s.polls = 0) (hcompleted : s.completed_requests ≤ u64_max)
    (hclean : ∀ i error, H.body.poll i ≠ .Ready (some (.error error)))
    (hwithin : ∀ k, H.body.data k ≤ self.max_output_bytes) (looks : ℕ → Bool) (n : ℕ)
    (stopped : Stopped) (hstopped : (H.consumed self request s looks n).1 = some stopped)
    (hdone : stopped = .ended ∨ stopped = .told) :
    (H.consumed self request s looks n).2.completed_requests
        = (s.completed_requests + 1) % (u64_max + 1) ↔
      H.body.is_end_stream 0 = true ∨ stopped = .ended := by
  have hdiffer : s.completed_requests ≠ (s.completed_requests + 1) % (u64_max + 1) := by
    rcases Nat.eq_or_lt_of_le hcompleted with hmax | hlt
    · rw [hmax, Nat.mod_self]
      decide
    · rw [Nat.mod_eq_of_lt (by omega)]
      omega
  rw [consumed_eq haccepts hfree, hfresh] at hstopped ⊢
  have hwithin' : ∀ (s' : Serving), s'.polls = 0 → ∀ k,
      H.body.data k ≤ H.body.data s'.polls + (self.response_body H s).remaining := by
    intro s' hs' k
    rw [hs', ResponseBody.data_zero, Nat.zero_add]
    exact hwithin k
  by_cases hend : H.body.is_end_stream 0 = true
  · -- Counted with the headers; there is no completion left to be counted again.
    have hcompletion : (self.response_body H s).completion = none := by
      show (if H.body.is_end_stream s.polls = true then none else some _) = none
      rw [hfresh, if_pos hend]
    rw [if_pos hend] at hstopped ⊢
    refine ⟨fun _ => .inl hend, fun _ => ?_⟩
    have hpolls : ((s.admitted H).settle H (some {}) true).polls = 0 := hfresh
    have hcount := consume_counted (ρ := ρ) (β := β) H looks n (self.response_body H s) _ hclean
      (hwithin' _ hpolls)
    rw [hpolls, hcompletion] at hcount
    exact hcount
  · have hcompletion : (self.response_body H s).completion = some {} := by
      show (if H.body.is_end_stream s.polls = true then none else some _) = some _
      rw [hfresh, if_neg hend]
    rw [if_neg hend] at hstopped ⊢
    have hpolls : (s.admitted H).polls = 0 := hfresh
    have hcount := consume_counted (ρ := ρ) (β := β) H looks n (self.response_body H s) _ hclean
      (hwithin' _ hpolls)
    rw [hpolls, hcompletion] at hcount
    have hresult : (interp H.step ((self.response_body H s).consume looks n 0 : ServiceM ρ β _)
        (s.admitted H)).1 = stopped := Option.some.inj hstopped
    rw [hresult] at hcount
    refine (Eq.congr_left hcount).trans ?_
    rcases hdone with rfl | rfl
    · exact ⟨fun _ => .inr rfl, fun _ => rfl⟩
    · refine ⟨fun h => absurd h hdiffer, ?_⟩
      rintro (h | h)
      · exact absurd h hend
      · cases h

/-- A consumer that never looks polls the short response to its end, and it is counted. -/
theorem streaming_counted_never_looks :
    (shortHost.consumed (⟨16, 16, fun _ => .ok ()⟩ : HttpService Unit)
      (⟨⟨0, some 0⟩, ()⟩ : StreamingRequest Unit) freshServing (fun _ => false)
      2).2.completed_requests = 1 := by
  refine (streaming_counted_iff shortHost (⟨16, 16, fun _ => .ok ()⟩ : HttpService Unit)
    (⟨⟨0, some 0⟩, ()⟩ : StreamingRequest Unit) ⟨by decide, by decide⟩ freshServing (by decide) rfl
    (by decide) ?_ ?_ (fun _ => false) 2 .ended rfl (.inl rfl)).mpr (.inr rfl)
  · intro i error h
    by_cases hi : i = 0
    · rw [show shortHost.body.poll i = .Ready (some (.ok (.data [104, 105]))) from if_pos hi] at h
      cases h
    · rw [show shortHost.body.poll i = .Ready none from if_neg hi] at h
      cases h
  · intro k
    have hle : shortHost.body.data k ≤ 2 := by
      induction k with
      | zero => decide
      | succ k ih =>
        by_cases hk : k = 0
        · subst hk
          decide
        · rw [ResponseBody.data_succ, show shortHost.body.poll k = .Ready none from if_neg hk]
          exact ih
    exact hle.trans (by decide)

/-- The same response to a consumer that looks: it has the frame, `is_end_stream` is true, and
it stops. Nothing is counted. -/
theorem looking_consumer_is_not_counted :
    (shortHost.consumed (⟨16, 16, fun _ => .ok ()⟩ : HttpService Unit)
      (⟨⟨0, some 0⟩, ()⟩ : StreamingRequest Unit) freshServing (fun _ => true) 2).1 = some .told ∧
    (shortHost.consumed (⟨16, 16, fun _ => .ok ()⟩ : HttpService Unit)
      (⟨⟨0, some 0⟩, ()⟩ : StreamingRequest Unit) freshServing (fun _ => true)
      2).2.completed_requests = 0 := ⟨rfl, rfl⟩

end WasmRuntime.Http
