/-
`HttpService`: the buffered and the streaming way of a request, as programs.

The programs ask for what they share with other requests (the admission semaphore and the counters
of `HttpMetrics`), for what the Wasmtime handler and the response body answer, and for the clock.
-/
import WasmRuntime.Crate
import WasmRuntime.HttpBody
import WasmRuntime.MemoryCache
import WasmRuntime.Tasks

set_option autoImplicit false

namespace WasmRuntime.Http

open Cache Prog

/-! ## The data

The fields that the functions below read; bodies and handlers are asked for what they yield. -/

structure HttpRequest where
  method : String
  uri : String
  headers : List (String × Bytes)
  body : Bytes
  deriving DecidableEq, Repr

structure HttpResponse where
  status : ℕ
  headers : List (String × Bytes)
  body : Bytes
  elapsed : ℕ
  package_tier : PackageTier
  worker_created : Bool
  deriving DecidableEq, Repr

/-- `http::response::Parts`, as far as it is read. -/
structure Parts where
  status : ℕ
  headers : List (String × Bytes)
  deriving DecidableEq, Repr

structure HttpDispatchMetadata where
  request_id : ℕ
  package_tier : PackageTier
  worker_created : Bool
  headers_elapsed : ℕ
  deriving DecidableEq, Repr

/-- `HttpRequestCompletion`; the metrics and the permit that it holds are those of its
request. -/
structure HttpRequestCompletion where
  deriving DecidableEq, Repr

/-- `StreamingHttpBody`, without the inner body, which is asked. -/
structure StreamingHttpBody where
  remaining : ℕ
  completion : Option HttpRequestCompletion
  metadata : HttpDispatchMetadata
  deriving DecidableEq, Repr

/-- The request that `handle_streaming` is called with, and the size hint of its body. -/
structure StreamingRequest (β : Type) where
  size_hint : SizeHint
  request : β

/-- What is handed to the Wasmtime handler: a request that was built, or one whose body is
under `Limited`. -/
inductive Dispatched (ρ β : Type) where
  | built (request : ρ)
  | limited (request : β) (max_input_bytes : ℕ)

/-- What the service reads of its configuration, and the request builder of the `http` crate. -/
structure HttpService (ρ : Type) where
  max_input_bytes : ℕ
  max_output_bytes : ℕ
  builder : HttpRequest → Except String ρ

/-! ## The effects

An `await` may answer that the future is dropped there; the program then drops what it holds, in the
order in which Rust does, and is over. The response that is returned and each answer of a body are
reported, so that what a caller has seen is part of the history. -/

/-- What an `await` comes to. -/
inductive Awaited (α : Type) where
  | ready (value : α)
  | dropped
  deriving DecidableEq, Repr

/-- What the owner of a `StreamingHttpBody` does with it. -/
inductive Owner where
  | poll | drop
  deriving DecidableEq, Repr

/-- The single operations of a request. -/
inductive ServiceOp (ρ β : Type) where
  | acquire_owned
  | release_permit
  | fetch_add_in_flight
  | fetch_sub_in_flight
  | fetch_add_completed
  | load_workers_created
  | load_package_tier
  | fetch_add_next_request
  | now
  | handle (id : ℕ) (request : Dispatched ρ β)
  | collect
  | is_end_stream
  | poll_frame
  | owner
  | returned (failed : Bool)
  | yielded (answer : FramePoll Error)

/-- Their answers. -/
@[reducible]
def ServiceOp.Answer {ρ β : Type} : ServiceOp ρ β → Type
  | .acquire_owned => Awaited (Except Unit Unit)
  | .load_workers_created | .load_package_tier | .fetch_add_next_request | .now => ℕ
  | .handle _ _ => Awaited (Except String Parts)
  | .collect => Awaited (Except String Bytes)
  | .is_end_stream => Bool
  | .poll_frame => FramePoll String
  | .owner => Owner
  | .release_permit | .fetch_add_in_flight | .fetch_sub_in_flight | .fetch_add_completed
  | .returned _ | .yielded _ => Unit

variable {ρ β : Type}

/-- A piece of the service. -/
abbrev ServiceM (ρ β α : Type) : Type := Prog (ServiceOp ρ β) ServiceOp.Answer α

/-- One operation. -/
def ask (op : ServiceOp ρ β) : ServiceM ρ β op.Answer := perform op

/-! ## The functions

What is dropped is written out. Dropping an `HttpRequestCompletion` runs its `Drop`, which
decrements `in_flight`, and then drops its permit; `complete` consumes the value, so it ends by
dropping it as well. -/

def package_tier_from_code : ℕ → PackageTier
  | 0 => .Cold
  | 1 => .DiskAot
  | 2 => .Warmish
  | _ => .Warm

/-- `HttpService::package_tier`. -/
def package_tier : ServiceM ρ β PackageTier := do
  let code ← ask .load_package_tier
  pure (package_tier_from_code code)

namespace HttpRequestCompletion

/-- `drop`: `Drop::drop` first, then the permit. -/
def drop (_self : HttpRequestCompletion) : ServiceM ρ β Unit := do
  ask .fetch_sub_in_flight
  ask .release_permit

/-- `HttpRequestCompletion::complete`, which owns the value and drops it at its end. -/
def complete (self : HttpRequestCompletion) : ServiceM ρ β Unit := do
  ask .fetch_add_completed
  self.drop

end HttpRequestCompletion

def build_request (self : HttpService ρ) (request : HttpRequest) : Except Error ρ :=
  match self.builder request with
  | .ok request => .ok request
  | .error error => .error (.Execution ("invalid HTTP request: " ++ error))

/-- What `handle` does once it has its completion: the result, and whether the completion is
still to be dropped. -/
def handle_admitted (self : HttpService ρ) (request : HttpRequest) (started : ℕ)
    (tier : PackageTier) (workers_before : ℕ) (completion : HttpRequestCompletion) :
    ServiceM ρ β (Awaited (Except Error HttpResponse) × Option HttpRequestCompletion) := do
  match build_request self request with
  | .error error => pure (.ready (.error error), some completion)
  | .ok request =>
    let id ← ask .fetch_add_next_request
    match ← ask (.handle id (.built request)) with
    | .dropped => pure (.dropped, some completion)
    | .ready (.error error) => pure (.ready (.error (.Execution error)), some completion)
    | .ready (.ok parts) =>
      match ← ask .collect with
      | .dropped => pure (.dropped, some completion)
      | .ready (.error error) => pure (.ready (.error (.Execution error)), some completion)
      | .ready (.ok body) =>
        if body.length > self.max_output_bytes then
          pure (.ready (.error (.Limit "output bytes")), some completion)
        else
          completion.complete
          let now ← ask .now
          let workers_created ← ask .load_workers_created
          pure (.ready (.ok
            { status := parts.status, headers := parts.headers, body := body,
              elapsed := now - started, package_tier := tier,
              worker_created := decide (workers_created > workers_before) }), none)

/-- The end of a scope that may hold a completion. -/
def drop_completion : Option HttpRequestCompletion → ServiceM ρ β Unit
  | some completion => completion.drop
  | none => pure ()

/-- `HttpService::handle`. -/
def handle (self : HttpService ρ) (request : HttpRequest) :
    ServiceM ρ β (Awaited (Except Error HttpResponse)) := do
  if request.body.length > self.max_input_bytes then
    pure (.ready (.error (.Limit "input bytes")))
  else
    match ← ask .acquire_owned with
    | .dropped => pure .dropped
    | .ready (.error _) => pure (.ready (.error (.InvalidState "HTTP service is closed")))
    | .ready (.ok _) =>
      let started ← ask .now
      let tier ← package_tier
      let workers_before ← ask .load_workers_created
      ask .fetch_add_in_flight
      let (result, completion) ←
        handle_admitted self request started tier workers_before {}
      drop_completion completion
      pure result

/-- `handle_streaming` over its response: the body starts with the completion, unless it is at
its end already. -/
def streaming_body (max_output_bytes : ℕ) (metadata : HttpDispatchMetadata)
    (completion : HttpRequestCompletion) : ServiceM ρ β StreamingHttpBody := do
  if ← ask .is_end_stream then
    completion.complete
    pure { remaining := max_output_bytes, completion := none, metadata := metadata }
  else
    pure { remaining := max_output_bytes, completion := some completion, metadata := metadata }

/-- `HttpService::handle_streaming`. -/
def handle_streaming (self : HttpService ρ) (request : StreamingRequest β) :
    ServiceM ρ β (Awaited (Except Error (Parts × StreamingHttpBody))) := do
  let started ← ask .now
  let tier ← package_tier
  let max_input_u64 := (Exec.tryFrom u64_max self.max_input_bytes).getD u64_max
  if request.size_hint.lower > max_input_u64 ∨
      request.size_hint.upper.any fun upper => decide (upper > max_input_u64) then
    pure (.ready (.error (.Limit "input bytes")))
  else
    match ← ask .acquire_owned with
    | .dropped => pure .dropped
    | .ready (.error _) => pure (.ready (.error (.InvalidState "HTTP service is closed")))
    | .ready (.ok _) =>
      ask .fetch_add_in_flight
      let completion : HttpRequestCompletion := {}
      let workers_before ← ask .load_workers_created
      let id ← ask .fetch_add_next_request
      match ← ask (.handle id (.limited request.request self.max_input_bytes)) with
      | .dropped =>
        completion.drop
        pure .dropped
      | .ready (.error error) =>
        completion.drop
        pure (.ready (.error (.Execution error)))
      | .ready (.ok parts) =>
        let workers_created ← ask .load_workers_created
        let now ← ask .now
        let metadata : HttpDispatchMetadata :=
          { request_id := id, package_tier := tier,
            worker_created := decide (workers_created > workers_before),
            headers_elapsed := now - started }
        let body ← streaming_body self.max_output_bytes metadata completion
        pure (.ready (.ok (parts, body)))

namespace StreamingHttpBody

/-- `StreamingHttpBody::poll_frame`. -/
def poll_frame (body : StreamingHttpBody) : ServiceM ρ β (FramePoll Error × StreamingHttpBody) := do
  match ← ask .poll_frame with
  | .Ready (some (.ok frame)) =>
    match frame.data_ref with
    | some data =>
      if data.length > body.remaining then
        drop_completion body.completion
        pure (.Ready (some (.error (.Limit "output bytes"))),
          { body with remaining := 0, completion := none })
      else
        pure (.Ready (some (.ok frame)), { body with remaining := body.remaining - data.length })
    | none => pure (.Ready (some (.ok frame)), body)
  | .Ready (some (.error error)) =>
    drop_completion body.completion
    pure (.Ready (some (.error (.Execution error))), { body with completion := none })
  | .Ready none =>
    match body.completion with
    | some completion =>
      completion.complete
      pure (.Ready none, { body with completion := none })
    | none => pure (.Ready none, body)
  | .Pending => pure (.Pending, body)

end StreamingHttpBody

/-! ## Requests as threads

A `StreamingHttpBody` is in the hands of whoever got the response, who polls it and drops it when
they like. -/

/-- A request to the service. -/
inductive HttpCall (β : Type) where
  | handle (request : HttpRequest)
  | handle_streaming (request : StreamingRequest β)

/-- Where a request is when its future is over: with the owner of its body. -/
inductive HttpBlock where
  | streaming (body : StreamingHttpBody)

/-- The whole of a request. -/
def HttpCall.program (self : HttpService ρ) : HttpCall β → ServiceM ρ β (Option HttpBlock)
  | .handle request => do
      match ← Http.handle self request with
      | .dropped => pure none
      | .ready (.error _) =>
        ask (.returned true)
        pure none
      | .ready (.ok _) =>
        ask (.returned false)
        pure none
  | .handle_streaming request => do
      match ← Http.handle_streaming self request with
      | .dropped => pure none
      | .ready (.error _) =>
        ask (.returned true)
        pure none
      | .ready (.ok (_, body)) =>
        ask (.returned false)
        pure (some (.streaming body))

/-- What the owner of a body does, any number of times. -/
def HttpBlock.program : HttpBlock → ServiceM ρ β (Option HttpBlock)
  | .streaming body => do
      match ← ask .owner with
      | .drop =>
        drop_completion body.completion
        pure none
      | .poll =>
        let (answer, body) ← body.poll_frame
        ask (.yielded answer)
        pure (some (.streaming body))

end WasmRuntime.Http
