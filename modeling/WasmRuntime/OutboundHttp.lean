/-
Outbound HTTP: the capability decision and the two `send_request` hooks.

A grant names one origin, its methods, two body limits and whether private networks are allowed. The
hook of WASI 0.2 and the hook of WASI 0.3 make the same decision in their own ways: the first grant
that matches the request is taken, the destination is looked up unless the grant allows private
networks, and then the connector gets the request.
-/
import WasmRuntime.Crate
import WasmRuntime.HttpBody
import WasmRuntime.Prog

set_option autoImplicit false

namespace WasmRuntime.Http

open Prog

/-! ## Configuration

What the `http` crate makes of a method, an origin, an authority or a header is a parameter
(`HttpCrate`); `default_deny` holds for whatever it answers. -/

structure OutboundHttpGrant where
  scheme : String
  authority : String
  methods : List String
  max_request_bytes : ℕ
  max_response_bytes : ℕ
  allow_private_network : Bool
  deriving DecidableEq, Repr

/-- `HttpServiceConfig`; the durations are in nanoseconds. -/
structure HttpServiceConfig where
  max_in_flight : ℕ
  max_instance_reuse_count : ℕ
  max_instance_concurrent_reuse_count : ℕ
  idle_worker_ttl : ℕ
  request_timeout : ℕ
  outbound_grants : List OutboundHttpGrant

/-- What the `http` crate says about texts. -/
structure HttpCrate where
  /-- `Method::from_bytes` accepts. -/
  method_from_bytes : String → Bool
  /-- `Uri::builder` with a scheme, an authority and `/`. -/
  build_origin : String → String → Except String Unit
  /-- `Authority::host`. -/
  host : String → String
  /-- `Authority::port_u16`. -/
  port_u16 : String → Option ℕ
  /-- `HeaderMap::get` for `CONTENT_LENGTH`. -/
  content_length : List (String × Bytes) → Option Bytes
  /-- `HeaderValue::to_str`. -/
  to_str : Bytes → Option Bytes

/-- The checks on one grant. -/
def validate_grant (H : HttpCrate) (grant : OutboundHttpGrant) : Except Error Unit :=
  if ¬ (grant.scheme = "http" ∨ grant.scheme = "https") then
    .error (.Configuration "outbound HTTP grant scheme must be http or https")
  else if grant.authority.isEmpty ∨ '@' ∈ grant.authority.toList ∨ grant.methods.isEmpty ∨
      (grant.methods.any fun method => !H.method_from_bytes method) ∨
      grant.max_request_bytes = 0 ∨ grant.max_response_bytes = 0 then
    .error (.Configuration ("outbound HTTP grants require an authority, at least one method, " ++
      "and positive body limits"))
  else
    match H.build_origin grant.scheme grant.authority with
    | .ok _ => .ok ()
    | .error error => .error (.Configuration ("invalid outbound HTTP origin: " ++ error))

/-- The loop over the grants. -/
def validate_grants (H : HttpCrate) : List OutboundHttpGrant → Except Error Unit
  | [] => .ok ()
  | grant :: rest =>
    match validate_grant H grant with
    | .ok _ => validate_grants H rest
    | .error error => .error error

/-- `validate_config` of the HTTP service. -/
def validate_config (H : HttpCrate) (config : HttpServiceConfig) (runtime_max_timeout : ℕ) :
    Except Error Unit :=
  if config.max_in_flight = 0 ∨ config.max_instance_reuse_count = 0 ∨
      config.max_instance_concurrent_reuse_count = 0 ∨ config.idle_worker_ttl = 0 ∨
      config.request_timeout = 0 then
    .error (.Configuration "HTTP capacities, idle TTL, and request timeout must be positive")
  else if config.request_timeout > runtime_max_timeout then .error (.Limit "timeout")
  else validate_grants H config.outbound_grants

/-! ## Requests

The parts that the hooks read. A declared length that is not a number is over every limit. -/

/-- `Uri`, as far as it is read. -/
structure Uri where
  scheme_str : Option String
  authority : Option String
  deriving DecidableEq, Repr

/-- A request with a body of type `β`; `options` is what the connector is told besides. -/
structure OutgoingRequest (κ β : Type) where
  uri : Uri
  method : String
  headers : List (String × Bytes)
  options : κ
  body : β

/-- A response with a body of type `γ`. -/
structure IncomingResponse (γ : Type) where
  status : ℕ
  headers : List (String × Bytes)
  body : γ

/-- The error codes of `wasi:http` that the hooks give, and those of the connector. -/
inductive ErrorCode where
  | HttpRequestDenied
  | DestinationIpProhibited
  | HttpRequestBodySize (size : Option ℕ)
  | HttpResponseBodySize (size : Option ℕ)
  | other (text : String)
  deriving DecidableEq, Repr

/-- `str::eq_ignore_ascii_case`. -/
def eq_ignore_ascii_case (a b : String) : Bool :=
  a.toList.map Char.toLower == b.toList.map Char.toLower

/-- The digits of a number, most significant first, into what was read before them. -/
def parse_digits (n : ℕ) : Bytes → Option ℕ
  | [] => some n
  | b :: rest =>
    if 48 ≤ b ∧ b ≤ 57 ∧ 10 * n + (b.toNat - 48) ≤ u64_max then
      parse_digits (10 * n + (b.toNat - 48)) rest
    else none

/-- `str::parse::<u64>`: one `+` may precede the digits. -/
def parse_u64 (text : Bytes) : Option ℕ :=
  match text with
  | [] => none
  | b :: rest => if b = 43 ∧ rest ≠ [] then parse_digits 0 rest else parse_digits 0 (b :: rest)

def content_length_at_most (H : HttpCrate) (headers : List (String × Bytes)) (limit : ℕ) :
    Bool :=
  match H.content_length headers with
  | none => decide (0 ≤ limit)
  | some value => ((H.to_str value).bind parse_u64).any fun length => decide (length ≤ limit)

/-! ## Addresses

`is_public_ip` takes a list of ranges out of the IPv4 addresses, and of the IPv6 addresses keeps one
range less a few. -/

inductive IpAddr where
  | V4 (a b c d : UInt8)
  | V6 (segments : Vector UInt16 8)
  deriving DecidableEq

/-- `Ipv4Addr::is_private`. -/
def is_private (a b : UInt8) : Bool :=
  a == 10 || (a == 172 && decide (16 ≤ b ∧ b ≤ 31)) || (a == 192 && b == 168)

/-- `Ipv4Addr::is_documentation`. -/
def is_documentation (a b c : UInt8) : Bool :=
  (a == 192 && b == 0 && c == 2) || (a == 198 && b == 51 && c == 100) ||
    (a == 203 && b == 0 && c == 113)

def is_public_ip : IpAddr → Bool
  | .V4 a b c d =>
    !(a == 0
      || is_private a b
      -- loopback, link-local, broadcast
      || a == 127
      || (a == 169 && b == 254)
      || (a == 255 && b == 255 && c == 255 && d == 255)
      || is_documentation a b c
      -- unspecified, multicast
      || (a == 0 && b == 0 && c == 0 && d == 0)
      || decide (224 ≤ a ∧ a ≤ 239)
      || (a == 100 && decide (64 ≤ b ∧ b ≤ 127))
      || (a == 192 && b == 0 && c == 0)
      || (a == 192 && b == 88 && c == 99)
      || (a == 198 && (b == 18 || b == 19))
      || decide (240 ≤ a))
  | .V6 segments =>
    (segments[0] &&& 0xe000) == 0x2000 && !(segments[0] == 0x2001 && segments[1] == 0x0db8)

/-! ### IPv6 addresses that carry an IPv4 address

The two branches of the filter have nothing in common. What the second says of an address that
is routed to an IPv4 destination depends on the form alone: three of the four forms lie outside
`2000::/3`, and `2002::/16` lies inside. -/

/-- Two octets as one of the eight groups. -/
def group (high low : UInt8) : UInt16 := high.toUInt16 <<< 8 ||| low.toUInt16

theorem groups_size (s : Fin 8 → UInt16) : (Array.ofFn s).size = 8 := Array.size_ofFn

/-- `Ipv6Addr::new`. -/
def groups (s : Fin 8 → UInt16) : Vector UInt16 8 := ⟨Array.ofFn s, groups_size s⟩

/-- The forms in which an IPv6 address carries an IPv4 destination: `::ffff:x`, `::x`,
`64:ff9b::x`, and `2002:x::/48` with a subnet and an interface. -/
inductive Embedding where
  | mapped
  | compatible
  | nat64
  | six_to_four (subnet : UInt16) (interface : Fin 4 → UInt16)

/-- The groups of the address that carries `a.b.c.d`. -/
def Embedding.segments (a b c d : UInt8) : Embedding → Fin 8 → UInt16
  | .mapped, i => [0, 0, 0, 0, 0, 0xffff, group a b, group c d].getD i.val 0
  | .compatible, i => [0, 0, 0, 0, 0, 0, group a b, group c d].getD i.val 0
  | .nat64, i => [0x64, 0xff9b, 0, 0, 0, 0, group a b, group c d].getD i.val 0
  | .six_to_four subnet interface, i =>
    ([0x2002, group a b, group c d, subnet] ++ List.ofFn interface).getD i.val 0

/-- The address that carries `a.b.c.d`. -/
def Embedding.carry (e : Embedding) (a b c d : UInt8) : IpAddr :=
  .V6 (groups (e.segments a b c d))

/-- The filter on an IPv6 address: the first group is in `2000::/3`, and the first two are not
those of the documentation range. -/
theorem is_public_ip_groups (s : Fin 8 → UInt16) :
    is_public_ip (.V6 (groups s))
      = ((s 0 &&& 0xe000) == 0x2000 && !(s 0 == 0x2001 && s 1 == 0x0db8)) := by
  have hzero : (groups s)[0] = s 0 := Array.getElem_ofFn ..
  have hone : (groups s)[1] = s 1 := Array.getElem_ofFn ..
  rw [is_public_ip, hzero, hone]

/-- Three of the forms are rejected whatever they carry: the first group is 0 or 0x64. -/
theorem carry_rejected {e : Embedding} (he : ∀ subnet interface, e ≠ .six_to_four subnet interface)
    (a b c d : UInt8) : is_public_ip (e.carry a b c d) = false := by
  have hfirst : (e.segments a b c d 0 &&& 0xe000) = 0 := by
    cases e with
    | six_to_four subnet interface => exact absurd rfl (he subnet interface)
    | mapped => exact UInt16.zero_and
    | compatible => exact UInt16.zero_and
    | nat64 =>
      have h : (0x64 &&& 0xe000 : UInt16) = 0 := by decide
      exact h
  rw [Embedding.carry, is_public_ip_groups, hfirst]
  rfl

/-- The fourth is accepted whatever it carries: the first group is 0x2002. -/
theorem carry_six_to_four (subnet : UInt16) (interface : Fin 4 → UInt16) (a b c d : UInt8) :
    is_public_ip ((Embedding.six_to_four subnet interface).carry a b c d) = true := by
  have hfirst : (Embedding.six_to_four subnet interface).segments a b c d 0 = 0x2002 := rfl
  have hrange : ((0x2002 &&& 0xe000 : UInt16) == 0x2000) = true := by decide
  have hdocumentation : ((0x2002 : UInt16) == 0x2001) = false := by decide
  rw [Embedding.carry, is_public_ip_groups, hfirst, hrange, hdocumentation, Bool.false_and]
  rfl

/-- The IPv6 filter rejects what the IPv4 filter rejects, in every form but `2002:x::/48`. -/
theorem embedded_rejected_iff (e : Embedding) (a b c d : UInt8) :
    (is_public_ip (.V4 a b c d) = false → is_public_ip (e.carry a b c d) = false) ↔
      is_public_ip (.V4 a b c d) = true ∨
        ∀ subnet interface, e ≠ .six_to_four subnet interface := by
  constructor
  · intro hcovered
    by_cases hpublic : is_public_ip (.V4 a b c d) = true
    · exact .inl hpublic
    · right
      rintro subnet interface rfl
      have hrejected := hcovered (Bool.eq_false_of_not_eq_true hpublic)
      rw [carry_six_to_four] at hrejected
      cases hrejected
  · rintro (hpublic | hform) hrejected
    · rw [hpublic] at hrejected
      cases hrejected
    · exact carry_rejected hform a b c d

/-- `127.0.0.1` is rejected and `2002:7f00:1::` is not. -/
theorem six_to_four_loopback_accepted :
    is_public_ip (.V4 127 0 0 1) = false ∧
      is_public_ip ((Embedding.six_to_four 0 fun _ => 0).carry 127 0 0 1) = true ∧
      (Embedding.six_to_four 0 fun _ => 0).segments 127 0 0 1 1 = 0x7f00 ∧
      (Embedding.six_to_four 0 fun _ => 0).segments 127 0 0 1 2 = 0x0001 := by
  refine ⟨by decide, ?_, by decide, by decide⟩
  exact carry_six_to_four 0 (fun _ => 0) 127 0 0 1

/-! ## The hooks

The connector gets the request with its body under `LimitBody`, and the guest the response with its
body under another. -/

section Hooks

variable {κ β γ : Type}

/-- The request as the connector gets it. -/
abbrev SentRequest (κ β : Type) : Type := OutgoingRequest κ (LimitBody β ErrorCode)

/-- The effects of the hooks. -/
inductive HookOp (κ β : Type) where
  | lookup_host (host : String) (port : ℕ)
  | default_send_request (request : SentRequest κ β)

/-- Their answers; `γ` is the body of a response. -/
@[reducible]
def HookOp.Answer (γ : Type) : HookOp κ β → Type
  | .lookup_host _ _ => Except Unit (List IpAddr)
  | .default_send_request _ => Except ErrorCode (IncomingResponse γ)

/-- A piece of a hook. -/
abbrev HookM (κ β γ α : Type) : Type := Prog (HookOp κ β) (HookOp.Answer γ) α

/-- `tokio::net::lookup_host`; the addresses without their ports. -/
def lookup_host (host : String) (port : ℕ) : HookM κ β γ (Except Unit (List IpAddr)) :=
  .vis (.lookup_host host port) .ret

/-- The connector of Wasmtime. -/
def default_send_request (request : SentRequest κ β) :
    HookM κ β γ (Except ErrorCode (IncomingResponse γ)) :=
  .vis (.default_send_request request) .ret

structure HttpHooks where
  grants : List OutboundHttpGrant

/-- The condition under which `grant_for` takes a grant. -/
def OutboundHttpGrant.matches (H : HttpCrate) (grant : OutboundHttpGrant)
    (scheme authority method : String) (headers : List (String × Bytes)) : Bool :=
  eq_ignore_ascii_case grant.scheme scheme
    && eq_ignore_ascii_case grant.authority authority
    && (grant.methods.any fun m => eq_ignore_ascii_case m method)
    && content_length_at_most H headers grant.max_request_bytes

/-- `HttpHooks::grant_for`. -/
def grant_for (H : HttpCrate) (self : HttpHooks) (request : OutgoingRequest κ β) :
    Option OutboundHttpGrant := do
  let scheme ← request.uri.scheme_str
  let authority ← request.uri.authority
  self.grants.find? fun grant => grant.matches H scheme authority request.method request.headers

/-- The port that is looked up. -/
def destination_port (H : HttpCrate) (authority : String) (grant : OutboundHttpGrant) : ℕ :=
  (H.port_u16 authority).getD (if grant.scheme == "https" then 443 else 80)

def validate_network_destination (H : HttpCrate) (uri : Uri) (grant : OutboundHttpGrant) :
    HookM κ β γ (Except Unit Unit) :=
  if grant.allow_private_network then pure (.ok ())
  else
    match uri.authority with
    | none => pure (.error ())
    | some authority => do
        match ← lookup_host (H.host authority) (destination_port H authority grant) with
        | .error _ => pure (.error ())
        | .ok addresses =>
          if addresses.isEmpty || addresses.any fun address => !is_public_ip address then
            pure (.error ())
          else pure (.ok ())

/-- What both hooks do with the grant that they found. -/
def send_granted (H : HttpCrate) (grant : OutboundHttpGrant) (request : OutgoingRequest κ β) :
    HookM κ β γ (Except ErrorCode (IncomingResponse (LimitBody γ ErrorCode))) := do
  match ← validate_network_destination H request.uri grant with
  | .error _ => pure (.error .DestinationIpProhibited)
  | .ok _ =>
    let body := LimitBody.new request.body grant.max_request_bytes fun _ =>
      ErrorCode.HttpRequestBodySize none
    match ← default_send_request { request with body := body } with
    | .error error => pure (.error error)
    | .ok incoming =>
      if content_length_at_most H incoming.headers grant.max_response_bytes then
        let body := LimitBody.new incoming.body grant.max_response_bytes fun _ =>
          ErrorCode.HttpResponseBodySize none
        pure (.ok { incoming with body := body })
      else pure (.error (.HttpResponseBodySize none))

namespace P2

/-- `send_request` of WASI 0.2: a request without a grant is refused at once, and the rest is
a task that is spawned. -/
def send_request (H : HttpCrate) (self : HttpHooks) (request : OutgoingRequest κ β) :
    Except ErrorCode
      (HookM κ β γ (Except ErrorCode (IncomingResponse (LimitBody γ ErrorCode)))) :=
  match grant_for H self request with
  | none => .error .HttpRequestDenied
  | some grant => .ok (send_granted H grant request)

end P2

namespace P3

/-- `send_request` of WASI 0.3: a future, whose response comes with the future that joins the
guest's with the connector's. -/
def send_request (H : HttpCrate) (self : HttpHooks) (request : OutgoingRequest κ β) :
    HookM κ β γ (Except ErrorCode (IncomingResponse (LimitBody γ ErrorCode))) :=
  match grant_for H self request with
  | none => pure (.error .HttpRequestDenied)
  | some grant => send_granted H grant request

/-- That future: the guest's is awaited first, and its error is the one that is reported. -/
def transmission (request_result response_result : Except ErrorCode Unit) :
    Except ErrorCode Unit :=
  match request_result with
  | .ok _ => response_result
  | .error error => .error error

end P3

/-! ## Running a hook

The answers of the name lookup and of the connector are a parameter too. -/

/-- The hooks. -/
inductive Hook where
  | p2 | p3
  deriving DecidableEq, Repr

/-- The name lookup and the connector. -/
structure Network (κ β γ : Type) where
  lookup_host : String → ℕ → Except Unit (List IpAddr)
  default_send_request : SentRequest κ β → Except ErrorCode (IncomingResponse γ)

/-- What they answer; the requests that reach the connector are listed. -/
def Network.answer (N : Network κ β γ) (sent : List (SentRequest κ β)) :
    (op : HookOp κ β) → op.Answer γ × List (SentRequest κ β)
  | .lookup_host host port => (N.lookup_host host port, sent)
  | .default_send_request request => (N.default_send_request request, sent ++ [request])

/-- A request through a hook: its result, and what reached the connector. -/
def Hook.send (H : HttpCrate) (N : Network κ β γ) (self : HttpHooks)
    (request : OutgoingRequest κ β) :
    Hook → Except ErrorCode (IncomingResponse (LimitBody γ ErrorCode)) × List (SentRequest κ β)
  | .p2 =>
    match P2.send_request H self request with
    | .error error => (.error error, [])
    | .ok task => interp N.answer task []
  | .p3 => interp N.answer (P3.send_request H self request) []

end Hooks

/-! ## What an accepted configuration excludes

A grant that carried user information could match a request that does. -/

theorem validate_grants_ok {H : HttpCrate} {grants : List OutboundHttpGrant}
    (h : validate_grants H grants = .ok ()) :
    ∀ grant ∈ grants, validate_grant H grant = .ok () := by
  induction grants with
  | nil => exact fun _ hmem => absurd hmem List.not_mem_nil
  | cons grant rest ih =>
    rw [validate_grants] at h
    cases hgrant : validate_grant H grant with
    | error error =>
      rw [hgrant] at h
      cases h
    | ok _ =>
      rw [hgrant] at h
      intro other hmem
      rcases List.mem_cons.mp hmem with rfl | hrest
      · exact hgrant
      · exact ih h other hrest

theorem validate_config_ok {H : HttpCrate} {config : HttpServiceConfig} {runtime_max_timeout : ℕ}
    (h : validate_config H config runtime_max_timeout = .ok ()) :
    ∀ grant ∈ config.outbound_grants, validate_grant H grant = .ok () := by
  unfold validate_config at h
  split at h
  · cases h
  · split at h
    · cases h
    · exact validate_grants_ok h

/-- No grant carries user information. -/
theorem validate_grant_no_user {H : HttpCrate} {grant : OutboundHttpGrant}
    (h : validate_grant H grant = .ok ()) : '@' ∉ grant.authority.toList := by
  unfold validate_grant at h
  split at h
  · cases h
  · split at h
    · cases h
    · rename_i hnone
      simp only [not_or] at hnone
      exact hnone.2.1

/-- Lower case has no other way to an `@`. -/
theorem toLower_eq_at (c : Char) : c.toLower = '@' ↔ c = '@' := by
  unfold Char.toLower
  split
  · rename_i hupper
    constructor
    · intro heq
      have hval : c.val + ('a'.val - 'A'.val) = '@'.val := congrArg Char.val heq
      have hc : c.val = '@'.val - ('a'.val - 'A'.val) := by
        rw [← hval]
        simp
      rw [hc] at hupper
      exact absurd hupper (by decide)
    · rintro rfl
      exact absurd hupper (by decide)
  · rfl

/-- A text that matches one without user information has none. -/
theorem no_user_of_eq_ignore_ascii_case {a b : String} (h : eq_ignore_ascii_case a b = true)
    (ha : '@' ∉ a.toList) : '@' ∉ b.toList := by
  have hmap : a.toList.map Char.toLower = b.toList.map Char.toLower := eq_of_beq h
  intro hb
  have hmem : '@' ∈ a.toList.map Char.toLower := by
    rw [hmap]
    exact List.mem_map.mpr ⟨'@', hb, rfl⟩
  obtain ⟨c, hc, hlower⟩ := List.mem_map.mp hmem
  rw [(toLower_eq_at c).mp hlower] at hc
  exact ha hc

/-! ## What a hook permits

The connector reads the request body through the body it is handed, so what it receives is what
`LimitBody.drain` lets through. -/

section Permits

variable {κ β γ : Type}

/-- `grant_for` answers with a configured grant that matches. -/
theorem grant_for_eq_some {H : HttpCrate} {self : HttpHooks} {request : OutgoingRequest κ β}
    {grant : OutboundHttpGrant} (h : grant_for H self request = some grant) :
    grant ∈ self.grants ∧ ∃ scheme authority, request.uri.scheme_str = some scheme ∧
      request.uri.authority = some authority ∧
      grant.matches H scheme authority request.method request.headers = true := by
  unfold grant_for at h
  obtain ⟨scheme, hscheme, h⟩ := Option.bind_eq_some_iff.mp h
  obtain ⟨authority, hauthority, h⟩ := Option.bind_eq_some_iff.mp h
  have hmatches := List.find?_some h
  exact ⟨List.mem_of_find?_eq_some h, scheme, authority, hscheme, hauthority, hmatches⟩

/-- The declared length of a body, if there is one, can be read and is within the limit. -/
theorem content_length_at_most_iff (H : HttpCrate) (headers : List (String × Bytes))
    (limit : ℕ) : content_length_at_most H headers limit = true ↔
      ∀ value, H.content_length headers = some value →
        ∃ length, (H.to_str value).bind parse_u64 = some length ∧ length ≤ limit := by
  unfold content_length_at_most
  cases H.content_length headers with
  | none => simp
  | some value => simp [Option.any_eq_true]

/-- A grant permits a request, by what the lookup answered. -/
structure Permits (H : HttpCrate) (N : Network κ β γ) (grant : OutboundHttpGrant)
    (request : OutgoingRequest κ β) : Prop where
  scheme : ∃ scheme, request.uri.scheme_str = some scheme ∧
    eq_ignore_ascii_case grant.scheme scheme = true
  authority : ∃ authority, request.uri.authority = some authority ∧
    eq_ignore_ascii_case grant.authority authority = true ∧ '@' ∉ authority.toList ∧
    -- The destination is looked up, unless the grant allows private networks.
    (grant.allow_private_network = true ∨ ∃ addresses,
      N.lookup_host (H.host authority) (destination_port H authority grant) = .ok addresses ∧
        addresses ≠ [] ∧ ∀ address ∈ addresses, is_public_ip address = true)
  method : ∃ method ∈ grant.methods, eq_ignore_ascii_case method request.method = true
  length : ∀ value, H.content_length request.headers = some value →
    ∃ length, (H.to_str value).bind parse_u64 = some length ∧ length ≤ grant.max_request_bytes

/-- The check of the destination as a decision on what the lookup answers. -/
def Network.decides (N : Network κ β γ) (H : HttpCrate) (authority : String)
    (grant : OutboundHttpGrant) : Except Unit Unit :=
  if grant.allow_private_network then .ok ()
  else
    match N.lookup_host (H.host authority) (destination_port H authority grant) with
    | .error _ => .error ()
    | .ok addresses =>
      if addresses.isEmpty || addresses.any fun address => !is_public_ip address then .error ()
      else .ok ()

/-- The check of the destination reaches no connector. -/
theorem validate_network_destination_run (H : HttpCrate) (N : Network κ β γ)
    (grant : OutboundHttpGrant) {uri : Uri} {authority : String}
    (hauthority : uri.authority = some authority) (sent : List (SentRequest κ β)) :
    interp N.answer (validate_network_destination H uri grant) sent
      = (N.decides H authority grant, sent) := by
  unfold validate_network_destination Network.decides
  split
  · rfl
  · rw [hauthority]
    show interp N.answer (match N.lookup_host (H.host authority)
        (destination_port H authority grant) with | .error _ => _ | .ok _ => _) sent = _
    cases N.lookup_host (H.host authority) (destination_port H authority grant) with
    | error error => rfl
    | ok addresses =>
      dsimp only
      split <;> rfl

/-- It lets through what the lookup answered with public addresses only. -/
theorem Network.decides_ok {N : Network κ β γ} {H : HttpCrate} {authority : String}
    {grant : OutboundHttpGrant} (h : N.decides H authority grant = .ok ()) :
    grant.allow_private_network = true ∨ ∃ addresses,
      N.lookup_host (H.host authority) (destination_port H authority grant) = .ok addresses ∧
        addresses ≠ [] ∧ ∀ address ∈ addresses, is_public_ip address = true := by
  unfold Network.decides at h
  split at h
  · rename_i hallow
    exact .inl hallow
  · split at h
    · cases h
    · rename_i addresses hlookup
      split at h
      · cases h
      · rename_i hpublic
        simp only [Bool.or_eq_true, List.isEmpty_iff, List.any_eq_true, Bool.not_eq_true',
          not_or, not_exists, not_and, Bool.not_eq_false] at hpublic
        exact .inr ⟨addresses, hlookup, hpublic.1, hpublic.2⟩

/-- What the connector or the guest can read of a body is within a limit, whatever the inner
body answers and however often it is polled. -/
def Limited (limit : ℕ) (body : LimitBody β ErrorCode) : Prop :=
  ∀ answers : List (FramePoll ErrorCode), ((body.drain id answers).map FramePoll.bytes).sum ≤ limit

theorem limited_new (body : β) (limit : ℕ) (error : ℕ → ErrorCode) :
    Limited limit (LimitBody.new body limit error) :=
  fun answers => LimitBody.drain_bytes_le id _ answers

/-- A hook that has found a grant: what it returns and what it sends, by the decision on the
destination and the answer of the connector. -/
theorem send_granted_run (H : HttpCrate) (N : Network κ β γ) (grant : OutboundHttpGrant)
    {request : OutgoingRequest κ β} {authority : String}
    (hauthority : request.uri.authority = some authority) :
    ((interp N.answer (send_granted H grant request) []).2 = [] ∧
      (interp N.answer (send_granted H grant request) []).1 = .error .DestinationIpProhibited) ∨
    (N.decides H authority grant = .ok () ∧ ∃ sent : SentRequest κ β,
      (interp N.answer (send_granted H grant request) []).2 = [sent] ∧
      (sent.uri = request.uri ∧ sent.method = request.method ∧ sent.headers = request.headers ∧
        sent.body.body = request.body) ∧ Limited grant.max_request_bytes sent.body ∧
      ∀ response, (interp N.answer (send_granted H grant request) []).1 = .ok response →
        Limited grant.max_response_bytes response.body) := by
  unfold send_granted
  rw [interp_bind, validate_network_destination_run H N grant hauthority]
  cases hdecides : N.decides H authority grant with
  | error _ => exact .inl ⟨rfl, rfl⟩
  | ok _ =>
    refine .inr ⟨rfl, ?_⟩
    dsimp only
    -- Of the request on the wire only its four parts matter from here on.
    generalize hsent : ({ request with
      body := LimitBody.new request.body grant.max_request_bytes fun _ =>
        ErrorCode.HttpRequestBodySize none } : SentRequest κ β) = sent
    have hsame : sent.uri = request.uri ∧ sent.method = request.method ∧
        sent.headers = request.headers ∧ sent.body.body = request.body := by
      subst hsent
      exact ⟨rfl, rfl, rfl, rfl⟩
    have hlimited : Limited grant.max_request_bytes sent.body := by
      subst hsent
      exact limited_new _ _ _
    have hconnect : interp N.answer (default_send_request sent : HookM κ β γ _) []
        = (N.default_send_request sent, [sent]) := rfl
    rw [interp_bind, hconnect]
    cases N.default_send_request sent with
    | error error => exact ⟨sent, rfl, hsame, hlimited, nofun⟩
    | ok incoming =>
      dsimp only
      split
      · refine ⟨sent, rfl, hsame, hlimited, ?_⟩
        rintro response ⟨⟩
        exact limited_new _ _ _
      · exact ⟨sent, rfl, hsame, hlimited, nofun⟩

/-- Both hooks refuse a request without a grant, and go on alike with one. -/
theorem Hook.send_eq (hook : Hook) (H : HttpCrate) (N : Network κ β γ) (self : HttpHooks)
    (request : OutgoingRequest κ β) :
    hook.send H N self request = match grant_for H self request with
      | none => (.error .HttpRequestDenied, [])
      | some grant => interp N.answer (send_granted H grant request) [] := by
  cases hook with
  | p2 =>
    unfold Hook.send P2.send_request
    cases grant_for H self request <;> rfl
  | p3 =>
    unfold Hook.send P3.send_request
    cases grant_for H self request <;> rfl

/-- For every accepted configuration, every request through either hook, and every answer of
the lookup and of the connector: the request is refused and the connector is not invoked, or it
is invoked once, with that request under a grant that permits it; then it reads at most
`max_request_bytes` of the body and the guest at most `max_response_bytes` of the response, of
the same grant. -/
theorem default_deny (H : HttpCrate) (N : Network κ β γ) (config : HttpServiceConfig)
    (runtime_max_timeout : ℕ) (hvalid : validate_config H config runtime_max_timeout = .ok ())
    (hook : Hook) (request : OutgoingRequest κ β) :
    ((hook.send H N ⟨config.outbound_grants⟩ request).2 = [] ∧
      ∃ error, (hook.send H N ⟨config.outbound_grants⟩ request).1 = .error error) ∨
    ∃ grant ∈ config.outbound_grants, Permits H N grant request ∧ ∃ sent : SentRequest κ β,
      (hook.send H N ⟨config.outbound_grants⟩ request).2 = [sent] ∧
      (sent.uri = request.uri ∧ sent.method = request.method ∧ sent.headers = request.headers ∧
        sent.body.body = request.body) ∧ Limited grant.max_request_bytes sent.body ∧
      ∀ response, (hook.send H N ⟨config.outbound_grants⟩ request).1 = .ok response →
        Limited grant.max_response_bytes response.body := by
  rw [Hook.send_eq]
  cases hgrant : grant_for H ⟨config.outbound_grants⟩ request with
  | none => exact .inl ⟨rfl, _, rfl⟩
  | some grant =>
    obtain ⟨hmem, scheme, authority, hscheme, hauthority, hmatches⟩ := grant_for_eq_some hgrant
    rcases send_granted_run H N grant hauthority with ⟨hnone, herror⟩ | ⟨hdecides, hsent⟩
    · exact .inl ⟨hnone, _, herror⟩
    · refine .inr ⟨grant, hmem, ?_, hsent⟩
      have hvalid' := validate_config_ok hvalid grant hmem
      unfold OutboundHttpGrant.matches at hmatches
      simp only [Bool.and_eq_true, List.any_eq_true, and_assoc] at hmatches
      obtain ⟨hs, ha, hm, hlength⟩ := hmatches
      have huser := no_user_of_eq_ignore_ascii_case ha (validate_grant_no_user hvalid')
      exact ⟨⟨scheme, hscheme, hs⟩,
        ⟨authority, hauthority, ha, huser, Network.decides_ok hdecides⟩, hm,
        (content_length_at_most_iff _ _ _).mp hlength⟩

end Permits

/-- The `http` crate on an authority without a port, and its methods; the first value of a header
counts, the names are in lower case, and a value is text if it is visible ASCII and tabs. -/
def plainCrate : HttpCrate where
  method_from_bytes method := method == "GET" || method == "POST"
  build_origin _ _ := .ok ()
  host authority := authority
  port_u16 _ := none
  content_length headers := (headers.find? fun header => header.1 == "content-length").map Prod.snd
  to_str value :=
    if value.all fun b => decide (32 ≤ b ∧ b < 127) || b == 9 then some value else none

/-- One grant for one origin. -/
def oneOrigin : HttpServiceConfig where
  max_in_flight := 1000
  max_instance_reuse_count := 10000
  max_instance_concurrent_reuse_count := 32
  idle_worker_ttl := 30000000000
  request_timeout := 30000000000
  outbound_grants := [⟨"https", "example.com", ["GET"], 1048576, 4194304, false⟩]

/-- A network where the name has one public address, and a server that answers. -/
def publicNetwork : Network Unit Unit Unit where
  lookup_host host port :=
    if host = "EXAMPLE.com" ∧ port = 443 then .ok [.V4 93 184 216 34] else .error ()
  default_send_request _ := .ok ⟨200, [("content-length", [49, 50])], ()⟩

/-- A `get` of the origin in capital letters reaches the connector. -/
theorem default_deny_capitals :
    ∃ grant ∈ oneOrigin.outbound_grants, Permits plainCrate publicNetwork grant
      ⟨⟨some "HTTPS", some "EXAMPLE.com"⟩, "get", [("content-length", [48])], (), ()⟩ := by
  rcases default_deny plainCrate publicNetwork oneOrigin 30000000000 (by decide +kernel) .p3
    ⟨⟨some "HTTPS", some "EXAMPLE.com"⟩, "get", [("content-length", [48])], (), ()⟩ with h | h
  · have hnone := congrArg List.length h.1
    exact absurd hnone (by decide +kernel)
  · obtain ⟨grant, hmem, hpermits, -⟩ := h
    exact ⟨grant, hmem, hpermits⟩

end WasmRuntime.Http
