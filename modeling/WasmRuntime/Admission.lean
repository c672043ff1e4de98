/-
Admission accounting of `HttpService`.

Any number of requests run at once, each with its future dropped at any `await`, and each response
body polled and dropped as its owner likes. The counters are those of the source: `in_flight` and
`completed_requests` wrap as atomics do, and the semaphore has as many permits as the service was
made with. `admission_accounting` ties them to what each request did, in every state of every run.
-/
import WasmRuntime.Accounts
import WasmRuntime.HttpService

set_option autoImplicit false

namespace WasmRuntime.Http

open Prog Function

variable {ρ β : Type}

/-! ## The state

Each request has an account of what it did. It says whether the request was admitted, whether it
holds its permit, whether its `HttpRequestCompletion` is alive (from the `fetch_add` that goes
before it is made, nothing between the two can fail or be dropped, to the `fetch_sub` in its
`Drop`), how often it decremented, released and completed, and whether its caller was told of an
error. -/

/-- What one request did. -/
structure Account where
  admitted : Bool := false
  permit : Bool := false
  live : Bool := false
  decremented : ℕ := 0
  released : ℕ := 0
  completed : ℕ := 0
  /-- Its caller was told of an error, by the returned result or by the body. -/
  failed : Bool := false
  /-- Its response body is at its end. -/
  ended : Bool := false
  deriving DecidableEq, Repr

/-- What the requests share. -/
structure Counters where
  available : ℕ
  in_flight : ℕ
  completed_requests : ℕ
  next_request : ℕ

/-- The counters, and the account of each request. -/
structure ServiceState (ι : Type) extends Counters where
  accounts : ι → Account

/-- `Semaphore::new`, which refuses more than `MAX_PERMITS`. -/
structure Semaphore (T : Target) where
  permits : ℕ
  permits_le : permits ≤ T.usize_max / 8

/-- A new service. -/
def ServiceState.new {ι : Type} {T : Target} (admission : Semaphore T) : ServiceState ι where
  available := admission.permits
  in_flight := 0
  completed_requests := 0
  next_request := 1
  accounts _ := {}

/-! ## The operations

Of the response body two things are assumed, and they are what `Body` asks of it: once it has said
that it is at its end, by `is_end_stream` or by answering `None`, it yields no further frame or
error. -/

/-- The account after an operation. -/
def Account.next (a : Account) : (op : ServiceOp ρ β) → op.Answer → Account
  | .acquire_owned, .ready (.ok _) => { a with admitted := true, permit := true }
  | .release_permit, _ => { a with permit := false, released := a.released + 1 }
  | .fetch_add_in_flight, _ => { a with live := true }
  | .fetch_sub_in_flight, _ => { a with live := false, decremented := a.decremented + 1 }
  | .fetch_add_completed, _ => { a with completed := a.completed + 1 }
  | .is_end_stream, ended => { a with ended := a.ended || ended }
  | .poll_frame, answer => { a with ended := a.ended || decide (answer = .Ready none) }
  | .returned failed, _ => { a with failed := a.failed || failed }
  | .yielded (.Ready (some (.error _))), _ => { a with failed := true }
  | _, _ => a

/-- The counters after an operation. -/
def Counters.next (T : Target) (s : Counters) : (op : ServiceOp ρ β) → op.Answer → Counters
  | .acquire_owned, .ready (.ok _) => { s with available := s.available - 1 }
  | .release_permit, _ => { s with available := s.available + 1 }
  | .fetch_add_in_flight, _ => { s with in_flight := (s.in_flight + 1) % (T.usize_max + 1) }
  | .fetch_sub_in_flight, _ =>
    { s with in_flight := (s.in_flight + T.usize_max) % (T.usize_max + 1) }
  | .fetch_add_completed, _ =>
    { s with completed_requests := (s.completed_requests + 1) % (u64_max + 1) }
  | .fetch_add_next_request, _ => { s with next_request := (s.next_request + 1) % (u64_max + 1) }
  | _, _ => s

/-- A body that is at its end has no more to say. -/
def Account.Told (a : Account) : (op : ServiceOp ρ β) → op.Answer → Prop
  | .poll_frame, answer => a.ended = true → answer = .Pending ∨ answer = .Ready none
  | _, _ => True

/-- A permit is given when there is one, and an identifier is the next. -/
def Counters.Gives (s : Counters) : (op : ServiceOp ρ β) → op.Answer → Prop
  | .acquire_owned, .ready (.ok _) => 0 < s.available
  | .fetch_add_next_request, id => id = s.next_request
  | _, _ => True

section Runs

variable {ι : Type} [DecidableEq ι]

/-- One operation of request `i`. -/
def Performs (T : Target) (i : ι) (s : ServiceState ι) (op : ServiceOp ρ β) (r : op.Answer)
    (s' : ServiceState ι) : Prop :=
  (s.accounts i).Told op r ∧ s.toCounters.Gives op r ∧
    s' = ⟨s.toCounters.next T op r, update s.accounts i ((s.accounts i).next op r)⟩

/-- The requests. -/
abbrev HttpTasks (ι ρ β : Type) : Type :=
  Tasks ι (ServiceState ι) (ServiceOp ρ β) ServiceOp.Answer HttpBlock

/-- Any number of requests to a new service. -/
def HttpTasks.start {T : Target} (self : HttpService ρ) (admission : Semaphore T)
    (calls : ι → HttpCall β) : HttpTasks ι ρ β where
  state := .new admission
  threads i := (calls i).program self

/-- Any interleaving; nothing else touches the counters. -/
def HttpTasks.Run (T : Target) : HttpTasks ι ρ β → HttpTasks ι ρ β → Prop :=
  Tasks.Run (Performs T) (fun _ _ => False) HttpBlock.program

end Runs

/-! ## The discipline

The account of a request says what it may do next, and `Sound` what the counters are by all accounts
together. One lemma for each counter, and `sound_next` for every operation. -/

/-- What a request may do, by its account. -/
def Account.Allowed (a : Account) : ServiceOp ρ β → Prop
  | .acquire_owned => a.admitted = false
  | .release_permit => a.permit = true ∧ a.live = false
  | .fetch_add_in_flight => a.permit = true ∧ a.live = false ∧ a.decremented = 0
  | .fetch_sub_in_flight => a.live = true
  | .fetch_add_completed => a.completed = 0 ∧ a.failed = false
  | .returned true => a.completed = 0
  | .yielded (.Ready (some (.error _))) => a.completed = 0
  | _ => True

/-- What every account satisfies at every moment. -/
structure Account.Lawful (a : Account) : Prop where
  permit : a.permit.toNat + a.released = a.admitted.toNat
  live : a.live.toNat + a.decremented ≤ 1
  held : a.live = true → a.permit = true
  completed : a.completed ≤ 1
  failed : a.failed = true → a.completed = 0

/-- Allowed operations keep an account lawful. -/
theorem Account.Lawful.next {a : Account} {op : ServiceOp ρ β} (h : a.Lawful)
    (hallowed : a.Allowed op) (r : op.Answer) : (a.next op r).Lawful := by
  obtain ⟨hpermit, hlive, hheld, hcompleted, hfailed⟩ := h
  cases op with
  | acquire_owned =>
    match r with
    | .ready (.ok _) =>
      -- A permit is taken once, so there was none to give back before.
      have hnot : a.admitted = false := hallowed
      rw [hnot] at hpermit
      refine ⟨?_, hlive, fun _ => rfl, hcompleted, hfailed⟩
      show 1 + a.released = 1
      have : (false : Bool).toNat = 0 := rfl
      omega
    | .ready (.error _) => exact ⟨hpermit, hlive, hheld, hcompleted, hfailed⟩
    | .dropped => exact ⟨hpermit, hlive, hheld, hcompleted, hfailed⟩
  | release_permit =>
    -- The permit goes back after the count, so nothing that is live is without one.
    obtain ⟨hhas, hdead⟩ := hallowed
    rw [hhas] at hpermit
    refine ⟨?_, hlive, fun h => absurd (hdead.symm.trans h) nofun, hcompleted, hfailed⟩
    show 0 + (a.released + 1) = a.admitted.toNat
    have : (true : Bool).toNat = 1 := rfl
    omega
  | fetch_add_in_flight =>
    obtain ⟨hhas, -, hzero⟩ := hallowed
    refine ⟨hpermit, ?_, fun _ => hhas, hcompleted, hfailed⟩
    show 1 + a.decremented ≤ 1
    omega
  | fetch_sub_in_flight =>
    have halive : a.live = true := hallowed
    rw [halive] at hlive
    refine ⟨hpermit, ?_, nofun, hcompleted, hfailed⟩
    show 0 + (a.decremented + 1) ≤ 1
    have : (true : Bool).toNat = 1 := rfl
    omega
  | fetch_add_completed =>
    obtain ⟨hzero, hgood⟩ := hallowed
    refine ⟨hpermit, hlive, hheld, ?_, fun h => absurd (hgood.symm.trans h) nofun⟩
    show a.completed + 1 ≤ 1
    omega
  | returned failed =>
    refine ⟨hpermit, hlive, hheld, hcompleted, fun h => ?_⟩
    cases failed with
    | true => exact hallowed
    | false => exact hfailed ((Bool.or_false _).symm.trans h)
  | yielded answer =>
    match answer with
    | .Ready (some (.error _)) => exact ⟨hpermit, hlive, hheld, hcompleted, fun _ => hallowed⟩
    | .Ready (some (.ok _)) | .Ready none | .Pending =>
      exact ⟨hpermit, hlive, hheld, hcompleted, hfailed⟩
  | _ => exact ⟨hpermit, hlive, hheld, hcompleted, hfailed⟩

section Sound

variable {ι : Type}

/-- The counters agree with the accounts. -/
structure ServiceState.Sound (max_in_flight : ℕ) (s : ServiceState ι) : Prop where
  permits : (s.available : ℕ∞) + Accounts.tally Account.permit s.accounts = max_in_flight
  in_flight : (s.in_flight : ℕ∞) = Accounts.tally Account.live s.accounts
  lawful : ∀ i, (s.accounts i).Lawful

/-- A live completion holds a permit, so there are at most as many as permits. -/
theorem ServiceState.Sound.in_flight_le {max_in_flight : ℕ} {s : ServiceState ι}
    (h : s.Sound max_in_flight) : s.in_flight ≤ max_in_flight := by
  have hsub : Accounts.tally Account.live s.accounts ≤ Accounts.tally Account.permit s.accounts :=
    Set.encard_le_encard fun i hi => (h.lawful i).held hi
  have hle : (s.in_flight : ℕ∞) ≤ max_in_flight := by
    rw [h.in_flight, ← h.permits]
    exact hsub.trans le_add_self
  exact_mod_cast hle

/-- A live completion is counted. -/
theorem ServiceState.Sound.in_flight_pos {max_in_flight : ℕ} {s : ServiceState ι}
    (h : s.Sound max_in_flight) {i : ι} (hi : (s.accounts i).live = true) : 0 < s.in_flight := by
  have hne : Accounts.tally Account.live s.accounts ≠ 0 :=
    Set.encard_ne_zero_of_mem (show i ∈ {j | (s.accounts j).live = true} from hi)
  rw [← h.in_flight] at hne
  have hne' : s.in_flight ≠ 0 := by exact_mod_cast hne
  omega

variable [DecidableEq ι] {max_in_flight : ℕ} {s : ServiceState ι} {i : ι}

variable {a : Account} {T : Target}

theorem update_lawful (h : ∀ j, (s.accounts j).Lawful) (ha : a.Lawful) (j : ι) :
    (update s.accounts i a j).Lawful := by
  by_cases hj : j = i
  · subst hj
    rw [update_self]
    exact ha
  · rw [update_of_ne hj]
    exact h j

/-- An operation on neither counter and neither tally. -/
theorem sound_same (h : s.Sound max_in_flight) {counters : Counters} (hlawful : a.Lawful)
    (hpermit : a.permit = (s.accounts i).permit) (hlive : a.live = (s.accounts i).live)
    (havailable : counters.available = s.available)
    (hin_flight : counters.in_flight = s.in_flight) :
    ServiceState.Sound max_in_flight ⟨counters, update s.accounts i a⟩ where
  permits := by
    rw [Accounts.tally_same Account.permit s.accounts i hpermit, havailable]
    exact h.permits
  in_flight := by
    rw [Accounts.tally_same Account.live s.accounts i hlive, hin_flight]
    exact h.in_flight
  lawful := update_lawful h.lawful hlawful

/-- A permit is taken. -/
theorem sound_acquire (h : s.Sound max_in_flight) (hlawful : (s.accounts i).Lawful)
    (hnot : (s.accounts i).admitted = false) (hsome : 0 < s.available) (ha : a.Lawful)
    (hpermit : a.permit = true) (hlive : a.live = (s.accounts i).live) :
    ServiceState.Sound max_in_flight
      ⟨{ s.toCounters with available := s.available - 1 }, update s.accounts i a⟩ where
  permits := by
    -- Who was never admitted has nothing to hold.
    have hwithout : (s.accounts i).permit = false := by
      have hbalance := hlawful.permit
      rw [hnot] at hbalance
      cases hp : (s.accounts i).permit with
      | false => rfl
      | true => simp [hp] at hbalance
    obtain ⟨n, hn⟩ : ∃ n, s.available = n + 1 := ⟨s.available - 1, by omega⟩
    have hpermits := h.permits
    rw [hn, Nat.cast_succ] at hpermits
    rw [Accounts.tally_gain Account.permit s.accounts i hwithout hpermit]
    show ((s.available - 1 : ℕ) : ℕ∞) + _ = _
    rw [hn, Nat.add_sub_cancel, ← hpermits, add_assoc, add_comm 1]
  in_flight := by
    rw [Accounts.tally_same Account.live s.accounts i hlive]
    exact h.in_flight
  lawful := update_lawful h.lawful ha

/-- A permit is given back. -/
theorem sound_release (h : s.Sound max_in_flight) (hhas : (s.accounts i).permit = true)
    (ha : a.Lawful) (hpermit : a.permit = false) (hlive : a.live = (s.accounts i).live) :
    ServiceState.Sound max_in_flight
      ⟨{ s.toCounters with available := s.available + 1 }, update s.accounts i a⟩ where
  permits := by
    have hpermits := h.permits
    rw [← Accounts.tally_lose Account.permit s.accounts i hhas hpermit] at hpermits
    show ((s.available + 1 : ℕ) : ℕ∞) + _ = _
    rw [← hpermits, Nat.cast_succ, add_assoc, add_comm 1]
  in_flight := by
    rw [Accounts.tally_same Account.live s.accounts i hlive]
    exact h.in_flight
  lawful := update_lawful h.lawful ha

/-- A completion is about to be made. -/
theorem sound_increment (hmax : max_in_flight ≤ T.usize_max / 8) (h : s.Sound max_in_flight)
    (hdead : (s.accounts i).live = false) (ha : a.Lawful) (hlive : a.live = true)
    (hpermit : a.permit = (s.accounts i).permit) :
    ServiceState.Sound max_in_flight
      ⟨{ s.toCounters with in_flight := (s.in_flight + 1) % (T.usize_max + 1) },
        update s.accounts i a⟩ where
  permits := by
    rw [Accounts.tally_same Account.permit s.accounts i hpermit]
    exact h.permits
  in_flight := by
    -- The counter is far from its end, as the semaphore has few permits.
    have hle := h.in_flight_le
    have hwide := T.u16_max_le_usize_max
    have hexact : (s.in_flight + 1) % (T.usize_max + 1) = s.in_flight + 1 :=
      Nat.mod_eq_of_lt (by omega)
    rw [Accounts.tally_gain Account.live s.accounts i hdead hlive, ← h.in_flight]
    show (((s.in_flight + 1) % (T.usize_max + 1) : ℕ) : ℕ∞) = _
    rw [hexact, Nat.cast_succ]
  lawful := update_lawful h.lawful ha

/-- A completion is dropped. -/
theorem sound_decrement (hmax : max_in_flight ≤ T.usize_max / 8) (h : s.Sound max_in_flight)
    (halive : (s.accounts i).live = true) (ha : a.Lawful) (hlive : a.live = false)
    (hpermit : a.permit = (s.accounts i).permit) :
    ServiceState.Sound max_in_flight
      ⟨{ s.toCounters with in_flight := (s.in_flight + T.usize_max) % (T.usize_max + 1) },
        update s.accounts i a⟩ where
  permits := by
    rw [Accounts.tally_same Account.permit s.accounts i hpermit]
    exact h.permits
  in_flight := by
    obtain ⟨n, hn⟩ : ∃ n, s.in_flight = n + 1 :=
      ⟨s.in_flight - 1, by have := h.in_flight_pos halive; omega⟩
    have hle := h.in_flight_le
    -- A subtraction that wraps is exact for a counter above zero.
    have hexact : (s.in_flight + T.usize_max) % (T.usize_max + 1) = n := by
      rw [hn, show n + 1 + T.usize_max = n + (T.usize_max + 1) by omega, Nat.add_mod_right]
      exact Nat.mod_eq_of_lt (by omega)
    have hcount := h.in_flight
    rw [hn, Nat.cast_succ, ← Accounts.tally_lose Account.live s.accounts i halive hlive] at hcount
    show (((s.in_flight + T.usize_max) % (T.usize_max + 1) : ℕ) : ℕ∞) = _
    rw [hexact]
    exact WithTop.add_right_cancel ENat.one_ne_top hcount
  lawful := update_lawful h.lawful ha

/-- Every allowed operation keeps the books. -/
theorem sound_next (hmax : max_in_flight ≤ T.usize_max / 8) {op : ServiceOp ρ β} {r : op.Answer}
    (h : s.Sound max_in_flight) (hallowed : (s.accounts i).Allowed op)
    (hgives : s.toCounters.Gives op r) :
    ServiceState.Sound max_in_flight
      ⟨s.toCounters.next T op r, update s.accounts i ((s.accounts i).next op r)⟩ := by
  have hlawful := (h.lawful i).next hallowed r
  cases op with
  | acquire_owned =>
    match r with
    | .ready (.ok _) => exact sound_acquire h (h.lawful i) hallowed hgives hlawful rfl rfl
    | .ready (.error _) | .dropped => exact sound_same h hlawful rfl rfl rfl rfl
  | release_permit => exact sound_release h hallowed.1 hlawful rfl rfl
  | fetch_add_in_flight => exact sound_increment hmax h hallowed.2.1 hlawful rfl rfl
  | fetch_sub_in_flight => exact sound_decrement hmax h hallowed hlawful rfl rfl
  | yielded answer =>
    match answer with
    | .Ready (some (.error _)) | .Ready (some (.ok _)) | .Ready none | .Pending =>
      exact sound_same h hlawful rfl rfl rfl rfl
  | _ => exact sound_same h hlawful rfl rfl rfl rfl

end Sound

/-! ## The programs keep to it

Each function of the source from the account it is called with to the account it leaves behind. No
word is said about the other requests. -/

/-- The requests of a service with so many permits. -/
def admissionAccounts (ι ρ β : Type) [DecidableEq ι] (T : Target) (admission : Semaphore T) :
    Accounts ι (ServiceState ι) (ServiceOp ρ β) ServiceOp.Answer Account where
  account := ServiceState.accounts
  sound := ServiceState.Sound admission.permits
  step := Performs T
  allowed a op := a.Allowed op
  next a op r a' := a.Told op r ∧ a' = a.next op r
  law := by
    rintro i s op r s' hsound hallowed ⟨htold, hgives, rfl⟩
    refine ⟨sound_next admission.permits_le hsound hallowed hgives, ⟨htold, ?_⟩, ?_⟩
    · exact update_self ..
    · exact fun j hj => update_of_ne hj ..

section Checks

variable {ι : Type} [DecidableEq ι] {T : Target} {admission : Semaphore T} {a : Account}
  {α : Type} {Q : α → Account → Prop}

/-- One operation. -/
theorem check_ask {op : ServiceOp ρ β} {k : op.Answer → ServiceM ρ β α} (hallowed : a.Allowed op)
    (hk : ∀ r, a.Told op r → (admissionAccounts ι ρ β T admission).Check Q (k r) (a.next op r)) :
    (admissionAccounts ι ρ β T admission).Check Q (ask op >>= k) a := by
  refine ⟨hallowed, ?_⟩
  rintro r a' ⟨htold, rfl⟩
  exact hk r htold

theorem check_pure {x : α} (h : Q x a) :
    (admissionAccounts ι ρ β T admission).Check Q (pure x) a := h

/-- The request holds its permit and its completion. -/
structure Account.Holds (a : Account) : Prop where
  admitted : a.admitted = true
  permit : a.permit = true
  live : a.live = true
  decremented : a.decremented = 0
  completed : a.completed = 0
  failed : a.failed = false

/-- The request holds nothing; what it was admitted for it has given back. -/
structure Account.Closed (a : Account) : Prop where
  permit : a.permit = false
  live : a.live = false
  decremented : a.decremented = a.admitted.toNat

/-- The completion is dropped. -/
def Account.dropped (a : Account) : Account :=
  { a with permit := false, live := false, decremented := a.decremented + 1,
           released := a.released + 1 }

theorem Account.Holds.closed (h : a.Holds) : a.dropped.Closed where
  permit := rfl
  live := rfl
  decremented := by
    show a.decremented + 1 = a.admitted.toNat
    rw [h.admitted, h.decremented]
    rfl

/-- The drop gives back what was taken. -/
theorem drop_check (completion : HttpRequestCompletion) (h : a.Holds) :
    (admissionAccounts ι ρ β T admission).Check (fun _ a' => a' = a.dropped) completion.drop a := by
  refine check_ask h.live ?_
  intro _ _
  refine ⟨⟨h.permit, rfl⟩, ?_⟩
  rintro _ a' ⟨-, rfl⟩
  rfl

/-- `HttpRequestCompletion::complete`, which is dropped at its end. -/
theorem complete_check (completion : HttpRequestCompletion) (h : a.Holds) :
    (admissionAccounts ι ρ β T admission).Check
      (fun _ a' => a' = { a.dropped with completed := 1 }) completion.complete a := by
  refine check_ask ⟨h.completed, h.failed⟩ ?_
  intro _ _
  refine check_ask h.live ?_
  intro _ _
  refine ⟨⟨h.permit, rfl⟩, ?_⟩
  rintro _ a' ⟨-, rfl⟩
  show ({ a.dropped with completed := a.completed + 1 } : Account) = _
  rw [h.completed]

/-- Where a call of the service ends: nothing is held, and one that returned an error has
not been completed. -/
structure Account.Settled (result : Awaited (Except Error α)) (a : Account) : Prop where
  closed : a.Closed
  failed : ∀ error, result = .ready (.error error) → a.completed = 0

/-- A request that was never admitted is settled, whatever it returns. -/
theorem Account.fresh_settled (result : Awaited (Except Error α)) :
    ({} : Account).Settled result :=
  ⟨⟨rfl, rfl, rfl⟩, fun _ _ => rfl⟩

/-- Where the body of a scope ends that still has its completion, or has used it up. -/
def Account.Scoped (x : Awaited (Except Error α) × Option HttpRequestCompletion) (a : Account) :
    Prop :=
  match x.2 with
  | some _ => a.Holds
  | none => a.Settled x.1

/-- A request whose completion is dropped is settled, whatever it returns. -/
theorem Account.Holds.settled (h : a.Holds) (result : Awaited (Except Error α)) :
    a.dropped.Settled result :=
  ⟨h.closed, fun _ _ => h.completed⟩

theorem drop_completion_check (x : Awaited (Except Error α) × Option HttpRequestCompletion)
    (h : a.Scoped x) :
    (admissionAccounts ι ρ β T admission).Check (fun _ a' => a'.Settled x.1)
      (drop_completion x.2) a := by
  obtain ⟨result, _ | completion⟩ := x
  · exact h
  · refine (drop_check completion h).mono ?_
    rintro _ a' rfl
    exact h.settled result

theorem Account.Holds.scoped (h : a.Holds) (result : Awaited (Except Error α))
    (completion : HttpRequestCompletion) : a.Scoped (result, some completion) := h

theorem handle_admitted_check (self : HttpService ρ) (request : HttpRequest) (started : ℕ)
    (tier : Cache.PackageTier) (workers_before : ℕ) (completion : HttpRequestCompletion)
    (h : a.Holds) :
    (admissionAccounts ι ρ β T admission).Check (fun x a' => a'.Scoped x)
      (handle_admitted self request started tier workers_before completion) a := by
  unfold handle_admitted
  split
  · exact check_pure (h.scoped _ completion)
  · refine check_ask trivial ?_
    intro id _
    refine check_ask trivial ?_
    intro response _
    match response with
    | .dropped => exact check_pure (h.scoped _ completion)
    | .ready (.error _) => exact check_pure (h.scoped _ completion)
    | .ready (.ok parts) =>
      refine check_ask trivial ?_
      intro body _
      match body with
      | .dropped => exact check_pure (h.scoped _ completion)
      | .ready (.error _) => exact check_pure (h.scoped _ completion)
      | .ready (.ok body) =>
        show (admissionAccounts ι ρ β T admission).Check _
          (if body.length > self.max_output_bytes then _ else _) _
        split
        · exact check_pure (h.scoped _ completion)
        · refine .bind (complete_check completion h) ?_
          rintro _ a' rfl
          refine check_ask trivial ?_
          intro now _
          refine check_ask trivial ?_
          intro workers_created _
          exact check_pure ⟨⟨rfl, rfl, h.closed.decremented⟩, fun _ h => by cases h⟩

/-- `HttpService::handle`, from a request that has done nothing yet. -/
theorem handle_check (self : HttpService ρ) (request : HttpRequest) :
    (admissionAccounts ι ρ β T admission).Check (fun result a => a.Settled result)
      (handle self request) {} := by
  have hfresh := Account.fresh_settled (α := HttpResponse)
  unfold handle
  split
  · exact check_pure (hfresh _)
  · refine check_ask rfl ?_
    intro permit _
    match permit with
    | .dropped => exact check_pure (hfresh _)
    | .ready (.error _) => exact check_pure (hfresh _)
    | .ready (.ok _) =>
      refine check_ask trivial ?_
      intro started _
      refine check_ask trivial ?_
      intro code _
      refine check_ask trivial ?_
      intro workers_before _
      refine check_ask ⟨rfl, rfl, rfl⟩ ?_
      intro _ _
      refine .bind
        (handle_admitted_check self request _ _ _ _ ⟨rfl, rfl, rfl, rfl, rfl, rfl⟩) ?_
      intro x a hx
      refine .bind (drop_completion_check x hx) ?_
      intro _ a ha
      exact ha

/-- A request whose body is with its owner: the completion is in the body, or the request has
been closed, and completed only if the body is at its end. -/
def Account.Streams (body : StreamingHttpBody) (a : Account) : Prop :=
  match body.completion with
  | some _ => a.Holds
  | none => a.Closed ∧ (a.completed = 0 ∨ a.ended = true)

variable {body : StreamingHttpBody}

/-- As long as the body may yield an error, the request has not been completed. -/
theorem Account.Streams.completed (h : a.Streams body) (hended : a.ended = false) :
    a.completed = 0 := by
  unfold Account.Streams at h
  split at h
  · exact h.completed
  · exact h.2.resolve_right (by simp [hended])

theorem Account.Streams.of_ended {ended : Bool} (h : a.Streams body)
    (hended : a.ended = true → ended = true) :
    ({ a with ended := ended } : Account).Streams body := by
  unfold Account.Streams at h ⊢
  split at h
  · exact ⟨h.admitted, h.permit, h.live, h.decremented, h.completed, h.failed⟩
  · exact ⟨⟨h.1.permit, h.1.live, h.1.decremented⟩, h.2.imp_right hended⟩

theorem drop_body_check (h : a.Streams body) :
    (admissionAccounts ι ρ β T admission).Check
      (fun _ a' => a'.Closed ∧ a'.completed = a.completed ∧ a'.ended = a.ended)
      (drop_completion body.completion) a := by
  unfold Account.Streams at h
  split at h
  · rename_i completion hcompletion
    rw [hcompletion]
    refine (drop_check completion h).mono ?_
    rintro _ a' rfl
    exact ⟨h.closed, rfl, rfl⟩
  · rename_i hcompletion
    rw [hcompletion]
    exact ⟨h.1, rfl, rfl⟩

/-- What a poll leaves behind: an error takes the completion, and is yielded only by a request
that has not been completed. -/
structure Account.Polled (x : FramePoll Error × StreamingHttpBody) (a : Account) : Prop where
  streams : a.Streams x.2
  failed : ∀ error, x.1 = .Ready (some (.error error)) → x.2.completion = none ∧ a.completed = 0

/-- The branches of `poll_frame` that take the completion and report an error. -/
theorem poll_failed_check (h : a.Streams body) (hended : a.ended = false) (remaining : ℕ)
    (error : Error) :
    (admissionAccounts ι ρ β T admission).Check (fun x a' => a'.Polled x)
      (drop_completion body.completion >>= fun _ =>
        pure (.Ready (some (.error error)),
          { body with remaining := remaining, completion := none })) a := by
  have hzero := h.completed hended
  refine .bind (drop_body_check h) ?_
  rintro _ a' ⟨hclosed, hcompleted, -⟩
  rw [hzero] at hcompleted
  exact ⟨⟨hclosed, .inl hcompleted⟩, fun _ _ => ⟨rfl, hcompleted⟩⟩

/-- A body that is not at its end has been polled, and still is not. -/
theorem Account.Streams.polled (h : a.Streams body) {answer : Except String Frame}
    (htold : a.Told (ServiceOp.poll_frame : ServiceOp ρ β) (.Ready (some answer))) :
    (a.next (ServiceOp.poll_frame : ServiceOp ρ β) (.Ready (some answer))).Streams body ∧
      (a.next (ServiceOp.poll_frame : ServiceOp ρ β) (.Ready (some answer))).ended = false := by
  have hended : a.ended = false := by
    cases he : a.ended with
    | false => rfl
    | true => rcases htold he with h | h <;> cases h
  refine ⟨h.of_ended fun he => ?_, ?_⟩
  · rw [he, Bool.true_or]
  · show (a.ended || decide (Poll.Ready (some answer) = .Ready none)) = false
    simp [hended]

/-- The branch of `poll_frame` for the end of the body. -/
theorem poll_end_check (h : a.Streams body) (hended : a.ended = true) :
    (admissionAccounts ι ρ β T admission).Check (fun x a' => a'.Polled x)
      (match body.completion with
        | some completion => completion.complete >>= fun _ =>
          pure (.Ready none, { body with completion := none })
        | none => pure (.Ready none, body)) a := by
  cases hcompletion : body.completion with
  | none => exact check_pure ⟨h, fun _ h => by cases h⟩
  | some completion =>
    have hholds : a.Holds := by
      unfold Account.Streams at h
      rw [hcompletion] at h
      exact h
    refine .bind (complete_check completion hholds) ?_
    rintro _ a' rfl
    exact check_pure ⟨⟨⟨rfl, rfl, hholds.closed.decremented⟩, .inr hended⟩, fun _ h => by cases h⟩

/-- The branch of `poll_frame` for a frame. -/
theorem poll_ok_check (h : a.Streams body) (hended : a.ended = false) (frame : Frame) :
    (admissionAccounts ι ρ β T admission).Check (fun x a' => a'.Polled x)
      (match frame.data_ref with
        | some data =>
          if data.length > body.remaining then
            drop_completion body.completion >>= fun _ =>
              pure (.Ready (some (.error (.Limit "output bytes"))),
                { body with remaining := 0, completion := none })
          else
            pure (.Ready (some (.ok frame)),
              { body with remaining := body.remaining - data.length })
        | none => pure (.Ready (some (.ok frame)), body)) a := by
  split
  · split
    · exact poll_failed_check h hended 0 _
    · exact check_pure ⟨h, fun _ h => by cases h⟩
  · exact check_pure ⟨h, fun _ h => by cases h⟩

/-- `StreamingHttpBody::poll_frame`. -/
theorem poll_frame_check (body : StreamingHttpBody) (h : a.Streams body) :
    (admissionAccounts ι ρ β T admission).Check (fun x a' => a'.Polled x) body.poll_frame a := by
  refine check_ask trivial ?_
  intro answer htold
  match answer with
  | .Pending =>
    exact check_pure ⟨h.of_ended fun he => by rw [he, Bool.true_or], fun _ h => by cases h⟩
  | .Ready none => exact poll_end_check (h.of_ended fun _ => Bool.or_true _) (Bool.or_true _)
  | .Ready (some (.error error)) =>
    obtain ⟨hstreams, hended⟩ := h.polled htold
    exact poll_failed_check hstreams hended body.remaining _
  | .Ready (some (.ok frame)) =>
    obtain ⟨hstreams, hended⟩ := h.polled htold
    exact poll_ok_check hstreams hended frame

theorem streaming_body_check (max_output_bytes : ℕ) (metadata : HttpDispatchMetadata)
    (completion : HttpRequestCompletion) (h : a.Holds) :
    (admissionAccounts ι ρ β T admission).Check (fun body a' => a'.Streams body)
      (streaming_body max_output_bytes metadata completion) a := by
  refine check_ask trivial ?_
  intro ended _
  have hholds : (a.next (ServiceOp.is_end_stream : ServiceOp ρ β) ended).Holds :=
    ⟨h.admitted, h.permit, h.live, h.decremented, h.completed, h.failed⟩
  cases ended with
  | true =>
    refine .bind (complete_check completion hholds) ?_
    rintro _ a' rfl
    exact ⟨⟨rfl, rfl, hholds.closed.decremented⟩, .inr (Bool.or_true _)⟩
  | false => exact hholds

/-- Where `handle_streaming` ends: with a body in its owner's hands, or settled. -/
def Account.Answered (result : Awaited (Except Error (Parts × StreamingHttpBody))) (a : Account) :
    Prop :=
  match result with
  | .ready (.ok (_, body)) => a.Streams body
  | _ => a.Settled result

/-- The scope of `handle_streaming` is left without a response. -/
theorem streaming_failed_check (completion : HttpRequestCompletion) (h : a.Holds)
    {result : Awaited (Except Error (Parts × StreamingHttpBody))}
    (hresult : ∀ response, result ≠ .ready (.ok response)) :
    (admissionAccounts ι ρ β T admission).Check (fun result a' => a'.Answered result)
      (completion.drop >>= fun _ => pure result) a := by
  refine .bind (drop_check completion h) ?_
  rintro _ a' rfl
  match result with
  | .dropped => exact h.settled _
  | .ready (.error _) => exact h.settled _
  | .ready (.ok response) => exact absurd rfl (hresult response)

/-- `HttpService::handle_streaming`. -/
theorem handle_streaming_check (self : HttpService ρ) (request : StreamingRequest β) :
    (admissionAccounts ι ρ β T admission).Check (fun result a => a.Answered result)
      (handle_streaming self request) {} := by
  have hfresh := Account.fresh_settled (α := Parts × StreamingHttpBody)
  refine check_ask trivial ?_
  intro started _
  refine check_ask trivial ?_
  intro code _
  show (admissionAccounts ι ρ β T admission).Check _ (if _ ∨ _ then _ else _) _
  split
  · exact check_pure (hfresh _)
  · refine check_ask rfl ?_
    intro permit _
    match permit with
    | .dropped => exact check_pure (hfresh _)
    | .ready (.error _) => exact check_pure (hfresh _)
    | .ready (.ok _) =>
      refine check_ask ⟨rfl, rfl, rfl⟩ ?_
      intro _ _
      refine check_ask trivial ?_
      intro workers_before _
      refine check_ask trivial ?_
      intro id _
      refine check_ask trivial ?_
      intro response _
      match response with
      | .dropped => exact streaming_failed_check {} ⟨rfl, rfl, rfl, rfl, rfl, rfl⟩ nofun
      | .ready (.error _) =>
        exact streaming_failed_check {} ⟨rfl, rfl, rfl, rfl, rfl, rfl⟩ nofun
      | .ready (.ok parts) =>
        refine check_ask trivial ?_
        intro workers_created _
        refine check_ask trivial ?_
        intro now _
        refine .bind
          (streaming_body_check _ _ {} ⟨rfl, rfl, rfl, rfl, rfl, rfl⟩) ?_
        intro body a hbody
        exact hbody

/-! ## Every run

A request is its call, and then the polls of its body one by one. Between them its account is at
rest, and `Accounts.run` does the rest. -/

/-- What holds where a request is over, and where its owner has the body. -/
abbrev Rests : Option HttpBlock → Account → Prop :=
  Tasks.Post Account.Closed fun b a => match b with
    | .streaming body => a.Streams body

/-- The result is reported, and the request is over. -/
theorem returned_check (failed : Bool) (hclosed : a.Closed)
    (hfailed : failed = true → a.completed = 0) :
    (admissionAccounts ι ρ β T admission).Check Rests
      (ask (.returned failed) >>= fun _ => pure none) a := by
  refine check_ask ?_ ?_
  · cases failed with
    | true => exact hfailed rfl
    | false => trivial
  · intro _ _
    exact ⟨hclosed.permit, hclosed.live, hclosed.decremented⟩

/-- Every call, from nothing. -/
theorem call_check (self : HttpService ρ) (call : HttpCall β) :
    (admissionAccounts ι ρ β T admission).Check Rests (call.program self) {} := by
  cases call with
  | handle request =>
    refine .bind (handle_check self request) ?_
    intro result a ha
    match result with
    | .dropped => exact ha.closed
    | .ready (.error error) =>
      exact returned_check true ha.closed fun _ => ha.failed error rfl
    | .ready (.ok _) => exact returned_check false ha.closed nofun
  | handle_streaming request =>
    refine .bind (handle_streaming_check self request) ?_
    intro result a ha
    match result with
    | .dropped => exact ha.closed
    | .ready (.error error) =>
      exact returned_check true ha.closed fun _ => ha.failed error rfl
    | .ready (.ok (parts, body)) =>
      refine check_ask trivial ?_
      intro _ _
      have hsame : a.next (.returned false : ServiceOp ρ β) () = a := by
        rw [Account.next, Bool.or_false]
      rw [hsame]
      exact ha

/-- The answer of a poll is reported. -/
theorem yielded_check {x : FramePoll Error × StreamingHttpBody} (h : a.Polled x) :
    (admissionAccounts ι ρ β T admission).Check Rests
      (ask (.yielded x.1) >>= fun _ => pure (some (.streaming x.2))) a := by
  obtain ⟨answer, body⟩ := x
  match answer with
  | .Ready (some (.error error)) =>
    obtain ⟨hcompletion, hzero⟩ := h.failed error rfl
    refine check_ask hzero ?_
    intro _ _
    have hstreams := h.streams
    unfold Account.Streams at hstreams
    rw [hcompletion] at hstreams
    show Account.Streams body _
    unfold Account.Streams
    rw [hcompletion]
    exact ⟨⟨hstreams.1.permit, hstreams.1.live, hstreams.1.decremented⟩, hstreams.2⟩
  | .Ready (some (.ok _)) | .Ready none | .Pending =>
    exact check_ask trivial fun _ _ => h.streams

/-- Every block, from what the last one left. -/
theorem block_check (b : HttpBlock) (h : Rests (some b) a) :
    (admissionAccounts ι ρ β T admission).Check Rests b.program a := by
  obtain ⟨body⟩ := b
  refine check_ask trivial ?_
  intro owner _
  cases owner with
  | drop =>
    refine .bind (drop_body_check h) ?_
    rintro _ a' ⟨hclosed, -, -⟩
    exact hclosed
  | poll =>
    refine .bind (poll_frame_check body h) ?_
    intro x a' hx
    exact yielded_check hx

end Checks

/-- In every interleaving of any number of requests, at every step: `in_flight` is the number
of live completions and at most the number of permits, and a decrement finds it positive; no
request decrements, releases its permit or completes twice; none of which a caller was told an
error completes; and one that is over, having been admitted, has decremented and released
once. -/
theorem admission_accounting {ι : Type} [DecidableEq ι] {T : Target} (self : HttpService ρ)
    (admission : Semaphore T) (calls : ι → HttpCall β) (S : HttpTasks ι ρ β)
    (hrun : HttpTasks.Run T (.start self admission calls) S) :
    ((S.state.in_flight : ℕ∞) = {i | (S.state.accounts i).live = true}.encard ∧
      S.state.in_flight ≤ admission.permits ∧
      ∀ i k, S.threads i = .vis .fetch_sub_in_flight k → 0 < S.state.in_flight) ∧
    ∀ i, (S.state.accounts i).decremented ≤ 1 ∧ (S.state.accounts i).released ≤ 1 ∧
      (S.state.accounts i).completed ≤ 1 ∧
      ((S.state.accounts i).failed = true → (S.state.accounts i).completed = 0) ∧
      (S.threads i = pure none →
        (S.state.accounts i).decremented = (S.state.accounts i).admitted.toNat ∧
        (S.state.accounts i).released = (S.state.accounts i).admitted.toNat) := by
  have hstart : (ServiceState.new admission : ServiceState ι).Sound admission.permits := by
    refine ⟨?_, ?_, fun _ => ⟨rfl, Nat.zero_le _, nofun, Nat.zero_le _, nofun⟩⟩
    · simp [ServiceState.new, Accounts.tally]
    · simp [ServiceState.new, Accounts.tally]
  obtain ⟨hsound, hcheck⟩ := Accounts.run (L := admissionAccounts ι ρ β T admission)
    (T := HttpTasks.start self admission calls) (fun _ _ _ => False.elim)
    (fun b a => block_check b) hstart
    (fun i => call_check self (calls i)) hrun
  refine ⟨⟨hsound.in_flight, hsound.in_flight_le, ?_⟩, fun i => ?_⟩
  · intro i k hi
    have hthis := hcheck i
    rw [hi] at hthis
    exact hsound.in_flight_pos hthis.1
  · obtain ⟨hpermit, hlive, -, hcompleted, hfailed⟩ := hsound.lawful i
    have hadmitted := Bool.toNat_le (S.state.accounts i).admitted
    refine ⟨by omega, by omega, hcompleted, hfailed, fun hi => ?_⟩
    have hthis := hcheck i
    rw [hi] at hthis
    have hclosed : (S.state.accounts i).Closed := hthis
    -- What was acquired is held or given back, and a closed account holds nothing.
    rw [hclosed.permit] at hpermit
    refine ⟨hclosed.decremented, ?_⟩
    simpa using hpermit

/-- A handler that answers every request, as it would with an empty response. Who asks for a
permit waits until there is one. -/
def answering {ι : Type} [DecidableEq ι] (T : Target) (i : ι) (s : ServiceState ι)
    (op : ServiceOp Unit Unit) : Option (op.Answer × ServiceState ι) :=
  let answer : Option op.Answer := match op with
    | .acquire_owned => if 0 < s.available then some (.ready (.ok ())) else none
    | .load_workers_created | .load_package_tier | .now => some 0
    | .fetch_add_next_request => some s.next_request
    | .handle _ _ => some (.ready (.ok ⟨200, []⟩))
    | .collect => some (.ready (.ok []))
    | .is_end_stream => some true
    | .poll_frame => some (.Ready none)
    | .owner => some .drop
    | .release_permit | .fetch_add_in_flight | .fetch_sub_in_flight | .fetch_add_completed
    | .returned _ | .yielded _ => some ()
  answer.map fun r =>
    (r, ⟨s.toCounters.next T op r, update s.accounts i ((s.accounts i).next op r)⟩)

theorem answering_performs {ι : Type} [DecidableEq ι] {T : Target} (i : ι) (s : ServiceState ι)
    (op : ServiceOp Unit Unit) (r : op.Answer) (s' : ServiceState ι)
    (h : answering T i s op = some (r, s')) : Performs T i s op r s' := by
  obtain ⟨r, hr, h⟩ := Option.map_eq_some_iff.mp h
  obtain ⟨rfl, rfl⟩ := Prod.mk.inj h
  refine ⟨?_, ?_, rfl⟩
  · cases op with
    | poll_frame => exact fun _ => .inr (Option.some.inj hr).symm
    | _ => trivial
  · cases op with
    | acquire_owned =>
      by_cases hfree : 0 < s.available
      · simp only [hfree, if_true] at hr
        cases hr
        exact hfree
      · simp only [hfree, if_false] at hr
        cases hr
    | fetch_add_next_request => exact (Option.some.inj hr).symm
    | _ => trivial

/-- A target with pointers of 64 bits. -/
def target64 : Target where
  usize_bits := 64
  little_endian := true
  build_target := "x86_64-unknown-linux-gnu"
  usize_bits_mem := usize_bits_64
  build_target_short := linux_gnu_short

/-- A service with two permits. -/
def twoAtATime : Semaphore target64 := ⟨2, by decide⟩

/-- Three requests to it, of which the second streams its response. -/
def threeRequests : HttpTasks (Fin 3) Unit Unit :=
  .start ⟨16, 16, fun _ => .ok ()⟩ twoAtATime fun i =>
    if i.val = 1 then .handle_streaming ⟨⟨0, some 0⟩, ()⟩ else .handle ⟨"GET", "/", [], []⟩

/-- Two of them are in flight at once, and the third waits. When all have run to their ends, each
has given back what it took, once. -/
theorem admission_accounting_three : ∃ S S', HttpTasks.Run target64 threeRequests S ∧
    {i | (S.state.accounts i).live = true}.encard = 2 ∧ (S.state.accounts 2).admitted = false ∧
    HttpTasks.Run target64 S S' ∧ S'.state.completed_requests = 3 ∧
    {i | (S'.state.accounts i).live = true}.encard = 0 ∧
    ∀ i, (S'.state.accounts i).decremented = 1 ∧ (S'.state.accounts i).released = 1 := by
  have hcomputed : ((Tasks.follow (answering target64) HttpBlock.program threeRequests
      (List.replicate 5 0 ++ List.replicate 5 1)).bind fun S =>
        (Tasks.follow (answering target64) HttpBlock.program S
          (List.replicate 8 0 ++ List.replicate 12 2 ++ List.replicate 8 1)).map fun S' =>
            (S, S')).map (fun (S, S') =>
      (S.state.in_flight, (S.state.accounts 2).admitted, S'.state.completed_requests,
        S'.state.in_flight, decide (∀ i, (S'.state.accounts i).decremented = 1 ∧
          (S'.state.accounts i).released = 1))) = some (2, false, 3, 0, true) := by
    decide +kernel
  obtain ⟨⟨S, S'⟩, hfollow, hcomputed⟩ := Option.map_eq_some_iff.mp hcomputed
  obtain ⟨S, hfirst, hrest⟩ := Option.bind_eq_some_iff.mp hfollow
  obtain ⟨S', hlast, hpair⟩ := Option.map_eq_some_iff.mp hrest
  obtain ⟨rfl, rfl⟩ := Prod.mk.inj hpair
  obtain ⟨htwo, hcomputed⟩ := Prod.mk.inj hcomputed
  obtain ⟨hwaits, hcomputed⟩ := Prod.mk.inj hcomputed
  obtain ⟨hthree, hcomputed⟩ := Prod.mk.inj hcomputed
  obtain ⟨hnone, hback⟩ := Prod.mk.inj hcomputed
  have hrun : HttpTasks.Run target64 threeRequests S := Tasks.follow_run answering_performs hfirst
  have hrun' : HttpTasks.Run target64 S S' := Tasks.follow_run answering_performs hlast
  obtain ⟨⟨hlive, -⟩, -⟩ := admission_accounting _ twoAtATime _ S hrun
  obtain ⟨⟨hlive', -⟩, -⟩ := admission_accounting _ twoAtATime _ S' (hrun.trans hrun')
  refine ⟨S, S', hrun, ?_, hwaits, hrun', hthree, ?_, of_decide_eq_true hback⟩
  · rw [← hlive, htwo]
    rfl
  · rw [← hlive', hnone]
    rfl

end WasmRuntime.Http
