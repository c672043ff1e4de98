/-
Bounded output capture: `wasix_output.rs`.

A worker hands the guest two sinks, one for standard output and one for standard error, and keeps a
clone of each. The clones of a sink share one state behind a mutex, every call takes the mutex at
most once, and none is ever pending; so the calls that are made on a sink, from whatever threads and
through whatever clones, come one after the other, and what there is to say about the sink is about
sequences of calls.
-/
import WasmRuntime.CheckpointCodec

set_option autoImplicit false

namespace WasmRuntime.Output

open Exec

variable {T : Target}

/-! ## The sink

The allocator is a parameter, as in the checkpoint codec: `new` and `finish` ask it once each, and a
request that it refuses is the one other way in which `finish` fails. The room for the bytes is
reserved by `new`, so a write allocates nothing. -/

/-- `std::io::Error`, as the sink makes it. -/
inductive IoError where
  | BrokenPipe
  | OutOfMemory (message : String)
  | Other (message : String)
  deriving DecidableEq, Repr

def output_limit_error (limit : ℕ) : IoError :=
  .Other ("WASIX output exceeded its " ++ toString limit ++ "-byte capture limit")

def output_allocation_error (error : String) : IoError :=
  .OutOfMemory ("failed to allocate WASIX output capture: " ++ error)

/-- `OutputState`. The limit is a `usize`. -/
structure OutputState (T : Target) where
  bytes : Bytes
  limit : ℕ
  overflowed : Bool
  closed : Bool
  limit_le : limit ≤ T.usize_max
  deriving DecidableEq

namespace OutputState

/-- The state that `BoundedWasixOutput::new` makes. -/
def opened (limit : ℕ) (h : limit ≤ T.usize_max) : OutputState T :=
  ⟨[], limit, false, false, h⟩

/-- `BoundedWasixOutput::new`. -/
def new (try_reserve_exact : ℕ → Except String Unit) (limit : ℕ) (h : limit ≤ T.usize_max) :
    Except IoError (OutputState T) :=
  match try_reserve_exact limit with
  | .error error => .error (output_allocation_error error)
  | .ok () => .ok (opened limit h)

/-- `BoundedWasixOutput::finish`. -/
def finish (try_reserve_exact : ℕ → Except String Unit) (self : OutputState T) :
    Except IoError Bytes :=
  if self.overflowed then .error (output_limit_error self.limit)
  else
    match try_reserve_exact self.bytes.length with
    | .error error => .error (output_allocation_error error)
    | .ok () => .ok self.bytes

/-- What the two ways of writing have in common, once the number of bytes is known: the checks,
and `extend`, which appends the bytes. -/
def append (self : OutputState T) (write_len : ℕ) (extend : Bytes → Bytes) :
    Except IoError ℕ × OutputState T :=
  if self.closed then (.error .BrokenPipe, self)
  else if self.overflowed then (.error (output_limit_error self.limit), self)
  else
    match checkedAdd T.usize_max self.bytes.length write_len with
    | none => (.error (output_limit_error self.limit), { self with overflowed := true })
    | some new_len =>
      if new_len > self.limit then
        (.error (output_limit_error self.limit), { self with overflowed := true })
      else (.ok write_len, { self with bytes := extend self.bytes })

/-- `AsyncWrite::poll_write`. -/
def poll_write (self : OutputState T) (buffer : Bytes) : Except IoError ℕ × OutputState T :=
  if buffer.isEmpty then (.ok 0, self)
  else self.append buffer.length fun bytes => bytes ++ buffer

/-- `AsyncWrite::poll_write_vectored`. A total that is no `usize` marks the sink as overflowed,
closed or not. -/
def poll_write_vectored (self : OutputState T) (buffers : List Bytes) :
    Except IoError ℕ × OutputState T :=
  match buffers.foldlM
      (fun total buffer => checkedAdd T.usize_max total buffer.length) 0 with
  | none => (.error (output_limit_error self.limit), { self with overflowed := true })
  | some write_len =>
    if write_len = 0 then (.ok 0, self)
    else self.append write_len fun bytes =>
      buffers.foldl (fun bytes buffer => bytes ++ buffer) bytes

/-- `AsyncWrite::poll_flush`. -/
def poll_flush (self : OutputState T) : Except IoError Unit × OutputState T := (.ok (), self)

/-- `AsyncWrite::poll_shutdown`. -/
def poll_shutdown (self : OutputState T) : Except IoError Unit × OutputState T :=
  (.ok (), { self with closed := true })

/-- `VirtualFile::poll_write_ready`. The subtraction panics when it underflows. -/
def poll_write_ready (self : OutputState T) : Exec IoError ℕ :=
  if self.closed then .err .BrokenPipe
  else if self.overflowed then .err (output_limit_error self.limit)
  else if self.bytes.length ≤ self.limit then .ok (self.limit - self.bytes.length)
  else .panic

/-! ## One write

Three conditions of the state can refuse a write: the sink is closed, it has overflowed, the bytes
do not fit. The first two stay once they hold. -/

/-- The sink takes nothing any more. -/
def Refusing (self : OutputState T) : Prop := self.closed = true ∨ self.overflowed = true

theorem not_refusing {self : OutputState T} (h : ¬ self.Refusing) :
    self.closed = false ∧ self.overflowed = false := by
  unfold Refusing at h
  rw [not_or, Bool.not_eq_true, Bool.not_eq_true] at h
  exact h

/-- A sink that refuses stays as it is. -/
theorem append_refusing {self : OutputState T} (h : self.Refusing) (write_len : ℕ)
    (extend : Bytes → Bytes) :
    ∃ error, self.append write_len extend = (.error error, self) := by
  unfold append
  by_cases hclosed : self.closed = true
  · exact ⟨.BrokenPipe, if_pos hclosed⟩
  · have hover : self.overflowed = true := h.resolve_left hclosed
    refine ⟨output_limit_error self.limit, ?_⟩
    rw [if_neg hclosed, if_pos hover]

/-- Bytes that fit are taken whole. -/
theorem append_fits {self : OutputState T} (h : ¬ self.Refusing) {write_len : ℕ}
    (hfits : self.bytes.length + write_len ≤ self.limit) (extend : Bytes → Bytes) :
    self.append write_len extend = (.ok write_len, { self with bytes := extend self.bytes }) := by
  obtain ⟨hclosed, hover⟩ := not_refusing h
  unfold append
  rw [hclosed, hover, checkedAdd_of_le (hfits.trans self.limit_le)]
  exact if_neg (not_lt.mpr hfits)

/-- Whether the sum is no `usize` or only beyond the limit makes no difference. -/
theorem append_over {self : OutputState T} (h : ¬ self.Refusing) {write_len : ℕ}
    (hover : self.limit < self.bytes.length + write_len) (extend : Bytes → Bytes) :
    self.append write_len extend
      = (.error (output_limit_error self.limit), { self with overflowed := true }) := by
  obtain ⟨hclosed, hoverflowed⟩ := not_refusing h
  unfold append
  rw [hclosed, hoverflowed]
  by_cases hsum : self.bytes.length + write_len ≤ T.usize_max
  · rw [checkedAdd_of_le hsum]
    exact if_pos hover
  · rw [checkedAdd_of_gt (not_le.mp hsum)]
    rfl

/-- The fold over the lengths. -/
theorem foldlM_lengths (max : ℕ) (buffers : List Bytes) (total : ℕ)
    (h : total + buffers.flatten.length ≤ max) :
    buffers.foldlM (fun total buffer => checkedAdd max total buffer.length) total
      = some (total + buffers.flatten.length) := by
  induction buffers generalizing total with
  | nil => rfl
  | cons buffer rest ih =>
    rw [List.flatten_cons, List.length_append] at h ⊢
    rw [List.foldlM_cons, checkedAdd_of_le (by omega), Option.bind_eq_bind,
      Option.bind_some, ih _ (by omega), Nat.add_assoc]

theorem foldl_append (buffers : List Bytes) (bytes : Bytes) :
    buffers.foldl (fun bytes buffer => bytes ++ buffer) bytes = bytes ++ buffers.flatten := by
  induction buffers generalizing bytes with
  | nil => rw [List.foldl_nil, List.flatten_nil, List.append_nil]
  | cons buffer rest ih => rw [List.foldl_cons, ih, List.flatten_cons, List.append_assoc]

/-- A vectored write is a write of the buffers joined. -/
theorem poll_write_vectored_eq (self : OutputState T) {buffers : List Bytes}
    (h : buffers.flatten.length ≤ T.usize_max) :
    self.poll_write_vectored buffers = self.poll_write buffers.flatten := by
  unfold poll_write_vectored poll_write
  rw [foldlM_lengths _ _ 0 (by rwa [Nat.zero_add]), Nat.zero_add]
  by_cases hempty : buffers.flatten = []
  · rw [hempty]
    rfl
  · have hlength : ¬ buffers.flatten.length = 0 := fun h => hempty (List.length_eq_zero_iff.mp h)
    have hisEmpty : ¬ buffers.flatten.isEmpty = true := fun h => hempty (List.isEmpty_iff.mp h)
    simp only [if_neg hlength, if_neg hisEmpty, foldl_append]

/-- The three outcomes of a write of some bytes: refused, taken whole, or the one that the limit
turns away. -/
theorem poll_write_cases (self : OutputState T) {buffer : Bytes} (hne : buffer ≠ []) :
    (self.Refusing ∧ ∃ error, self.poll_write buffer = (.error error, self)) ∨
    (¬ self.Refusing ∧ self.bytes.length + buffer.length ≤ self.limit ∧
      self.poll_write buffer
        = (.ok buffer.length, { self with bytes := self.bytes ++ buffer })) ∨
    (¬ self.Refusing ∧ self.limit < self.bytes.length + buffer.length ∧
      self.poll_write buffer
        = (.error (output_limit_error self.limit), { self with overflowed := true })) := by
  have hisEmpty : ¬ buffer.isEmpty = true := fun h => hne (List.isEmpty_iff.mp h)
  unfold poll_write
  rw [if_neg hisEmpty]
  by_cases hrefusing : self.Refusing
  · exact Or.inl ⟨hrefusing, append_refusing hrefusing _ _⟩
  · by_cases hfits : self.bytes.length + buffer.length ≤ self.limit
    · exact Or.inr (Or.inl ⟨hrefusing, hfits, append_fits hrefusing hfits _⟩)
    · have hover := not_le.mp hfits
      exact Or.inr (Or.inr ⟨hrefusing, hover, append_over hrefusing hover _⟩)

theorem poll_write_nil (self : OutputState T) : self.poll_write [] = (.ok 0, self) := rfl

end OutputState

/-! ## Sequences of calls

`kept` knows nothing of a state: the sink keeps the writes that were issued before the first
shutdown up to the first that does not fit. -/

/-- The calls that change a sink or might. The total length of the buffers of a vectored write is
a `usize`. -/
inductive Call (T : Target) where
  | write (buffer : Bytes)
  | write_vectored (buffers : List Bytes) (fits : buffers.flatten.length ≤ T.usize_max)
  | flush
  | shutdown

/-- The state after a call. -/
def Call.step : Call T → OutputState T → OutputState T
  | .write buffer, self => (self.poll_write buffer).2
  | .write_vectored buffers _, self => (self.poll_write_vectored buffers).2
  | .flush, self => self.poll_flush.2
  | .shutdown, self => self.poll_shutdown.2

/-- The bytes that a call is to write. -/
def Call.data : Call T → Option Bytes
  | .write buffer => some buffer
  | .write_vectored buffers _ => some buffers.flatten
  | .flush => none
  | .shutdown => none

/-- The state after a sequence of calls. -/
def OutputState.run (self : OutputState T) (calls : List (Call T)) : OutputState T :=
  calls.foldl (fun state call => call.step state) self

/-- The writes that were issued before the first shutdown, with their bytes joined. -/
def issued : List (Call T) → List Bytes
  | [] => []
  | .write buffer :: rest => buffer :: issued rest
  | .write_vectored buffers _ :: rest => buffers.flatten :: issued rest
  | .flush :: rest => issued rest
  | .shutdown :: _ => []

/-- Some call is a shutdown. -/
def shuts : List (Call T) → Bool
  | [] => false
  | .shutdown :: _ => true
  | _ :: rest => shuts rest

theorem shuts_write (buffer : Bytes) (rest : List (Call T)) :
    shuts (.write buffer :: rest) = shuts rest := rfl

theorem shuts_write_vectored (buffers : List Bytes)
    (fits : buffers.flatten.length ≤ T.usize_max) (rest : List (Call T)) :
    shuts (.write_vectored buffers fits :: rest) = shuts rest := rfl

/-- What is left of a list of writes when there is room for so many bytes: those before the first
that does not fit. -/
def kept (room : ℕ) : List Bytes → Bytes
  | [] => []
  | buffer :: rest =>
    if buffer.length ≤ room then buffer ++ kept (room - buffer.length) rest else []

/-- Every write of the list fits into the room that those before it leave. -/
def Fit (room : ℕ) (writes : List Bytes) : Prop :=
  ∀ before buffer after, writes = before ++ buffer :: after → buffer ≠ [] →
    before.flatten.length + buffer.length ≤ room

/-- No more is kept than there is room for. -/
theorem kept_length_le (room : ℕ) (writes : List Bytes) : (kept room writes).length ≤ room := by
  induction writes generalizing room with
  | nil => exact Nat.zero_le _
  | cons buffer rest ih =>
    unfold kept
    by_cases hfits : buffer.length ≤ room
    · rw [if_pos hfits, List.length_append]
      have := ih (room - buffer.length)
      omega
    · rw [if_neg hfits]
      exact Nat.zero_le _

/-- All writes fit when their bytes do together. -/
theorem fit_iff (room : ℕ) (writes : List Bytes) :
    Fit room writes ↔ writes.flatten.length ≤ room := by
  constructor
  · intro h
    -- The last write with any bytes is the one that shows it.
    induction writes using List.reverseRecOn with
    | nil => exact Nat.zero_le _
    | append_singleton init last ih =>
      rw [List.flatten_append, List.length_append, List.flatten_singleton]
      by_cases hne : last = []
      · have hinit : Fit room init := by
          intro before buffer after heq
          apply h before buffer (after ++ [last])
          rw [heq, List.append_assoc, List.cons_append]
        rw [hne, List.length_nil, Nat.add_zero]
        exact ih hinit
      · exact h init last [] rfl hne
  · intro h before buffer after heq _
    rw [heq, List.flatten_append, List.flatten_cons, List.length_append, List.length_append] at h
    omega

/-- All is kept if all fits. -/
theorem kept_of_fit {room : ℕ} {writes : List Bytes} (h : writes.flatten.length ≤ room) :
    kept room writes = writes.flatten := by
  induction writes generalizing room with
  | nil => rfl
  | cons buffer rest ih =>
    rw [List.flatten_cons, List.length_append] at h
    rw [kept, if_pos (by omega), ih (by omega), List.flatten_cons]

/-! ## What a run leaves

By induction on the calls, as long as nothing is refused; then nothing changes any more. -/

namespace OutputState

/-- The effect of a vectored write is that of a write. -/
theorem step_write_vectored (self : OutputState T) (buffers : List Bytes)
    (fits : buffers.flatten.length ≤ T.usize_max) :
    (Call.write_vectored buffers fits).step self = (Call.write buffers.flatten).step self := by
  simp only [Call.step, poll_write_vectored_eq self fits]

theorem step_write_refusing {self : OutputState T} (h : self.Refusing) (buffer : Bytes) :
    (Call.write buffer).step self = self := by
  rw [Call.step]
  by_cases hne : buffer = []
  · rw [hne, poll_write_nil]
  · rcases poll_write_cases self hne with ⟨-, error, heq⟩ | ⟨hnot, -⟩ | ⟨hnot, -⟩
    · rw [heq]
    · exact absurd h hnot
    · exact absurd h hnot

/-- A sink that refuses goes on refusing, and a call can only close it. -/
theorem run_refusing (calls : List (Call T)) :
    ∀ self : OutputState T, self.Refusing →
      self.run calls = { self with closed := self.closed || shuts calls } := by
  induction calls with
  | nil =>
    intro self _
    rw [shuts, Bool.or_false]
    rfl
  | cons call rest ih =>
    intro self h
    have hrun : self.run (call :: rest) = (call.step self).run rest := rfl
    rw [hrun]
    cases call with
    | write buffer => rw [step_write_refusing h, ih self h, shuts_write]
    | write_vectored buffers fits =>
      rw [step_write_vectored, step_write_refusing h, ih self h, shuts_write_vectored]
    | flush => exact ih self h
    | shutdown =>
      have hclosed : Refusing ((Call.shutdown (T := T)).step self) := Or.inl rfl
      rw [ih _ hclosed, shuts, Bool.or_true]
      rfl

/-- The sink with the writes of a list kept as far as there is room, and closed or not. -/
def left (self : OutputState T) (writes : List Bytes) (closed : Bool) : OutputState T :=
  { self with
    bytes := self.bytes ++ kept (self.limit - self.bytes.length) writes
    overflowed := decide (self.limit < self.bytes.length + writes.flatten.length)
    closed := closed }

theorem left_nil {self : OutputState T} (h : ¬ self.Refusing)
    (hlen : self.bytes.length ≤ self.limit) (closed : Bool) :
    self.left [] closed = { self with closed := closed } := by
  obtain ⟨-, hover⟩ := not_refusing h
  have hle : ¬ self.limit < self.bytes.length + ([] : List Bytes).flatten.length :=
    not_lt.mpr hlen
  rw [left, decide_eq_false hle, kept, List.append_nil, ← hover]

theorem left_fits {self : OutputState T} {buffer : Bytes}
    (hfits : self.bytes.length + buffer.length ≤ self.limit) (rest : List Bytes) (closed : Bool) :
    self.left (buffer :: rest) closed
      = left { self with bytes := self.bytes ++ buffer } rest closed := by
  rw [left, kept, if_pos (by omega)]
  simp only [left, List.flatten_cons, List.length_append, List.append_assoc, Nat.sub_sub,
    Nat.add_assoc]

theorem left_over {self : OutputState T} {buffer : Bytes}
    (hover : self.limit < self.bytes.length + buffer.length)
    (hlen : self.bytes.length ≤ self.limit) (rest : List Bytes) (closed : Bool) :
    self.left (buffer :: rest) closed = { self with overflowed := true, closed := closed } := by
  have hlt : self.limit < self.bytes.length + (buffer :: rest).flatten.length := by
    rw [List.flatten_cons, List.length_append]
    omega
  rw [left, kept, if_neg (by omega), List.append_nil, decide_eq_true hlt]

/-- What a run leaves of a sink that refuses nothing yet. -/
theorem run_eq (calls : List (Call T)) :
    ∀ self : OutputState T, ¬ self.Refusing → self.bytes.length ≤ self.limit →
      self.run calls = self.left (issued calls) (shuts calls) := by
  induction calls with
  | nil =>
    intro self h hlen
    obtain ⟨hclosed, -⟩ := not_refusing h
    rw [issued, shuts, left_nil h hlen, ← hclosed]
    rfl
  | cons call rest ih =>
    -- A vectored write is a write, so the two share the case that follows the outcomes.
    have hwrite : ∀ (self : OutputState T) (buffer : Bytes), ¬ self.Refusing →
        self.bytes.length ≤ self.limit →
        ((Call.write buffer).step self).run rest
          = self.left (buffer :: issued rest) (shuts rest) := by
      intro self buffer h hlen
      rw [Call.step]
      by_cases hne : buffer = []
      · have hnothing : self.bytes.length + ([] : Bytes).length ≤ self.limit := hlen
        rw [hne, poll_write_nil, ih self h hlen, left_fits hnothing, List.append_nil]
      · rcases poll_write_cases self hne with ⟨hrefusing, -⟩ | ⟨-, hfits, heq⟩ | ⟨-, hover, heq⟩
        · exact absurd hrefusing h
        · have hnext : (self.bytes ++ buffer).length ≤ self.limit := by
            rw [List.length_append]
            exact hfits
          rw [heq, left_fits hfits]
          exact ih { self with bytes := self.bytes ++ buffer } h hnext
        · have hrefusing : Refusing { self with overflowed := true } := Or.inr rfl
          obtain ⟨hclosed, -⟩ := not_refusing h
          rw [heq, run_refusing rest _ hrefusing, left_over hover hlen, hclosed, Bool.false_or]
    intro self h hlen
    have hrun : self.run (call :: rest) = (call.step self).run rest := rfl
    rw [hrun]
    cases call with
    | write buffer => exact hwrite self buffer h hlen
    | write_vectored buffers fits =>
      rw [step_write_vectored]
      exact hwrite self buffers.flatten h hlen
    | flush => exact ih self h hlen
    | shutdown =>
      have hclosed : Refusing ((Call.shutdown (T := T)).step self) := Or.inl rfl
      rw [run_refusing rest _ hclosed, issued, shuts, left_nil h hlen]
      rfl

/-- What a run leaves of a new sink. -/
theorem run_opened (limit : ℕ) (h : limit ≤ T.usize_max) (calls : List (Call T)) :
    (opened limit h).run calls =
      { bytes := kept limit (issued calls)
        limit := limit
        overflowed := decide (limit < (issued calls).flatten.length)
        closed := shuts calls
        limit_le := h } := by
  have hopen : ¬ (opened limit h).Refusing := by
    unfold Refusing opened
    simp
  rw [run_eq calls _ hopen (Nat.zero_le _)]
  simp only [left, opened, List.nil_append, List.length_nil, Nat.sub_zero, Nat.zero_add]

end OutputState

/-! ## Clones

Calls on different sinks interleave and do not meet. -/

/-- `BoundedWasixOutput`: the `Arc` that its clones share. -/
structure BoundedWasixOutput where
  state : ℕ
  deriving DecidableEq, Repr

/-- `Clone::clone`. -/
def BoundedWasixOutput.clone (self : BoundedWasixOutput) : BoundedWasixOutput := ⟨self.state⟩

/-- What is behind the `Arc`s. -/
abbrev Sinks (T : Target) : Type := ℕ → OutputState T

/-- A call through a clone of some sink. -/
def Sinks.perform (sinks : Sinks T) (call : BoundedWasixOutput × Call T) : Sinks T :=
  Function.update sinks call.1.state (call.2.step (sinks call.1.state))

/-- Calls through clones of whatever sinks. -/
def Sinks.run (sinks : Sinks T) (calls : List (BoundedWasixOutput × Call T)) : Sinks T :=
  calls.foldl Sinks.perform sinks

/-- The calls of a list that were made through clones of a sink. -/
def BoundedWasixOutput.made (self : BoundedWasixOutput) :
    List (BoundedWasixOutput × Call T) → List (Call T)
  | [] => []
  | (handle, call) :: rest =>
    if handle.state = self.state then call :: self.made rest else self.made rest

/-- The state of a sink is a matter of the calls through its own clones. -/
theorem Sinks.run_state (output : BoundedWasixOutput)
    (calls : List (BoundedWasixOutput × Call T)) (sinks : Sinks T) :
    sinks.run calls output.state = (sinks output.state).run (output.made calls) := by
  induction calls generalizing sinks with
  | nil => rfl
  | cons made rest ih =>
    obtain ⟨handle, call⟩ := made
    have hrun : sinks.run ((handle, call) :: rest)
      = (sinks.perform (handle, call)).run rest := rfl
    rw [hrun, ih, BoundedWasixOutput.made]
    by_cases hsame : handle.state = output.state
    · rw [if_pos hsame, Sinks.perform, hsame, Function.update_self]
      rfl
    · rw [if_neg hsame, Sinks.perform, Function.update_of_ne (Ne.symm hsame)]

/-! ## The capture

Bounded, and exact unless a write did not fit. -/

namespace OutputState

/-- A write, whatever the state, is taken whole or leaves the bytes as they are. -/
theorem poll_write_whole (self : OutputState T) (buffer : Bytes) :
    self.poll_write buffer = (.ok buffer.length, { self with bytes := self.bytes ++ buffer }) ∨
    ∃ error after, self.poll_write buffer = (.error error, after) ∧ after.bytes = self.bytes := by
  by_cases hne : buffer = []
  · left
    rw [hne, poll_write_nil, List.append_nil]
    rfl
  · rcases poll_write_cases self hne with ⟨-, error, heq⟩ | ⟨-, -, heq⟩ | ⟨-, -, heq⟩
    · exact Or.inr ⟨error, self, heq, rfl⟩
    · exact Or.inl heq
    · exact Or.inr ⟨_, _, heq, rfl⟩

variable {self : OutputState T}

/-- A sink that refuses takes no byte of any write. -/
theorem poll_write_refusing (h : self.Refusing) {buffer : Bytes} {count : ℕ}
    {after : OutputState T} (hwrite : self.poll_write buffer = (.ok count, after)) :
    count = 0 ∧ after = self := by
  by_cases hne : buffer = []
  · rw [hne, poll_write_nil, Prod.mk.injEq, Except.ok.injEq] at hwrite
    exact ⟨hwrite.1.symm, hwrite.2.symm⟩
  · rcases poll_write_cases self hne with ⟨-, error, heq⟩ | ⟨hnot, -⟩ | ⟨hnot, -⟩
    · rw [heq, Prod.mk.injEq] at hwrite
      exact absurd hwrite.1 (by intro hok; cases hok)
    · exact absurd h hnot
    · exact absurd h hnot

/-- A write beyond the limit leaves a sink that refuses, whether or not it did before. -/
theorem refusing_of_over {buffer : Bytes} (hlen : self.bytes.length ≤ self.limit)
    (hover : self.limit < self.bytes.length + buffer.length) :
    ((Call.write buffer).step self).Refusing ∧
      ((Call.write buffer).step self).bytes = self.bytes := by
  have hne : buffer ≠ [] := by
    intro hnil
    rw [hnil, List.length_nil, Nat.add_zero] at hover
    omega
  rw [Call.step]
  rcases poll_write_cases self hne with ⟨hrefusing, error, heq⟩ | ⟨-, hfits, -⟩ | ⟨-, -, heq⟩
  · rw [heq]
    exact ⟨hrefusing, rfl⟩
  · omega
  · rw [heq]
    exact ⟨Or.inr rfl, rfl⟩

/-- A sink that refuses still does after any calls, and has the same bytes. -/
theorem refusing_run (h : self.Refusing) (calls : List (Call T)) :
    (self.run calls).Refusing ∧ (self.run calls).bytes = self.bytes := by
  rw [run_refusing calls self h]
  refine ⟨?_, rfl⟩
  rcases h with hclosed | hover
  · left
    simp only [hclosed, Bool.true_or]
  · exact Or.inr hover

theorem poll_write_ready_returns (h : self.bytes.length ≤ self.limit) :
    self.poll_write_ready.Returns := by
  unfold poll_write_ready
  by_cases hclosed : self.closed = true
  · rw [if_pos hclosed]
    exact returns_err _
  · rw [if_neg hclosed]
    by_cases hover : self.overflowed = true
    · rw [if_pos hover]
      exact returns_err _
    · rw [if_neg hover, if_pos h]
      exact returns_ok _

theorem opened_of_new {try_reserve_exact : ℕ → Except String Unit} {limit : ℕ}
    {hlimit : limit ≤ T.usize_max} (h : new try_reserve_exact limit hlimit = .ok self) :
    self = opened limit hlimit := by
  unfold new at h
  cases halloc : try_reserve_exact limit with
  | error error =>
    rw [halloc] at h
    cases h
  | ok granted =>
    rw [halloc] at h
    exact (Except.ok.inj h).symm

/-- `finish` returns the bytes, of a sink that did not overflow. -/
theorem finish_eq_ok {try_reserve_exact : ℕ → Except String Unit} {bytes : Bytes} :
    self.finish try_reserve_exact = .ok bytes ↔
      self.overflowed = false ∧ try_reserve_exact self.bytes.length = .ok () ∧
        bytes = self.bytes := by
  unfold finish
  by_cases hover : self.overflowed = true
  · rw [if_pos hover, hover]
    simp
  · rw [if_neg hover, Bool.not_eq_true] at *
    rw [hover]
    cases halloc : try_reserve_exact self.bytes.length with
    | error error => simp
    | ok granted => simp [eq_comm]

end OutputState

theorem OutputState.step_of_data {call : Call T} {buffer : Bytes} (h : call.data = some buffer)
    (self : OutputState T) : call.step self = (Call.write buffer).step self := by
  cases call with
  | write data =>
    cases h
    rfl
  | write_vectored buffers fits =>
    cases h
    exact step_write_vectored self buffers fits
  | flush => cases h
  | shutdown => cases h

/-- Calls come one after the other. -/
theorem Sinks.run_append (sinks : Sinks T) (calls more : List (BoundedWasixOutput × Call T)) :
    sinks.run (calls ++ more) = (sinks.run calls).run more := List.foldl_append

/-- The capture of a sink is bounded and exact. After any calls, through its clones and through
those of other sinks:
the bytes are within the limit;
a write is taken whole or not at all, and a vectored one is a write of its buffers joined;
once a write was beyond the limit, no byte is accepted any more;
`finish` returns bytes exactly when every write with bytes, before the first shutdown, fitted, and
the allocator grants the copy; the bytes are then those of the writes, in order;
and `poll_write_ready` subtracts no more than there is. -/
theorem capture_exact (try_reserve_exact : ℕ → Except String Unit) (limit : ℕ)
    (hlimit : limit ≤ T.usize_max) (sinks : Sinks T) (output : BoundedWasixOutput)
    (hnew : OutputState.new try_reserve_exact limit hlimit = .ok (sinks output.state))
    (calls : List (BoundedWasixOutput × Call T)) (state : OutputState T)
    (hstate : state = sinks.run calls output.state) :
    state.bytes.length ≤ limit ∧
    (∀ buffer,
      state.poll_write buffer
          = (.ok buffer.length, { state with bytes := state.bytes ++ buffer }) ∨
        ∃ error after, state.poll_write buffer = (.error error, after) ∧
          after.bytes = state.bytes) ∧
    (∀ buffers : List Bytes, buffers.flatten.length ≤ T.usize_max →
      state.poll_write_vectored buffers = state.poll_write buffers.flatten) ∧
    (∀ (handle : BoundedWasixOutput) (call : Call T) (buffer : Bytes), handle = output.clone →
      call.data = some buffer → limit < state.bytes.length + buffer.length →
      ∀ more later count after,
        (sinks.run (calls ++ (handle, call) :: more) output.state).poll_write later
            = (.ok count, after) →
          count = 0 ∧ after.bytes = state.bytes) ∧
    (∀ (try_reserve_exact : ℕ → Except String Unit) (bytes : Bytes),
      state.finish try_reserve_exact = .ok bytes ↔
        Fit limit (issued (output.made calls)) ∧ bytes = (issued (output.made calls)).flatten ∧
          try_reserve_exact bytes.length = .ok ()) ∧
    state.poll_write_ready.Returns := by
  -- The calls through other sinks' clones fall away, and the rest is a run of this sink.
  have hrun := OutputState.run_opened limit hlimit (output.made calls)
  rw [← OutputState.opened_of_new hnew, ← Sinks.run_state, ← hstate] at hrun
  have hlength : state.bytes.length ≤ limit := by
    rw [hrun]
    exact kept_length_le limit _
  have hbound : state.limit = limit := by rw [hrun]
  refine ⟨hlength, state.poll_write_whole, fun buffers h => state.poll_write_vectored_eq h,
    ?_, ?_, ?_⟩
  · intro handle call buffer hhandle hdata hover more later count after hwrite
    -- The write beyond the limit leaves a sink that refuses, and such a sink stays one.
    have hover' : state.limit < state.bytes.length + buffer.length := by rwa [hbound]
    obtain ⟨hrefusing, hbytes⟩ :=
      OutputState.refusing_of_over (hlength.trans_eq hbound.symm) hover'
    have hmade : output.made ((handle, call) :: more) = call :: output.made more := by
      rw [BoundedWasixOutput.made, hhandle]
      exact if_pos rfl
    have hlater : sinks.run (calls ++ (handle, call) :: more) output.state
        = ((Call.write buffer).step state).run (output.made more) := by
      rw [Sinks.run_append, Sinks.run_state, ← hstate, hmade,
        ← OutputState.step_of_data hdata]
      rfl
    rw [hlater] at hwrite
    obtain ⟨hstill, hsame⟩ := OutputState.refusing_run hrefusing (output.made more)
    obtain ⟨hcount, hafter⟩ := OutputState.poll_write_refusing hstill hwrite
    exact ⟨hcount, by rw [hafter, hsame, hbytes]⟩
  · intro allocate bytes
    rw [OutputState.finish_eq_ok, fit_iff, hrun]
    simp only [decide_eq_false_iff_not, not_lt]
    constructor
    · rintro ⟨hfits, halloc, hbytes⟩
      rw [kept_of_fit hfits] at halloc hbytes
      exact ⟨hfits, hbytes, hbytes ▸ halloc⟩
    · rintro ⟨hfits, hbytes, halloc⟩
      rw [kept_of_fit hfits]
      exact ⟨hfits, hbytes ▸ halloc, hbytes⟩
  · exact OutputState.poll_write_ready_returns (hlength.trans_eq hbound.symm)

theorem six_le_usize_max : 6 ≤ Checkpoint.sampleTarget.usize_max := by decide

/-- Two sinks for six bytes each. -/
def sampleSinks : Sinks Checkpoint.sampleTarget := fun _ => OutputState.opened 6 six_le_usize_max

theorem two_buffers_fit :
    [([51] : Bytes), [53]].flatten.length ≤ Checkpoint.sampleTarget.usize_max := by
  decide

/-- Four bytes go to the first, two of them in two buffers, and two to the second. -/
def sampleCalls : List (BoundedWasixOutput × Call Checkpoint.sampleTarget) :=
  [(⟨0⟩, .write [52, 50]), (⟨1⟩, .write [49, 49]),
    (⟨0⟩, .write_vectored [[51], [53]] two_buffers_fit), (⟨0⟩, .shutdown), (⟨0⟩, .write [48])]

/-- The write after the shutdown is refused, and `finish` returns the four bytes. -/
theorem capture_exact_two_sinks :
    (sampleSinks.run sampleCalls 0).finish (fun _ => .ok ()) = .ok [52, 50, 51, 53] := by
  have hexact := capture_exact (fun _ => .ok ()) 6 six_le_usize_max sampleSinks ⟨0⟩ rfl
    sampleCalls _ rfl
  refine (hexact.2.2.2.2.1 (fun _ => .ok ()) _).mpr ⟨?_, rfl, rfl⟩
  rw [fit_iff]
  decide

end WasmRuntime.Output
