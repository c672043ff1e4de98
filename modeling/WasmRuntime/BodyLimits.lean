/-
The two body limiters of `http.rs`: `LimitBody`, around what a guest sends and receives, and
`StreamingHttpBody`, around what it responds.

They are written twice in the source, over `u64` and over `usize`, one as a function of the inner
answer and one with the completion of a request on board.
-/
import WasmRuntime.Budget
import WasmRuntime.ResponseBody

set_option autoImplicit false

namespace WasmRuntime.Http

open Prog

variable {ρ β ε ε' : Type}

/-! ## What a limiter owes its reader

Both are a budget (`Budget.lean`) spent on the data of the frames. `Limits` is proved of the budget,
and below each limiter is shown to be the budget's step, poll by poll. -/

/-- The same answer, its error converted. -/
def FramePoll.mapErr (into : ε' → ε) : FramePoll ε' → FramePoll ε
  | .Pending => .Pending
  | .Ready none => .Ready none
  | .Ready (some (.ok frame)) => .Ready (some (.ok frame))
  | .Ready (some (.error error)) => .Ready (some (.error (into error)))

/-- The data in a sequence of answers. -/
def dataLength (answers : List (FramePoll ε)) : ℕ := (answers.map FramePoll.bytes).sum

/-- A reader of a limited body polls once for each of the `inner` answers and gets `output`. -/
structure Limits (limit : ℕ) (into : ε' → ε) (exceeded : ℕ → ε) (inner : List (FramePoll ε'))
    (output : List (FramePoll ε)) : Prop where
  /-- Each poll is answered. -/
  length : output.length = inner.length
  /-- Data within the limit goes through as it is, with all that comes between. -/
  transparent : dataLength inner ≤ limit → output = inner.map (FramePoll.mapErr into)
  /-- Up to the first frame that is too much everything goes through, and that frame is an
  error. -/
  cut : ∀ before data after, inner = before ++ .Ready (some (.ok (.data data))) :: after →
    dataLength before ≤ limit → limit < dataLength before + data.length →
    ∃ rest, output = before.map (FramePoll.mapErr into)
      ++ .Ready (some (.error (exceeded data.length))) :: rest
  /-- Whatever comes later, no more than the limit ever goes through. -/
  tight : dataLength output ≤ limit

/-- The budget behind both limiters. -/
def bodyBudget (into : ε' → ε) (exceeded : ℕ → ε) : Budget (FramePoll ε') (FramePoll ε) where
  weight := FramePoll.bytes
  pass := FramePoll.mapErr into
  refuse answer := .Ready (some (.error (exceeded answer.bytes)))

theorem bytes_mapErr (into : ε' → ε) (answer : FramePoll ε') :
    (answer.mapErr into).bytes = answer.bytes := by
  rcases answer with _ | (_ | (error | frame)) <;> rfl

/-- A budget spent on the data of the frames limits. -/
theorem bodyBudget_limits (limit : ℕ) (into : ε' → ε) (exceeded : ℕ → ε)
    (inner : List (FramePoll ε')) :
    Limits limit into exceeded inner ((bodyBudget into exceeded).run limit inner) where
  length := Budget.length_run _ limit inner
  transparent h := Budget.run_of_le (bodyBudget into exceeded) h
  cut := by
    rintro before data after rfl hbefore hover
    exact ⟨_, Budget.run_over (bodyBudget into exceeded) hbefore hover⟩
  tight := Budget.total_run_le (bodyBudget into exceeded) (bytes_mapErr into) (fun _ => rfl) limit
    inner

/-! ## `LimitBody`

The state is what remains and how to make an error, so the steps are those of the budget as they
stand. -/

namespace LimitBody

/-- One poll is one step of the budget. -/
theorem poll_frame_eq (into : ε' → ε) (me : LimitBody β ε) (answer : FramePoll ε') :
    me.poll_frame into answer =
      (((bodyBudget into me.error).step me.remaining answer).1,
        { me with remaining := ((bodyBudget into me.error).step me.remaining answer).2 }) := by
  rcases answer with _ | (_ | (error | frame))
  · simp [poll_frame, Budget.step, bodyBudget, FramePoll.bytes, FramePoll.mapErr]
  · simp [poll_frame, Budget.step, bodyBudget, FramePoll.bytes, FramePoll.mapErr]
  · simp [poll_frame, Budget.step, bodyBudget, FramePoll.bytes, FramePoll.mapErr]
  · by_cases hover : (frame.data_ref.map List.length).getD 0 > me.remaining
    · simp [poll_frame, Budget.step, bodyBudget, FramePoll.bytes, if_pos hover]
    · simp [poll_frame, Budget.step, bodyBudget, FramePoll.bytes, FramePoll.mapErr, if_neg hover]

/-- All polls are the run of the budget. -/
theorem drain_eq (into : ε' → ε) (me : LimitBody β ε) (answers : List (FramePoll ε')) :
    me.drain into answers = (bodyBudget into me.error).run me.remaining answers := by
  induction answers generalizing me with
  | nil => rfl
  | cons answer rest ih =>
    rw [drain, Budget.run, poll_frame_eq]
    exact congrArg _ (ih _)

/-- The limiter after so many polls. -/
def after (into : ε' → ε) (me : LimitBody β ε) (answers : List (FramePoll ε')) : LimitBody β ε :=
  answers.foldl (fun me answer => (me.poll_frame into answer).2) me

/-- What remains is the limit less all data that the inner body ever answered, also the data
of a frame that was refused. -/
theorem after_remaining (into : ε' → ε) (me : LimitBody β ε) (answers : List (FramePoll ε')) :
    (me.after into answers).remaining = me.remaining - dataLength answers := by
  have hleft : (me.after into answers).remaining
      = (bodyBudget into me.error).left me.remaining answers := by
    induction answers generalizing me with
    | nil => rfl
    | cons answer rest ih =>
      have hrest := ih (me.poll_frame into answer).2
      rw [poll_frame_eq] at hrest
      rw [after, List.foldl_cons, Budget.left, List.foldl_cons, poll_frame_eq]
      exact hrest
  rw [hleft]
  exact Budget.left_eq (bodyBudget into me.error) me.remaining answers

/-! ## The size hint

`LimitBody::size_hint` lowers the upper bound of the inner hint to what remains and leaves the lower
bound alone, and the setter it uses asserts that the two are in order. The inner body knows nothing
of the limit, so the assertion holds exactly as long as the body does not promise more than what
remains (`size_hint_sound_iff`). -/

/-- In every state that polls can reach: `size_hint` returns a hint that is in order and within
what remains if, and only if, the inner body does not promise more than the limit less what it
has answered. Otherwise it panics. -/
theorem size_hint_sound_iff (into : ε' → ε) (body : β) (limit : ℕ) (error : ℕ → ε)
    (answers : List (FramePoll ε')) (hint : SizeHint)
    (hhint : ∀ upper ∈ hint.upper, hint.lower ≤ upper) :
    (∃ out upper, ((new body limit error).after into answers).size_hint hint = .ok out ∧
        out.upper = some upper ∧ out.lower ≤ upper ∧
        upper ≤ ((new body limit error).after into answers).remaining) ↔
      hint.lower ≤ limit - dataLength answers := by
  have hremaining := after_remaining into (new body limit error) answers
  generalize (new body limit error).after into answers = me at hremaining ⊢
  have hlimit : me.remaining = limit - dataLength answers := hremaining
  rw [← hlimit]
  constructor
  · rintro ⟨out, upper, hout, -, -, -⟩
    by_contra hlower
    have hpanic := (size_hint_panics_iff me hint hhint).mpr (Nat.lt_of_not_le hlower)
    rw [hpanic] at hout
    cases hout
  · intro hlower
    by_cases hclamp : (hint.upper.all fun upper => decide (upper > me.remaining)) = true
    · refine ⟨{ hint with upper := some me.remaining }, me.remaining, ?_, rfl, hlower, le_rfl⟩
      rw [size_hint, if_pos hclamp, SizeHint.set_upper, if_pos hlower]
    · -- The hint is left alone when it has an upper bound within what remains.
      obtain ⟨upper, hupper, hwithin⟩ : ∃ upper, hint.upper = some upper ∧
          ¬ upper > me.remaining := by
        cases hupper : hint.upper with
        | none => simp [hupper] at hclamp
        | some upper => exact ⟨upper, rfl, by simpa [hupper] using hclamp⟩
      refine ⟨hint, upper, ?_, hupper, hhint upper hupper, Nat.le_of_not_lt hwithin⟩
      rw [size_hint, if_neg hclamp]

/-- A body of exactly two bytes under a limit of four. -/
theorem size_hint_sound_iff_two : ∃ out upper,
    ((new () 4 (fun _ => ()) : LimitBody Unit Unit).after id []).size_hint ⟨2, some 2⟩ = .ok out ∧
      out.upper = some upper ∧ out.lower ≤ upper ∧ upper ≤ 4 :=
  (size_hint_sound_iff id () 4 (fun _ => ()) [] ⟨2, some 2⟩ (by decide)).mpr (by decide)

/-- A body of exactly five bytes under a limit of three: the hint panics before any poll. Under
a limit of seven it does so after a frame that is too much, when the body that is left promises
one more byte. -/
theorem size_hint_panics :
    ((new () 3 (fun _ => ()) : LimitBody Unit Unit).after id
      ([] : List (FramePoll Unit))).size_hint ⟨5, some 5⟩ = .panic ∧
    ((new () 7 (fun _ => ()) : LimitBody Unit Unit).after id
      [.Ready (some (.ok (.data [1, 2, 3, 4, 5, 6, 7, 8])))]).size_hint ⟨1, some 1⟩ = .panic :=
  ⟨rfl, rfl⟩

end LimitBody

/-! ## `StreamingHttpBody`

The same step, run in the service: the inner body is polled there, and the completion comes and
goes. -/

namespace StreamingHttpBody

/-- A reader that polls so many times, also after an error. -/
def drain : ℕ → StreamingHttpBody → ServiceM ρ β (List (FramePoll Error))
  | 0, _ => pure []
  | n + 1, body => do
      let (answer, body) ← body.poll_frame
      let rest ← drain n body
      pure (answer :: rest)

/-- The budget of a response. -/
abbrev budget : Budget (FramePoll String) (FramePoll Error) :=
  bodyBudget Error.Execution fun _ => Error.Limit "output bytes"

/-- One poll is one step of the budget, and polls the inner body once. -/
theorem interp_poll_frame_step (H : Host) (body : StreamingHttpBody) (s : Serving) :
    (interp H.step (body.poll_frame : ServiceM ρ β _) s).1.1
        = (budget.step body.remaining (H.body.poll s.polls)).1 ∧
      (interp H.step (body.poll_frame : ServiceM ρ β _) s).1.2.remaining
        = (budget.step body.remaining (H.body.poll s.polls)).2 ∧
      (interp H.step (body.poll_frame : ServiceM ρ β _) s).2.polls = s.polls + 1 := by
  rw [interp_poll_frame]
  rcases H.body.poll s.polls with _ | (_ | (error | frame))
  · exact ⟨rfl, rfl, rfl⟩
  · exact ⟨rfl, rfl, Serving.settle_polls ..⟩
  · exact ⟨rfl, rfl, Serving.settle_polls ..⟩
  · have hbytes : budget.weight (.Ready (some (.ok frame))) = frame.bytes.length := by
      cases frame <;> rfl
    by_cases hover : frame.bytes.length > body.remaining
    · have hstep : budget.step body.remaining (.Ready (some (.ok frame)))
          = (.Ready (some (.error (.Limit "output bytes"))), 0) := by
        rw [Budget.step, hbytes, if_pos hover]
        rfl
      rw [hstep]
      dsimp only
      rw [if_pos hover]
      exact ⟨rfl, rfl, Serving.settle_polls ..⟩
    · have hstep : budget.step body.remaining (.Ready (some (.ok frame)))
          = (.Ready (some (.ok frame)), body.remaining - frame.bytes.length) := by
        rw [Budget.step, hbytes, if_neg hover]
        rfl
      rw [hstep]
      dsimp only
      rw [if_neg hover]
      exact ⟨rfl, rfl, rfl⟩

/-- So are those of a response. -/
theorem interp_drain (H : Host) (n : ℕ) (body : StreamingHttpBody) (s : Serving) :
    (interp H.step (body.drain n : ServiceM ρ β _) s).1
      = budget.run body.remaining ((List.range' s.polls n).map H.body.poll) := by
  induction n generalizing body s with
  | zero => rfl
  | succ n ih =>
    obtain ⟨hanswer, hremaining, hpolls⟩ := interp_poll_frame_step (ρ := ρ) (β := β) H body s
    rw [drain, interp_bind, interp_bind]
    rw [List.range'_succ, List.map_cons, Budget.run, ← hanswer, ← hremaining, ← hpolls]
    exact congrArg _ (ih _ _)

end StreamingHttpBody

/-! ## Both

One statement for the two, over whatever the inner bodies answer. -/

/-- For every limit and every sequence of inner results, polled any number of times, also after
an error: `LimitBody` and `StreamingHttpBody` limit. -/
theorem body_limiters_transparent_and_tight :
    (∀ (ε ε' β : Type) (into : ε' → ε) (body : β) (limit : ℕ) (error : ℕ → ε)
        (inner : List (FramePoll ε')),
      Limits limit into error inner ((LimitBody.new body limit error).drain into inner)) ∧
    ∀ (ρ β : Type) (H : Host) (body : StreamingHttpBody) (s : Serving) (n : ℕ),
      Limits body.remaining Error.Execution (fun _ => Error.Limit "output bytes")
        ((List.range' s.polls n).map H.body.poll)
        (interp H.step (body.drain n : ServiceM ρ β _) s).1 := by
  constructor
  · intro ε ε' β into body limit error inner
    rw [LimitBody.drain_eq]
    exact bodyBudget_limits limit into error inner
  · intro ρ β H body s n
    rw [StreamingHttpBody.interp_drain]
    exact bodyBudget_limits body.remaining _ _ _

end WasmRuntime.Http
