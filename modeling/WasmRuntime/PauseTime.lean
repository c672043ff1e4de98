/-
What paused time counts for against the deadline.

The epoch callback of `invoke` takes the difference of two totals off the elapsed time. What is left
is the time since the start during which the token was not paused, and with it the time paused
between the two readings of the start and between the two readings of the callback: that time does
count. `timed_out_iff` is the exact statement; where the token is not paused between the readings,
it is the time not paused.
-/
import Mathlib.Data.Finset.Card
import Mathlib.Data.List.TakeWhile
import Mathlib.Order.Interval.Finset.Nat
import WasmRuntime.Tokens

set_option autoImplicit false

namespace WasmRuntime.Token

open Prog

/-! ## Calls one after the other

The calls on a token are made at the readings of a monotone clock, any number of them at one
reading. An instant is at most `Duration::MAX` after the first, as the difference of any two
instants is a duration. -/

/-- A reading of the clock. -/
abbrev Instant := Fin (DURATION_MAX + 1)

/-- A call on the tokens of an invocation. -/
inductive TokenCall where
  | pause | resume | mark_resident | evict | cancel
  deriving DecidableEq, Repr

/-- Its text. -/
def TokenCall.program : TokenCall → TokenM Unit
  | .pause => PauseToken.pause
  | .resume => do
      let _ ← PauseToken.resume
      pure ()
  | .mark_resident => PauseToken.mark_resident
  | .evict => PauseToken.evict
  | .cancel => CancellationToken.cancel

/-- A method, or a part of one, that reads the clock at most once and runs alone. -/
def alone {α : Type} (p : TokenM α) (now : Instant) (s : Tokens Unit) : α × Tokens Unit :=
  interp (TokenOp.run ()) p { s with now := now.val }

/-- One call of a sequence. -/
def perform_call (s : Tokens Unit) (c : Instant × TokenCall) : Tokens Unit :=
  (alone c.2.program c.1 s).2

/-- The tokens after a sequence of calls. -/
def after (calls : List (Instant × TokenCall)) : Tokens Unit :=
  calls.foldl perform_call (Tokens.new 0 firstBranch)

/-! ## Paused time

Time is counted in nanoseconds: the token was paused during nanosecond `n` if it was after the calls
made up to `n`, and the paused time up to `t` is the number of nanoseconds before `t` during which
it was paused. This says nothing of stamps or sums. -/

/-- The token is paused during nanosecond `n`. -/
def pausedAt (calls : List (Instant × TokenCall)) (n : ℕ) : Bool :=
  (after (calls.takeWhile fun c => decide (c.1.val ≤ n))).paused

/-- The nanoseconds of an interval during which the token is paused. -/
def pausedTime (calls : List (Instant × TokenCall)) (start stop : ℕ) : ℕ :=
  ((Finset.Ico start stop).filter fun n => pausedAt calls n = true).card

/-- Those during which it is not. -/
def activeTime (calls : List (Instant × TokenCall)) (start stop : ℕ) : ℕ :=
  ((Finset.Ico start stop).filter fun n => ¬ pausedAt calls n = true).card

theorem pausedTime_add_activeTime (calls : List (Instant × TokenCall)) (start stop : ℕ) :
    pausedTime calls start stop + activeTime calls start stop = stop - start := by
  rw [pausedTime, activeTime, Finset.card_filter_add_card_filter_not, Nat.card_Ico]

variable {start stop now : ℕ} {s : Tokens Unit}

theorem pausedTime_add (calls : List (Instant × TokenCall)) {mid : ℕ} (hstart : start ≤ mid)
    (hstop : mid ≤ stop) :
    pausedTime calls start mid + pausedTime calls mid stop = pausedTime calls start stop := by
  rw [pausedTime, pausedTime, pausedTime, ← Finset.card_union_of_disjoint, ← Finset.filter_union,
    Finset.Ico_union_Ico_eq_Ico hstart hstop]
  exact Finset.disjoint_filter_filter (Finset.Ico_disjoint_Ico_consecutive start mid stop)

/-! ## What one call does

A pause begins, a pause ends, or nothing happens to the timing. -/

/-- Between two calls the mutex is free and the start stamp is there while paused. -/
structure Tokens.Idle (s : Tokens Unit) : Prop where
  unlocked : s.timing_lock = none
  stamped : s.timing.paused_at.isSome = s.paused

/-- What a call does to the flag and the timing: nothing, it begins a pause, or it ends one. -/
inductive Change (now : ℕ) (s s' : Tokens Unit) : Prop where
  | same (hpaused : s'.paused = s.paused) (htiming : s'.timing = s.timing)
  | begins (hpaused : s.paused = false) (hpaused' : s'.paused = true)
      (htiming : s'.timing = ⟨s.timing.completed, some now⟩)
  | ends (started : ℕ) (hpaused : s.paused = true) (hpaused' : s'.paused = false)
      (hstarted : s.timing.paused_at = some started)
      (htiming : s'.timing = ⟨saturating_add s.timing.completed (now - started), none⟩)

theorem perform_pause (s : Tokens Unit) (now : Instant) :
    perform_call s (now, .pause) =
      if s.paused then { s with timing_lock := none, now := now.val }
      else { s with
        paused := true, resident := false, timing := ⟨s.timing.completed, some now.val⟩,
        timing_lock := none, now := now.val } := by
  obtain ⟨paused, _⟩ := s
  cases paused <;> rfl

theorem perform_resume (s : Tokens Unit) (now : Instant) :
    perform_call s (now, .resume) =
      if s.evicted then { s with now := now.val }
      else if s.paused then { s with
        paused := false, resident := false, timing_lock := none, notify := s.notify + 1,
        timing := match s.timing.paused_at with
          | some started => ⟨saturating_add s.timing.completed (now.val - started), none⟩
          | none => s.timing
        now := now.val }
      else { s with timing_lock := none, now := now.val } := by
  obtain ⟨paused, resident, evicted, cancelled, ⟨completed, paused_at⟩, _⟩ := s
  cases evicted <;> cases paused <;> cases paused_at <;> rfl

theorem perform_mark_resident (s : Tokens Unit) (now : Instant) :
    perform_call s (now, .mark_resident) =
      if s.paused && !s.evicted then
        { s with resident := true, notify := s.notify + 1, now := now.val }
      else { s with now := now.val } := by
  obtain ⟨paused, resident, evicted, _⟩ := s
  cases evicted <;> cases paused <;> rfl

/-- A call that runs alone keeps the tokens idle and makes one of the three changes. -/
theorem perform_call_change (h : s.Idle) (c : Instant × TokenCall) :
    (perform_call s c).Idle ∧ Change c.1.val s (perform_call s c) := by
  obtain ⟨now, call⟩ := c
  obtain ⟨hlock, hstamped⟩ := h
  cases call with
  | pause =>
    rw [perform_pause]
    by_cases hpaused : s.paused = true
    · rw [if_pos hpaused]
      exact ⟨⟨rfl, hstamped⟩, .same rfl rfl⟩
    · rw [if_neg hpaused]
      exact ⟨⟨rfl, rfl⟩, .begins (Bool.not_eq_true _ ▸ hpaused) rfl rfl⟩
  | resume =>
    rw [perform_resume]
    by_cases hevicted : s.evicted = true
    · rw [if_pos hevicted]
      exact ⟨⟨hlock, hstamped⟩, .same rfl rfl⟩
    · rw [if_neg hevicted]
      by_cases hpaused : s.paused = true
      · rw [if_pos hpaused]
        -- Whoever is paused has a stamp, from which the pause is measured.
        rw [hpaused, Option.isSome_iff_exists] at hstamped
        obtain ⟨started, hstarted⟩ := hstamped
        rw [hstarted]
        exact ⟨⟨rfl, rfl⟩, .ends started hpaused rfl hstarted rfl⟩
      · rw [if_neg hpaused]
        exact ⟨⟨rfl, hstamped⟩, .same rfl rfl⟩
  | mark_resident =>
    rw [perform_mark_resident]
    split
    · exact ⟨⟨hlock, hstamped⟩, .same rfl rfl⟩
    · exact ⟨⟨hlock, hstamped⟩, .same rfl rfl⟩
  | evict => exact ⟨⟨hlock, hstamped⟩, .same rfl rfl⟩
  | cancel => exact ⟨⟨hlock, hstamped⟩, .same rfl rfl⟩

/-! ## Sequences of calls

`total_paused` computes the paused time from a start stamp and a completed total, by induction on
the calls. -/

/-- The sum that `total_paused` forms, before it saturates. -/
def PauseTiming.total (timing : PauseTiming) (now : ℕ) : ℕ :=
  timing.completed + match timing.paused_at with
    | some started => now - started
    | none => 0

/-- The calls are made in the order of a monotone clock, none after `now`. -/
def Ordered (calls : List (Instant × TokenCall)) (now : ℕ) : Prop :=
  (calls.map fun c => c.1.val).Pairwise (· ≤ ·) ∧ ∀ c ∈ calls, c.1.val ≤ now

theorem Ordered.init {calls : List (Instant × TokenCall)} {c : Instant × TokenCall}
    (h : Ordered (calls ++ [c]) now) : Ordered calls c.1.val ∧ c.1.val ≤ now := by
  obtain ⟨hsorted, hle⟩ := h
  rw [List.map_append, List.pairwise_append] at hsorted
  refine ⟨⟨hsorted.1, ?_⟩, hle c (by simp)⟩
  intro c' hc'
  exact hsorted.2.2 _ (List.mem_map_of_mem hc') _ (by simp)

/-- Calls made at `start` or later do not change what was before. -/
theorem pausedTime_append {before later : List (Instant × TokenCall)}
    (hlater : ∀ c ∈ later, stop ≤ c.1.val) :
    pausedTime (before ++ later) start stop = pausedTime before start stop := by
  unfold pausedTime
  congr 1
  apply Finset.filter_congr
  intro n hn
  rw [Finset.mem_Ico] at hn
  -- The instants that count are before the first of the later calls.
  have hnone : later.takeWhile (fun c => decide (c.1.val ≤ n)) = [] := by
    cases later with
    | nil => rfl
    | cons c later =>
      have hc := hlater c List.mem_cons_self
      exact List.takeWhile_cons_of_neg (by simp; omega)
  have hsame : (before ++ later).takeWhile (fun c => decide (c.1.val ≤ n))
      = before.takeWhile fun c => decide (c.1.val ≤ n) := by
    rw [List.takeWhile_append, hnone, List.append_nil]
    split
    · rename_i hall
      exact ((List.takeWhile_prefix _).eq_of_length hall).symm
    · rfl
  rw [pausedAt, pausedAt, hsame]

/-- After the last call the token stays as it is. -/
theorem pausedAt_of_le {calls : List (Instant × TokenCall)} {n : ℕ} (h : ∀ c ∈ calls, c.1.val ≤ n) :
    pausedAt calls n = (after calls).paused := by
  rw [pausedAt, List.takeWhile_eq_self_iff.mpr]
  intro c hc
  exact decide_eq_true (h c hc)

/-- While nothing is called, all of the time counts or none of it. -/
theorem pausedTime_after {calls : List (Instant × TokenCall)} (h : ∀ c ∈ calls, c.1.val ≤ start) :
    pausedTime calls start stop = if (after calls).paused then stop - start else 0 := by
  have hconst : ∀ n ∈ Finset.Ico start stop, pausedAt calls n = (after calls).paused := by
    intro n hn
    rw [Finset.mem_Ico] at hn
    exact pausedAt_of_le fun c hc => (h c hc).trans hn.1
  rw [pausedTime, Finset.filter_congr fun n hn => by rw [hconst n hn]]
  by_cases hpaused : (after calls).paused = true
  · rw [if_pos hpaused, Finset.filter_true_of_mem fun _ _ => hpaused, Nat.card_Ico]
  · rw [if_neg hpaused, Finset.filter_false_of_mem fun _ _ => hpaused, Finset.card_empty]

theorem pausedTime_le (calls : List (Instant × TokenCall)) (start stop : ℕ) :
    pausedTime calls start stop ≤ stop - start := by
  have hsum := pausedTime_add_activeTime calls start stop
  omega

/-- What the timing record says at any time after the last call. -/
structure Told (calls : List (Instant × TokenCall)) (now : ℕ) : Prop where
  idle : (after calls).Idle
  started_le : ∀ started, (after calls).timing.paused_at = some started → started ≤ now
  total_eq : (after calls).timing.total now = pausedTime calls 0 now

/-- The record as time goes on. -/
theorem PauseTiming.total_later (h : s.Idle) {later : ℕ}
    (hstarted : ∀ started, s.timing.paused_at = some started → started ≤ now) (hle : now ≤ later) :
    s.timing.total later = s.timing.total now + if s.paused then later - now else 0 := by
  have hstamped := h.stamped
  unfold PauseTiming.total
  cases hat : s.timing.paused_at with
  | none =>
    rw [hat] at hstamped
    rw [← hstamped]
    rfl
  | some started =>
    have hbefore := hstarted started hat
    rw [hat] at hstamped
    rw [← hstamped]
    simp only [Option.isSome_some, if_true]
    omega

/-- A call leaves the total at its own time as it is, and no stamp is ahead of it. -/
theorem Change.total {s' : Tokens Unit} (h : Change now s s') (hidle : s.Idle)
    (hstarted : ∀ started, s.timing.paused_at = some started → started ≤ now)
    (hmax : s.timing.total now ≤ DURATION_MAX) :
    s'.timing.total now = s.timing.total now ∧
      ∀ started, s'.timing.paused_at = some started → started ≤ now := by
  cases h with
  | same hpaused htiming =>
    rw [htiming]
    exact ⟨rfl, hstarted⟩
  | begins hpaused hpaused' htiming =>
    -- Nothing was measured before the pause, and at its beginning it has lasted no time.
    have hnone : s.timing.paused_at = none := by
      have hstamped := hidle.stamped
      rw [hpaused, Option.isSome_eq_false_iff, Option.isNone_iff_eq_none] at hstamped
      exact hstamped
    rw [htiming, PauseTiming.total, PauseTiming.total, hnone]
    refine ⟨by simp, ?_⟩
    rintro started ⟨⟩
    exact Nat.le_refl _
  | ends started hpaused hpaused' hat htiming =>
    rw [PauseTiming.total, hat] at hmax
    rw [htiming, PauseTiming.total, PauseTiming.total, hat]
    refine ⟨Nat.min_eq_left hmax, ?_⟩
    rintro started ⟨⟩

/-- `total_paused` adds up the paused time. -/
theorem told {calls : List (Instant × TokenCall)} (h : Ordered calls now) : Told calls now := by
  induction calls using List.reverseRecOn generalizing now with
  | nil =>
    refine ⟨⟨rfl, rfl⟩, nofun, ?_⟩
    rw [pausedTime_after (fun c hc => absurd hc List.not_mem_nil)]
    rfl
  | append_singleton calls c ih =>
    obtain ⟨hbefore, hle⟩ := h.init
    obtain ⟨hidle, hstarted, htotal⟩ := ih hbefore
    obtain ⟨hidle', hchange⟩ := perform_call_change hidle c
    have hmax : (after calls).timing.total c.1.val ≤ DURATION_MAX := by
      have hpaused := pausedTime_le calls 0 c.1.val
      have hnow := Nat.le_of_lt_succ c.1.isLt
      omega
    obtain ⟨hsame, hstarted'⟩ := hchange.total hidle hstarted hmax
    have hafter : after (calls ++ [c]) = perform_call (after calls) c := List.foldl_concat ..
    have hall : ∀ c' ∈ calls ++ [c], c'.1.val ≤ c.1.val := by
      intro c' hc'
      rcases List.mem_append.mp hc' with hc' | hc'
      · exact hbefore.2 c' hc'
      · rw [List.mem_singleton.mp hc']
    refine ⟨hafter ▸ hidle', fun started hat => (hstarted' started (hafter ▸ hat)).trans hle, ?_⟩
    -- Up to the call nothing has changed, and after it all of the time counts or none.
    have hnew : ∀ c' ∈ [c], c.1.val ≤ c'.1.val := by simp
    rw [← pausedTime_add (calls ++ [c]) (Nat.zero_le _) hle, pausedTime_append hnew,
      pausedTime_after hall, hafter, PauseTiming.total_later hidle' hstarted' hle, hsame, htotal]

/-! ## The invocation

`invocation_start` and `epoch_callback` are the two places of `invoke` that measure time. Each reads
the clock twice, and is cut where it may move on: behind its first reading. Calls may come there too
(`Schedule`). -/

/-- What the epoch callback tells Wasmtime to do. -/
inductive UpdateDeadline where
  | Interrupt | Yield | YieldCustom
  deriving DecidableEq, Repr

/-- The start of `invoke` from its second reading on: `pause_baseline`. -/
def read_baseline (invocation_started : ℕ) : TokenM (ℕ × ℕ) := do
  let pause_baseline ← PauseToken.total_paused
  pure (invocation_started, pause_baseline)

/-- The start of `invoke`: `invocation_started` and `pause_baseline`. -/
def invocation_start : TokenM (ℕ × ℕ) := do
  let invocation_started ← ask .now
  read_baseline invocation_started

/-- `active`, from the elapsed time and the two totals. -/
def active (elapsed total_paused pause_baseline : ℕ) : ℕ :=
  elapsed - (total_paused - pause_baseline)

/-- The epoch callback from its second reading on. -/
def epoch_decision (start : ℕ × ℕ) (timeout total_paused : ℕ) :
    TokenM (Bool × UpdateDeadline) := do
  let elapsed ← PauseToken.elapsed start.1
  let active := active elapsed total_paused start.2
  if ← PauseToken.is_evicted then pure (false, .Interrupt)
  else if ← CancellationToken.is_cancelled then pure (false, .Interrupt)
  else if timeout ≤ active then pure (true, .Interrupt)
  else if ← PauseToken.is_paused then
    PauseToken.mark_resident
    pure (false, .YieldCustom)
  else pure (false, .Yield)

/-- The epoch callback of `invoke`: whether it sets `timed_out`, and what it returns. -/
def epoch_callback (start : ℕ × ℕ) (timeout : ℕ) : TokenM (Bool × UpdateDeadline) := do
  let total_paused ← PauseToken.total_paused
  epoch_decision start timeout total_paused

/-- A program with two readings of the clock: its first part, what others do meanwhile, and its
second part at a reading of its own. -/
def paced {α β : Type} (p : TokenM α) (first : Instant) (meanwhile : List (Instant × TokenCall))
    (k : α → TokenM β) (second : Instant) (s : Tokens Unit) : β × Tokens Unit :=
  let (a, s) := alone p first s
  alone (k a) second (meanwhile.foldl perform_call s)

/-- An invocation and one of its callbacks: the four readings of the clock, and the calls of
others before the first of them and between any two. -/
structure Schedule where
  before : List (Instant × TokenCall)
  /-- `invocation_started` -/
  started : Instant
  starting : List (Instant × TokenCall)
  /-- The reading for `pause_baseline`. -/
  baseline_at : Instant
  between : List (Instant × TokenCall)
  /-- The reading for `total_paused` in the callback. -/
  total_at : Instant
  meanwhile : List (Instant × TokenCall)
  /-- The reading for the elapsed time. -/
  now : Instant
  monotone : (before.map Prod.fst ++ started :: (starting.map Prod.fst ++ baseline_at ::
    (between.map Prod.fst ++ total_at :: (meanwhile.map Prod.fst ++ [now])))).Pairwise (· ≤ ·)

namespace Schedule

variable (σ : Schedule)

/-- All the calls. -/
def calls : List (Instant × TokenCall) := σ.before ++ (σ.starting ++ (σ.between ++ σ.meanwhile))

/-- The start of the invocation. -/
def begun : (ℕ × ℕ) × Tokens Unit :=
  paced (ask .now) σ.started σ.starting read_baseline σ.baseline_at (after σ.before)

/-- The callback. -/
def callback (timeout : ℕ) : (Bool × UpdateDeadline) × Tokens Unit :=
  paced PauseToken.total_paused σ.total_at σ.meanwhile (epoch_decision σ.begun.1 timeout) σ.now
    (σ.between.foldl perform_call σ.begun.2)

/-- The callback sets `timed_out`. -/
def timed_out (timeout : ℕ) : Bool := (σ.callback timeout).1.1

end Schedule

/-! ## What the readings give

The two totals and the two stamps, in terms of paused time. -/

/-- What the program of `total_paused` computes alone. -/
theorem total_paused_alone (s : Tokens Unit) (now : Instant) :
    alone PauseToken.total_paused now s
      = (min (s.timing.total now.val) DURATION_MAX,
          { s with timing_lock := none, now := now.val }) := by
  obtain ⟨paused, resident, evicted, cancelled, ⟨completed, paused_at⟩, _⟩ := s
  cases paused_at <;> rfl

theorem read_baseline_alone (started : ℕ) (s : Tokens Unit) (now : Instant) :
    alone (read_baseline started) now s
      = ((started, min (s.timing.total now.val) DURATION_MAX),
          { s with timing_lock := none, now := now.val }) := by
  obtain ⟨paused, resident, evicted, cancelled, ⟨completed, paused_at⟩, _⟩ := s
  cases paused_at <;> rfl

/-- The end of the callback, once the flags are known to be clear. -/
theorem epoch_decision_clear (hevicted : s.evicted = false) (hcancelled : s.cancelled = false)
    (now : Instant) (start : ℕ × ℕ) (timeout total : ℕ) :
    (alone (epoch_decision start timeout total) now s).1.1
      = decide (timeout ≤ active (now.val - start.1) total start.2) := by
  obtain ⟨paused, resident, evicted, cancelled, _⟩ := s
  cases hevicted
  cases hcancelled
  show (interp (TokenOp.run ()) (if timeout ≤ _ then (_ : TokenM (Bool × UpdateDeadline))
    else _) _).1.1 = _
  split <;> rename_i h
  · exact (decide_eq_true h).symm
  · cases paused <;> exact (decide_eq_false h).symm

/-- The callback from its second reading on, computed. -/
theorem epoch_decision_alone (s : Tokens Unit) (now : Instant) (start : ℕ × ℕ)
    (timeout total : ℕ) :
    (alone (epoch_decision start timeout total) now s).1.1 = true ↔
      s.evicted = false ∧ s.cancelled = false ∧
        timeout ≤ active (now.val - start.1) total start.2 := by
  cases hevicted : s.evicted with
  | true =>
    obtain ⟨paused, resident, evicted, cancelled, _⟩ := s
    cases hevicted
    exact ⟨nofun, fun h => nomatch h.1⟩
  | false =>
    cases hcancelled : s.cancelled with
    | true =>
      obtain ⟨paused, resident, evicted, cancelled, _⟩ := s
      cases hevicted
      cases hcancelled
      exact ⟨nofun, fun h => nomatch h.2.1⟩
    | false =>
      rw [epoch_decision_clear hevicted hcancelled, decide_eq_true_iff]
      simp only [true_and]

/-- The callback's arithmetic: of the time since the start it leaves what was not paused, and what
was paused between the two readings of the start and between its own. -/
theorem active_split (calls : List (Instant × TokenCall)) {started baseline_at total_at : ℕ}
    (hstart : started ≤ baseline_at) (hmid : baseline_at ≤ total_at) (hnow : total_at ≤ now) :
    active (now - started) (pausedTime calls 0 total_at) (pausedTime calls 0 baseline_at)
      = activeTime calls started now + pausedTime calls started baseline_at
        + pausedTime calls total_at now := by
  have hbaseline := pausedTime_add calls (Nat.zero_le baseline_at) hmid
  have hwhole := pausedTime_add calls hstart (hmid.trans hnow)
  have hend := pausedTime_add calls hmid hnow
  have hsum := pausedTime_add_activeTime calls started now
  unfold active
  omega

/-- Whatever the clock says between two calls, the next one or the next part of a method reads it
anew. -/
theorem alone_foldl_now {α : Type} (p : TokenM α) (now : Instant)
    (calls : List (Instant × TokenCall)) (s : Tokens Unit) (n : ℕ) :
    alone p now (calls.foldl perform_call { s with now := n })
      = alone p now (calls.foldl perform_call s) := by
  cases calls <;> rfl

theorem after_append (calls later : List (Instant × TokenCall)) :
    later.foldl perform_call (after calls) = after (calls ++ later) := List.foldl_append.symm

/-- The record at a reading of the clock gives the paused time up to it, whatever is called
later. -/
theorem total_eq_pausedTime {early late : List (Instant × TokenCall)} {now : Instant}
    (hearly : Ordered early now.val) (hlate : ∀ c ∈ late, now.val ≤ c.1.val) :
    min ((after early).timing.total now.val) DURATION_MAX
      = pausedTime (early ++ late) 0 now.val := by
  have hle := pausedTime_le early 0 now.val
  have hmax := Nat.le_of_lt_succ now.isLt
  rw [(told hearly).total_eq, pausedTime_append hlate]
  exact Nat.min_eq_left (by omega)

/-- Reading the total leaves the tokens as they were, but for the clock. -/
theorem unlocked_after {calls : List (Instant × TokenCall)} {now : Instant}
    (h : Ordered calls now.val) : ({ after calls with timing_lock := none, now := now.val } :
      Tokens Unit) = { after calls with now := now.val } := by
  rw [← (told h).idle.unlocked]

/-- Readings in order, the last of them `now`. -/
theorem Ordered.of_readings {calls : List (Instant × TokenCall)} {now : Instant}
    (h : (calls.map Prod.fst ++ [now]).Pairwise (· ≤ ·)) : Ordered calls now.val := by
  obtain ⟨hcalls, -, hnow⟩ := List.pairwise_append.mp h
  refine ⟨List.pairwise_map.mpr ((List.pairwise_map.mp hcalls).imp fun h => h), fun c hc => ?_⟩
  exact hnow c.1 (List.mem_map_of_mem hc) now (List.mem_singleton_self now)

namespace Schedule

variable (σ : Schedule)

/-- What was called by the second reading of the start. -/
theorem ordered_baseline : Ordered (σ.before ++ σ.starting) σ.baseline_at.val := by
  refine .of_readings (σ.monotone.sublist ?_)
  rw [List.map_append, List.append_assoc]
  exact .append_left (.cons _ (.append_left (.cons_cons _ (List.nil_sublist _)) _)) _

/-- What was called by the first reading of the callback. -/
theorem ordered_total : Ordered (σ.before ++ (σ.starting ++ σ.between)) σ.total_at.val := by
  refine .of_readings (σ.monotone.sublist ?_)
  rw [List.map_append, List.map_append, List.append_assoc, List.append_assoc]
  exact .append_left (.cons _ (.append_left (.cons _ (.append_left
    (.cons_cons _ (List.nil_sublist _)) _)) _)) _

/-- Nothing after a reading is at an earlier one. -/
theorem readings_le : σ.started ≤ σ.baseline_at ∧
    (∀ c ∈ σ.between ++ σ.meanwhile, σ.baseline_at ≤ c.1) ∧ σ.baseline_at ≤ σ.total_at ∧
    (∀ c ∈ σ.meanwhile, σ.total_at ≤ c.1) ∧ σ.total_at ≤ σ.now := by
  have hstarted := List.pairwise_cons.mp (List.pairwise_append.mp σ.monotone).2.1
  have hbaseline := List.pairwise_cons.mp (List.pairwise_append.mp hstarted.2).2.1
  have htotal := List.pairwise_cons.mp (List.pairwise_append.mp hbaseline.2).2.1
  refine ⟨hstarted.1 _ (by simp), fun c hc => hbaseline.1 _ ?_, hbaseline.1 _ (by simp),
    fun c hc => htotal.1 _ ?_, htotal.1 _ (by simp)⟩
  · rcases List.mem_append.mp hc with hc | hc
    · exact List.mem_append_left _ (List.mem_map_of_mem hc)
    · exact List.mem_append_right _ (.tail _ (List.mem_append_left _ (List.mem_map_of_mem hc)))
  · exact List.mem_append_left _ (List.mem_map_of_mem hc)

/-- The total that the start reads. -/
theorem total_baseline : min ((after (σ.before ++ σ.starting)).timing.total σ.baseline_at.val)
    DURATION_MAX = pausedTime σ.calls 0 σ.baseline_at.val := by
  rw [total_eq_pausedTime σ.ordered_baseline σ.readings_le.2.1, List.append_assoc]
  rfl

/-- The total that the callback reads. -/
theorem total_callback :
    min ((after (σ.before ++ (σ.starting ++ σ.between))).timing.total σ.total_at.val) DURATION_MAX
      = pausedTime σ.calls 0 σ.total_at.val := by
  rw [total_eq_pausedTime σ.ordered_total σ.readings_le.2.2.2.1, List.append_assoc,
    List.append_assoc]
  rfl

/-- The start of the invocation: its stamp, and the time paused by its second reading. -/
theorem begun_eq : σ.begun = ((σ.started.val, pausedTime σ.calls 0 σ.baseline_at.val),
    { after (σ.before ++ σ.starting) with now := σ.baseline_at.val }) := by
  show alone (read_baseline σ.started.val) σ.baseline_at (σ.starting.foldl perform_call
    { after σ.before with now := σ.started.val }) = _
  rw [alone_foldl_now, after_append, read_baseline_alone, σ.total_baseline,
    unlocked_after σ.ordered_baseline]

/-- The callback: the time paused by its first reading, and its decision at the second. -/
theorem callback_eq (timeout : ℕ) : σ.callback timeout
    = alone (epoch_decision σ.begun.1 timeout (pausedTime σ.calls 0 σ.total_at.val)) σ.now
        (after σ.calls) := by
  have hstate : alone PauseToken.total_paused σ.total_at (σ.between.foldl perform_call σ.begun.2)
      = (pausedTime σ.calls 0 σ.total_at.val,
        { after (σ.before ++ (σ.starting ++ σ.between)) with now := σ.total_at.val }) := by
    rw [begun_eq, alone_foldl_now, after_append, List.append_assoc, total_paused_alone,
      σ.total_callback, unlocked_after σ.ordered_total]
  unfold callback paced
  rw [hstate]
  dsimp only
  rw [alone_foldl_now, after_append, List.append_assoc, List.append_assoc]
  rfl

/-- `total_paused` is the time during which the token was paused, a pause that is still open
counted up to now: at the reading of the start, and at that of the callback. It never goes back
and never gains more than the time that passes. The callback sets `timed_out` exactly if the
token is neither evicted nor cancelled, and the time since the start during which it was not
paused, with what was paused between the two readings of the start and between the two of the
callback, has reached the timeout. -/
theorem timed_out_iff (timeout : ℕ) :
    let total := (alone PauseToken.total_paused σ.baseline_at
      (after (σ.before ++ σ.starting))).1
    let total' := (alone PauseToken.total_paused σ.total_at
      (after (σ.before ++ (σ.starting ++ σ.between)))).1
    total = pausedTime σ.calls 0 σ.baseline_at.val ∧
      total' = pausedTime σ.calls 0 σ.total_at.val ∧
      total ≤ total' ∧ total' ≤ total + (σ.total_at.val - σ.baseline_at.val) ∧
      total' ≤ σ.total_at.val ∧
      (σ.timed_out timeout = true ↔
        (after σ.calls).evicted = false ∧ (after σ.calls).cancelled = false ∧
          timeout ≤ activeTime σ.calls σ.started.val σ.now.val
            + pausedTime σ.calls σ.started.val σ.baseline_at.val
            + pausedTime σ.calls σ.total_at.val σ.now.val) := by
  intro total total'
  obtain ⟨hstart, -, hmid, -, hnow⟩ := σ.readings_le
  have htotal : total = pausedTime σ.calls 0 σ.baseline_at.val := by
    show (alone PauseToken.total_paused _ _).1 = _
    rw [total_paused_alone]
    exact σ.total_baseline
  have htotal' : total' = pausedTime σ.calls 0 σ.total_at.val := by
    show (alone PauseToken.total_paused _ _).1 = _
    rw [total_paused_alone]
    exact σ.total_callback
  have hsplit := pausedTime_add σ.calls (Nat.zero_le σ.baseline_at.val) hmid
  have hgain := pausedTime_le σ.calls σ.baseline_at.val σ.total_at.val
  have helapsed := pausedTime_le σ.calls 0 σ.total_at.val
  refine ⟨htotal, htotal', by omega, by omega, by omega, ?_⟩
  rw [timed_out, callback_eq, epoch_decision_alone, begun_eq,
    ← active_split σ.calls hstart hmid hnow]

end Schedule

/-! ## A pause between two readings

The callback's clock moves on while the token is paused. -/

/-- The `n`th nanosecond, for a small `n`. -/
def nanosecond (n : Fin 256) : Instant := ⟨n.val, n.isLt.trans (by decide)⟩

/-- A token that is paused throughout; the clock moves on by three nanoseconds between the two
readings of the callback. -/
def slowCallback : Schedule where
  before := [(nanosecond 0, .pause)]
  started := nanosecond 5
  starting := []
  baseline_at := nanosecond 5
  between := []
  total_at := nanosecond 10
  meanwhile := []
  now := nanosecond 13
  monotone := by decide +kernel

/-- The timeout of three nanoseconds is raised although the token was never active. -/
theorem paused_between_readings_counts :
    slowCallback.timed_out 3 = true ∧
      activeTime slowCallback.calls slowCallback.started.val slowCallback.now.val = 0 := by
  decide +kernel

end WasmRuntime.Token
