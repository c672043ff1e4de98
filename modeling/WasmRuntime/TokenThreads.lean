/-
The methods of the tokens as threads, at the granularity of single operations.

One thread is a task in `wait` or in `cancelled`; the others make calls of `pause`, `resume`,
`mark_resident`, `evict` and `cancel`, any number of them. They interleave in every way that the
mutex around the timing record allows, and the clock moves on whenever it likes.
-/
import Mathlib.Logic.Function.Basic
import WasmRuntime.Tasks
import WasmRuntime.Tokens

set_option autoImplicit false

namespace WasmRuntime.Token

open Prog Function

/-! ## History

The state is extended by a history that no operation reads. It says who still owes a notification,
having stored what should release a waiter; who has stored `evicted` and has not yet cancelled; and
whether the pause that a thread measured last is still going on. -/

/-- The tokens and their history. -/
structure Traced (ι : Type) extends Tokens ι where
  /-- The thread has ended a pause and has yet to call `notify_waiters`. -/
  owes : ι → Bool
  /-- The thread has cancelled and has yet to call `notify_waiters` of that token. -/
  owes_cancel : ι → Bool
  /-- The thread has stored `evicted` and has yet to cancel. -/
  evicting : ι → Bool
  /-- The pause whose start the thread read last has not ended since. -/
  current : ι → Bool

/-- Fresh tokens. -/
def Traced.new {ι : Type} (now : ℕ) (random : Fin 3) : Traced ι where
  toTokens := .new now random
  owes _ := false
  owes_cancel _ := false
  evicting _ := false
  current _ := false

section Threads

variable {ι : Type}

namespace TokenOp

variable [DecidableEq ι]

/-- Who owes a notification after an operation of `me`. -/
def owes (me : ι) (s : Traced ι) : TokenOp → ι → Bool
  | .swap_paused false => if s.paused then update s.owes me true else s.owes
  | .notify_waiters => update s.owes me false
  | _ => s.owes

/-- Who owes a notification of the cancellation. -/
def owes_cancel (me : ι) (s : Traced ι) : TokenOp → ι → Bool
  | .store_cancelled => update s.owes_cancel me true
  | .cancel_notify_waiters => update s.owes_cancel me false
  | _ => s.owes_cancel

/-- Who is between storing `evicted` and cancelling. -/
def evicting (me : ι) (s : Traced ι) : TokenOp → ι → Bool
  | .store_evicted => update s.evicting me true
  | .store_cancelled => update s.evicting me false
  | _ => s.evicting

/-- Whose measured pause is still going on. -/
def current (me : ι) (s : Traced ι) : TokenOp → ι → Bool
  | .swap_paused false => if s.paused then fun _ => false else s.current
  | .read_timing => update s.current me s.timing.paused_at.isSome
  | _ => s.current

/-- An operation with its history. -/
def trace (me : ι) (s : Traced ι) (op : TokenOp) : Traced ι where
  toTokens := (op.run me s.toTokens).2
  owes := op.owes me s
  owes_cancel := op.owes_cancel me s
  evicting := op.evicting me s
  current := op.current me s

end TokenOp

/-! ## What is so at every moment

While a flag and its notification are out of step, somebody owes the notification. -/

/-- The start stamp is there while paused. -/
def Traced.Stamped (s : Traced ι) : Prop := s.timing.paused_at.isSome = s.paused

/-- The invariant of the tokens. -/
structure Traced.Sound (s : Traced ι) : Prop where
  /-- An evicted token is cancelled, or is about to be. -/
  evicted : s.evicted = true → s.cancelled = true ∨ ∃ i, s.evicting i = true
  stamped : s.timing_lock = none → s.Stamped
  started : ∀ started, s.timing.paused_at = some started → started ≤ s.now
  current : ∀ i, s.current i = true → s.paused = true

/-- A notification that was created when the notifier stood at `since`, by one who then found
the token paused: once the token is resumed it has come, or someone owes it. -/
structure Traced.Awaits (since : ℕ) (s : Traced ι) : Prop where
  created : since ≤ s.notify
  released : s.paused = false → since < s.notify ∨ ∃ i, s.owes i = true

/-- The same for the cancellation. -/
structure Traced.AwaitsCancel (since : ℕ) (s : Traced ι) : Prop where
  created : since ≤ s.cancel_notify
  released : s.cancelled = true → since < s.cancel_notify ∨ ∃ i, s.owes_cancel i = true

/-- As long as it goes on, the pause that thread `i` measured is the one that began at
`started`. -/
def Traced.Measured (i : ι) (started : ℕ) (s : Traced ι) : Prop :=
  s.current i = true → s.timing.paused_at = some started

/-! ## What a thread relies on

One relation, `Rely`: what it awaits stays awaited, a pause that it measured stays as it was until
it ends, and what is under the mutex does not change while the thread holds it. -/

/-- What may happen to the state between two operations of thread `i`. -/
structure Rely (i : ι) (s s' : Traced ι) : Prop where
  now : s.now ≤ s'.now
  notify : s.notify ≤ s'.notify
  cancel_notify : s.cancel_notify ≤ s'.cancel_notify
  sound : s.Sound → s'.Sound
  awaits : ∀ since, s.Awaits since → s'.Awaits since
  awaits_cancel : ∀ since, s.AwaitsCancel since → s'.AwaitsCancel since
  measured : ∀ started, s.Measured i started → s'.Measured i started
  owes : s'.owes i = s.owes i
  owes_cancel : s'.owes_cancel i = s.owes_cancel i
  evicting : s'.evicting i = s.evicting i
  unheld : s.timing_lock ≠ some i → s'.timing_lock ≠ some i
  held : s.timing_lock = some i → s'.timing_lock = some i ∧ s'.timing = s.timing ∧
    s'.paused = s.paused ∧ s'.current = s.current

theorem Rely.refl (i : ι) (s : Traced ι) : Rely i s s where
  now := Nat.le_refl _
  notify := Nat.le_refl _
  cancel_notify := Nat.le_refl _
  sound := id
  awaits _ := id
  awaits_cancel _ := id
  measured _ := id
  owes := rfl
  owes_cancel := rfl
  evicting := rfl
  unheld := id
  held h := ⟨h, rfl, rfl, rfl⟩

/-- What two others do, one after the other. -/
theorem Rely.trans {i : ι} {s s' s'' : Traced ι} (h : Rely i s s') (h' : Rely i s' s'') :
    Rely i s s'' where
  now := Nat.le_trans h.now h'.now
  notify := Nat.le_trans h.notify h'.notify
  cancel_notify := Nat.le_trans h.cancel_notify h'.cancel_notify
  sound hs := h'.sound (h.sound hs)
  awaits since hs := h'.awaits since (h.awaits since hs)
  awaits_cancel since hs := h'.awaits_cancel since (h.awaits_cancel since hs)
  measured started hs := h'.measured started (h.measured started hs)
  owes := h'.owes.trans h.owes
  owes_cancel := h'.owes_cancel.trans h.owes_cancel
  evicting := h'.evicting.trans h.evicting
  unheld hs := h'.unheld (h.unheld hs)
  held hs := by
    obtain ⟨hlock, htiming, hpaused, hcurrent⟩ := h.held hs
    obtain ⟨hlock', htiming', hpaused', hcurrent'⟩ := h'.held hlock
    exact ⟨hlock', htiming'.trans htiming, hpaused'.trans hpaused, hcurrent'.trans hcurrent⟩

/-- The clock moves on, and the next random number is another. -/
def elapse (s s' : Traced ι) : Prop :=
  ∃ now random, s.now ≤ now ∧ s' = { s with now, random }

/-- Time passes. -/
theorem Rely.elapse {i : ι} {s s' : Traced ι} (h : elapse s s') : Rely i s s' := by
  obtain ⟨now, random, hle, rfl⟩ := h
  exact {
    now := hle
    notify := Nat.le_refl _
    cancel_notify := Nat.le_refl _
    sound := fun h =>
      ⟨h.evicted, h.stamped, fun started hat => Nat.le_trans (h.started started hat) hle, h.current⟩
    awaits := fun _ h => ⟨h.created, h.released⟩
    awaits_cancel := fun _ h => ⟨h.created, h.released⟩
    measured := fun _ => id
    owes := rfl
    owes_cancel := rfl
    evicting := rfl
    unheld := id
    held := fun h => ⟨h, rfl, rfl, rfl⟩ }

/-! ## What a thread knows

By whether it holds the mutex, and what it owes. -/

/-- What a thread owes: a notification, one of the cancellation, a cancellation. -/
structure Debts where
  owes : Bool
  owes_cancel : Bool
  evicting : Bool

/-- A thread without debts. -/
def Debts.none : Debts := ⟨false, false, false⟩

/-- A thread that does not hold the mutex. -/
structure Traced.Outside (i : ι) (debts : Debts) (s : Traced ι) : Prop where
  sound : s.Sound
  unheld : s.timing_lock ≠ some i
  owes : s.owes i = debts.owes
  owes_cancel : s.owes_cancel i = debts.owes_cancel
  evicting : s.evicting i = debts.evicting

/-- A thread that holds the mutex and owes at most a notification, with what is under it. -/
structure Traced.Inside (i : ι) (owing paused : Bool) (paused_at : Option ℕ) (s : Traced ι) :
    Prop where
  sound : s.Sound
  held : s.timing_lock = some i
  owes : s.owes i = owing
  owes_cancel : s.owes_cancel i = false
  evicting : s.evicting i = false
  paused : s.paused = paused
  paused_at : s.timing.paused_at = paused_at

/-- The same, when nobody's measured pause goes on. -/
structure Traced.Alone (i : ι) (owing paused : Bool) (paused_at : Option ℕ) (s : Traced ι) :
    Prop extends s.Inside i owing paused paused_at where
  unmeasured : ∀ j, s.current j = false

/-- If the pause that thread `i` measured still goes on, it has lasted `resident_ttl`. -/
def Traced.Due (resident_ttl : ℕ) (i : ι) (s : Traced ι) : Prop :=
  ∃ started, s.Measured i started ∧ started + resident_ttl ≤ s.now

section Stable

variable {i : ι} {s s' : Traced ι} {owing paused : Bool} {paused_at : Option ℕ}

/-- Outside the mutex a thread keeps its debts. -/
theorem Traced.Outside.stable {debts : Debts} (hrely : Rely i s s') (h : s.Outside i debts) :
    s'.Outside i debts :=
  ⟨hrely.sound h.sound, hrely.unheld h.unheld, hrely.owes.trans h.owes,
    hrely.owes_cancel.trans h.owes_cancel, hrely.evicting.trans h.evicting⟩

/-- Inside nobody else moves the record. -/
theorem Traced.Inside.stable (hrely : Rely i s s') (h : s.Inside i owing paused paused_at) :
    s'.Inside i owing paused paused_at := by
  obtain ⟨hlock, htiming, hpaused, -⟩ := hrely.held h.held
  exact ⟨hrely.sound h.sound, hlock, hrely.owes.trans h.owes,
    hrely.owes_cancel.trans h.owes_cancel, hrely.evicting.trans h.evicting,
    hpaused.trans h.paused, htiming ▸ h.paused_at⟩

theorem Traced.Alone.stable (hrely : Rely i s s') (h : s.Alone i owing paused paused_at) :
    s'.Alone i owing paused paused_at := by
  obtain ⟨-, -, -, hcurrent⟩ := hrely.held h.held
  exact ⟨h.toInside.stable hrely, fun j => hcurrent ▸ h.unmeasured j⟩

theorem Traced.Due.stable {resident_ttl : ℕ} (hrely : Rely i s s')
    (h : s.Due resident_ttl i) : s'.Due resident_ttl i := by
  obtain ⟨started, hmeasured, hdue⟩ := h
  exact ⟨started, hrely.measured started hmeasured, Nat.le_trans hdue hrely.now⟩

/-- A token that is not paused has no measured pause that goes on. -/
theorem Traced.Sound.unmeasured (h : s.Sound) (hpaused : s.paused = false) (j : ι) :
    s.current j = false := by
  cases hcurrent : s.current j with
  | false => rfl
  | true => exact absurd ((h.current j hcurrent).symm.trans hpaused) nofun

end Stable

/-! ## What an operation does to the others

Field by field of the relation, for every operation that keeps the discipline of the mutex. -/

/-- The discipline of the mutex: what may be done only while holding it, and in which state. -/
def TokenOp.Allowed (i : ι) (s : Traced ι) : TokenOp → Prop
  | .swap_paused _ | .add_completed _ => s.timing_lock = some i
  | .read_timing | .unlock_timing => s.timing_lock = some i ∧ s.Stamped
  | .take_paused_at => s.timing_lock = some i ∧ ∀ j, s.current j = false
  | .write_paused_at started =>
    (s.timing_lock = some i ∧ ∀ j, s.current j = false) ∧ started ≤ s.now
  | _ => True

namespace TokenOp

variable [DecidableEq ι] {i j : ι} {s : Traced ι} {op : TokenOp}

/-- Every operation keeps what is awaited: the one that ends a pause owes the notification. -/
theorem trace_awaits (i : ι) (op : TokenOp) {since : ℕ} (h : s.Awaits since) :
    (op.trace i s).Awaits since := by
  obtain ⟨hcreated, hreleased⟩ := h
  cases op with
  | swap_paused value =>
    cases value with
    | true => exact ⟨hcreated, fun h => nomatch h⟩
    | false =>
      refine ⟨hcreated, fun _ => ?_⟩
      cases hpaused : s.paused with
      | true => exact .inr ⟨i, by simp [trace, owes, hpaused]⟩
      | false =>
        have hsame : (swap_paused false).owes i s = s.owes := by simp [owes, hpaused]
        show since < s.notify ∨ ∃ j, (swap_paused false).owes i s j = true
        rw [hsame]
        exact hreleased hpaused
  | notify_waiters => exact ⟨Nat.le_succ_of_le hcreated, fun _ => .inl (Nat.lt_succ_of_le hcreated)⟩
  | _ => exact ⟨hcreated, hreleased⟩

/-- The one that cancels owes that notification. -/
theorem trace_awaits_cancel (i : ι) (op : TokenOp) {since : ℕ} (h : s.AwaitsCancel since) :
    (op.trace i s).AwaitsCancel since := by
  obtain ⟨hcreated, hreleased⟩ := h
  cases op with
  | store_cancelled =>
    exact ⟨hcreated, fun _ => .inr ⟨i, by simp [trace, owes_cancel]⟩⟩
  | cancel_notify_waiters =>
    exact ⟨Nat.le_succ_of_le hcreated, fun _ => .inl (Nat.lt_succ_of_le hcreated)⟩
  | _ => exact ⟨hcreated, hreleased⟩

/-- The invariant. -/
theorem trace_sound (h : s.Sound) (hallowed : op.Allowed i s) : (op.trace i s).Sound := by
  obtain ⟨hevicted, hstamped, hstarted, hcurrent⟩ := h
  cases op with
  | swap_paused value =>
    have hheld : s.timing_lock = some i := hallowed
    refine ⟨hevicted, fun h => absurd (hheld.symm.trans h) nofun, hstarted, ?_⟩
    cases value with
    | true => exact fun _ _ => rfl
    | false =>
      -- Nobody's measured pause goes on: this operation ends it, or there was none.
      intro j hj
      cases hpaused : s.paused with
      | true => simp [trace, current, hpaused] at hj
      | false =>
        have hsame : s.current j = true := by simpa [trace, current, hpaused] using hj
        exact absurd (hcurrent j hsame) (by rw [hpaused]; exact Bool.false_ne_true)
  | store_evicted =>
    exact ⟨fun _ => .inr ⟨i, by simp [trace, evicting]⟩, hstamped, hstarted, hcurrent⟩
  | store_cancelled => exact ⟨fun _ => .inl rfl, hstamped, hstarted, hcurrent⟩
  | lock_timing => exact ⟨hevicted, (fun h => nomatch h), hstarted, hcurrent⟩
  | unlock_timing => exact ⟨hevicted, fun _ => hallowed.2, hstarted, hcurrent⟩
  | read_timing =>
    refine ⟨hevicted, hstamped, hstarted, ?_⟩
    intro j hj
    by_cases hji : j = i
    · subst hji
      have hsome : s.timing.paused_at.isSome = true := by simpa [trace, current] using hj
      exact hallowed.2.symm.trans hsome
    · exact hcurrent j (by simpa [trace, current, update_of_ne hji] using hj)
  | take_paused_at =>
    exact ⟨hevicted, fun h => absurd (hallowed.1.symm.trans h) nofun, nofun, hcurrent⟩
  | write_paused_at at_ =>
    refine ⟨hevicted, fun h => absurd (hallowed.1.1.symm.trans h) nofun, ?_, hcurrent⟩
    rintro started ⟨⟩
    exact hallowed.2
  | _ => exact ⟨hevicted, hstamped, hstarted, hcurrent⟩

/-- A pause that another thread measured is left as it is, or ends. -/
theorem trace_measured (hj : j ≠ i) (hallowed : op.Allowed i s) {started : ℕ}
    (h : s.Measured j started) : (op.trace i s).Measured j started := by
  cases op with
  | swap_paused value =>
    cases value with
    | true => exact h
    | false =>
      intro hcurrent
      cases hpaused : s.paused with
      | true => simp [trace, current, hpaused] at hcurrent
      | false => exact h (by simpa [trace, current, hpaused] using hcurrent)
  | read_timing =>
    intro hcurrent
    exact h (by simpa [trace, current, update_of_ne hj] using hcurrent)
  | take_paused_at =>
    intro hcurrent
    exact absurd ((hallowed.2 j).symm.trans hcurrent) nofun
  | write_paused_at at_ =>
    intro hcurrent
    exact absurd ((hallowed.1.2 j).symm.trans hcurrent) nofun
  | _ => exact h

/-- What a thread owes is its own affair. -/
theorem trace_own (hj : j ≠ i) (op : TokenOp) :
    (op.trace i s).owes j = s.owes j ∧ (op.trace i s).owes_cancel j = s.owes_cancel j ∧
      (op.trace i s).evicting j = s.evicting j := by
  cases op with
  | swap_paused value =>
    cases value with
    | true => exact ⟨rfl, rfl, rfl⟩
    | false =>
      refine ⟨?_, rfl, rfl⟩
      cases hpaused : s.paused <;> simp [trace, owes, hpaused, update_of_ne hj]
  | notify_waiters => exact ⟨update_of_ne hj _ _, rfl, rfl⟩
  | store_cancelled => exact ⟨rfl, update_of_ne hj _ _, update_of_ne hj _ _⟩
  | cancel_notify_waiters => exact ⟨rfl, update_of_ne hj _ _, rfl⟩
  | store_evicted => exact ⟨rfl, rfl, update_of_ne hj _ _⟩
  | _ => exact ⟨rfl, rfl, rfl⟩

/-- The mutex and what is under it. -/
theorem trace_lock (hj : j ≠ i) (henabled : op.Enabled s.toTokens) (hallowed : op.Allowed i s) :
    (s.timing_lock ≠ some j → (op.trace i s).timing_lock ≠ some j) ∧
      (s.timing_lock = some j → (op.trace i s).timing_lock = some j ∧
        (op.trace i s).timing = s.timing ∧ (op.trace i s).paused = s.paused ∧
        (op.trace i s).current = s.current) := by
  have hother : some i ≠ some j := fun h => hj (Option.some.inj h).symm
  cases op with
  | lock_timing =>
    have hfree : s.timing_lock = none := henabled
    exact ⟨fun _ => hother, fun h => absurd (hfree.symm.trans h) nofun⟩
  | unlock_timing => exact ⟨fun _ => nofun, fun h => absurd (hallowed.1.symm.trans h) hother⟩
  | swap_paused value => exact ⟨id, fun h => absurd (Eq.trans (Eq.symm hallowed) h) hother⟩
  | add_completed duration => exact ⟨id, fun h => absurd (Eq.trans (Eq.symm hallowed) h) hother⟩
  | read_timing => exact ⟨id, fun h => absurd (hallowed.1.symm.trans h) hother⟩
  | take_paused_at => exact ⟨id, fun h => absurd (hallowed.1.symm.trans h) hother⟩
  | write_paused_at at_ => exact ⟨id, fun h => absurd (hallowed.1.1.symm.trans h) hother⟩
  | _ => exact ⟨id, fun h => ⟨h, rfl, rfl, rfl⟩⟩

theorem trace_now (i : ι) (s : Traced ι) (op : TokenOp) : (op.trace i s).now = s.now := by
  cases op <;> rfl

theorem trace_notify (i : ι) (s : Traced ι) (op : TokenOp) :
    s.notify ≤ (op.trace i s).notify ∧ s.cancel_notify ≤ (op.trace i s).cancel_notify := by
  cases op with
  | notify_waiters => exact ⟨Nat.le_succ _, Nat.le_refl _⟩
  | cancel_notify_waiters => exact ⟨Nat.le_refl _, Nat.le_succ _⟩
  | _ => exact ⟨Nat.le_refl _, Nat.le_refl _⟩

/-- An operation that keeps the discipline is one that the others rely on. -/
theorem trace_rely (hj : j ≠ i) (henabled : op.Enabled s.toTokens) (hallowed : op.Allowed i s) :
    Rely j s (op.trace i s) where
  now := Nat.le_of_eq (trace_now i s op).symm
  notify := (trace_notify i s op).1
  cancel_notify := (trace_notify i s op).2
  sound h := trace_sound h hallowed
  awaits _ h := trace_awaits i op h
  awaits_cancel _ h := trace_awaits_cancel i op h
  measured _ h := trace_measured hj hallowed h
  owes := (trace_own hj op).1
  owes_cancel := (trace_own hj op).2.1
  evicting := (trace_own hj op).2.2
  unheld := (trace_lock hj henabled hallowed).1
  held := (trace_lock hj henabled hallowed).2

end TokenOp

/-! ## The logic

One rule for an operation (`safe_vis`), and from it a rule for each kind, for the calls and for the
blocks. -/

section Logic

variable [DecidableEq ι]

/-- What is promised of the operations of the waiting thread: it parks only when whatever
should release it is seen or owed, and it evicts only when the pause that it measured is due. -/
def TokenOp.Promise (resident_ttl : ℕ) (w : ι) (s : Traced ι) : TokenOp → Prop
  | .park woken stopped =>
    s.Outside w .none ∧ (∀ since ∈ woken, s.Awaits since) ∧
      ∃ since ∈ stopped, s.AwaitsCancel since
  | .store_evicted => s.Sound ∧ s.Due resident_ttl w
  | _ => True

/-- The logic of thread `i`, where `w` is the thread that waits. -/
def tokenLogic (resident_ttl : ℕ) (w i : ι) : Rg (Traced ι) TokenOp TokenOp.Answer where
  rely := Rely i
  step s op r s' := op.Enabled s.toTokens ∧ r = (op.run i s.toTokens).1 ∧ s' = op.trace i s
  guar s op _ s' := (∀ j, j ≠ i → Rely j s s') ∧ (i = w → op.Promise resident_ttl w s)
  rely_refl := Rely.refl i
  rely_trans _ _ _ := Rely.trans

variable {resident_ttl : ℕ} {w i : ι} {s : Traced ι} {α : Type}

variable {Q : α → Traced ι → Prop} {op : TokenOp} {k : op.Answer → TokenM α} {A : Traced ι → Prop}
  {since : ℕ} {futures : Select} {rest : List Branch}

/-- One operation: from an assertion that survives the others, that it is allowed, what is
promised of it, and the rest of the program. -/
theorem safe_vis (hstable : ∀ s s', Rely i s s' → A s → A s') (hs : A s)
    (hop : ∀ s, A s → op.Enabled s.toTokens → op.Allowed i s ∧
      (i = w → op.Promise resident_ttl w s) ∧
      (tokenLogic resident_ttl w i).Safe Q (k (op.run i s.toTokens).1) (op.trace i s)) :
    (tokenLogic resident_ttl w i).Safe Q (.vis op k) s := by
  rintro s₁ hrely r s₂ ⟨henabled, rfl, rfl⟩
  obtain ⟨hallowed, hpromise, hrest⟩ := hop s₁ (hstable s s₁ hrely hs) henabled
  exact ⟨⟨fun j hj => TokenOp.trace_rely hj henabled hallowed, hpromise⟩, hrest⟩

/-- What an operation under the mutex does to the debt and to the stamp. -/
inductive Under : TokenOp → Bool → Option ℕ → Bool → Option ℕ → Prop where
  | store_resident (value owing : Bool) (paused_at : Option ℕ) :
      Under (.store_resident value) owing paused_at owing paused_at
  | now (owing : Bool) (paused_at : Option ℕ) : Under .now owing paused_at owing paused_at
  | add_completed (duration : ℕ) (owing : Bool) (paused_at : Option ℕ) :
      Under (.add_completed duration) owing paused_at owing paused_at
  | take (owing : Bool) (paused_at : Option ℕ) : Under .take_paused_at owing paused_at owing none
  | notify (owing : Bool) (paused_at : Option ℕ) :
      Under .notify_waiters owing paused_at false paused_at

/-- What an operation does to the debts of the thread. -/
def TokenOp.debts : TokenOp → Debts → Debts
  | .notify_waiters, debts => { debts with owes := false }
  | .store_cancelled, debts => { debts with owes_cancel := true, evicting := false }
  | .cancel_notify_waiters, debts => { debts with owes_cancel := false }
  | .store_evicted, debts => { debts with evicting := true }
  | _, debts => debts

/-- The operation needs no mutex. -/
def TokenOp.Free : TokenOp → Prop
  | .swap_paused _ | .lock_timing | .unlock_timing | .read_timing | .take_paused_at
  | .write_paused_at _ | .add_completed _ => False
  | _ => True

/-! ### Without the mutex

Loads, stores and notifications, which are single operations. -/

theorem outside_step {debts : Debts} (hfree : op.Free) (hs : s.Outside i debts) :
    op.Allowed i s ∧ (op.trace i s).Outside i (op.debts debts) := by
  have hallowed : op.Allowed i s := by
    cases op <;> trivial
  refine ⟨hallowed, TokenOp.trace_sound hs.sound hallowed, ?_, ?_, ?_, ?_⟩
  · cases op <;> first | exact hs.unheld | exact hfree.elim
  · cases op <;> first | exact hs.owes | exact hfree.elim | exact Function.update_self ..
  · cases op <;> first | exact hs.owes_cancel | exact hfree.elim | exact Function.update_self ..
  · cases op <;> first | exact hs.evicting | exact hfree.elim | exact Function.update_self ..

/-- An operation without the mutex, before the rest. -/
theorem outside_then {debts : Debts} (hs : s.Outside i debts) (hfree : op.Free)
    (hpromise : ∀ s : Traced ι, op.Promise resident_ttl w s)
    (hk : ∀ r s, s.Outside i (op.debts debts) → (tokenLogic resident_ttl w i).Safe Q (k r) s) :
    (tokenLogic resident_ttl w i).Safe Q (.vis op k) s := by
  refine safe_vis (fun _ _ => Traced.Outside.stable) hs ?_
  intro s hs _
  obtain ⟨hallowed, hnext⟩ := outside_step hfree hs
  exact ⟨hallowed, fun _ => hpromise s, hk _ _ hnext⟩

/-! ### The mutex

Between taking it and giving it back the timing record is the thread's own. -/

section Rules

variable {Q : α → Traced ι → Prop} {owing paused : Bool} {paused_at : Option ℕ}

/-- Who takes the mutex finds the record in order. -/
theorem lock_then {k : Unit → TokenM α} (hs : s.Outside i .none)
    (hk : ∀ paused paused_at s, s.Inside i false paused paused_at → paused_at.isSome = paused →
      (tokenLogic resident_ttl w i).Safe Q (k ()) s) :
    (tokenLogic resident_ttl w i).Safe Q (.vis .lock_timing k) s := by
  refine safe_vis (fun _ _ => Traced.Outside.stable) hs ?_
  intro s hs henabled
  refine ⟨trivial, fun _ => trivial, ?_⟩
  refine hk s.paused s.timing.paused_at _ ?_ (hs.sound.stamped henabled)
  exact ⟨TokenOp.trace_sound hs.sound trivial, rfl, hs.owes, hs.owes_cancel, hs.evicting, rfl, rfl⟩

/-- It is given back in order, and without a debt. -/
theorem unlock_then {k : Unit → TokenM α} (hs : s.Inside i false paused paused_at)
    (hstamped : paused_at.isSome = paused)
    (hk : ∀ s, s.Outside i .none → (tokenLogic resident_ttl w i).Safe Q (k ()) s) :
    (tokenLogic resident_ttl w i).Safe Q (.vis .unlock_timing k) s := by
  refine safe_vis (fun _ _ => Traced.Inside.stable) hs ?_
  intro s hs _
  have hallowed : TokenOp.unlock_timing.Allowed i s := by
    refine ⟨hs.held, ?_⟩
    rw [Traced.Stamped, hs.paused_at, hs.paused]
    exact hstamped
  refine ⟨hallowed, fun _ => trivial, hk _ ?_⟩
  exact ⟨TokenOp.trace_sound hs.sound hallowed, nofun, hs.owes, hs.owes_cancel, hs.evicting⟩

/-- The swap that begins a pause, or finds one. -/
theorem swap_true_then {k : Bool → TokenM α} (hs : s.Inside i false paused paused_at)
    (hpaused : paused = true → ∀ s, s.Inside i false true paused_at →
      (tokenLogic resident_ttl w i).Safe Q (k true) s)
    (hunpaused : paused = false → ∀ s, s.Alone i false true paused_at →
      (tokenLogic resident_ttl w i).Safe Q (k false) s) :
    (tokenLogic resident_ttl w i).Safe Q (.vis (.swap_paused true) k) s := by
  refine safe_vis (fun _ _ => Traced.Inside.stable) hs ?_
  intro s hs _
  have hinside : ((TokenOp.swap_paused true).trace i s).Inside i false true paused_at :=
    ⟨TokenOp.trace_sound hs.sound hs.held, hs.held, hs.owes, hs.owes_cancel, hs.evicting, rfl,
      hs.paused_at⟩
  refine ⟨hs.held, fun _ => trivial, ?_⟩
  show (tokenLogic resident_ttl w i).Safe Q (k s.paused) _
  rw [hs.paused]
  cases hwas : paused with
  | true => exact hpaused hwas _ hinside
  | false => exact hunpaused hwas _ ⟨hinside, hs.sound.unmeasured (hs.paused.trans hwas)⟩

/-- The swap that ends a pause, if there is one; whoever ends it owes the notification. -/
theorem swap_false_then {k : Bool → TokenM α} (hs : s.Inside i false paused paused_at)
    (hk : ∀ s, s.Alone i paused false paused_at →
      (tokenLogic resident_ttl w i).Safe Q (k paused) s) :
    (tokenLogic resident_ttl w i).Safe Q (.vis (.swap_paused false) k) s := by
  refine safe_vis (fun _ _ => Traced.Inside.stable) hs ?_
  intro s hs _
  have hsound := TokenOp.trace_sound hs.sound (show (TokenOp.swap_paused false).Allowed i s from
    hs.held)
  refine ⟨hs.held, fun _ => trivial, ?_⟩
  show (tokenLogic resident_ttl w i).Safe Q (k s.paused) _
  rw [hs.paused]
  refine hk _ ⟨⟨hsound, hs.held, ?_, hs.owes_cancel, hs.evicting, rfl, hs.paused_at⟩,
    hsound.unmeasured rfl⟩
  cases hwas : paused with
  | true =>
    have hpaused := hs.paused.trans hwas
    simp [TokenOp.trace, TokenOp.owes, hpaused]
  | false =>
    have hpaused := hs.paused.trans hwas
    simpa [TokenOp.trace, TokenOp.owes, hpaused] using hs.owes

/-- Such an operation, when nobody's measured pause goes on. -/
theorem under_then {op : TokenOp} {owing' : Bool} {paused_at' : Option ℕ}
    {k : op.Answer → TokenM α} (hs : s.Alone i owing paused paused_at)
    (hop : Under op owing paused_at owing' paused_at')
    (hk : ∀ r s, s.Alone i owing' paused paused_at' →
      (tokenLogic resident_ttl w i).Safe Q (k r) s) :
    (tokenLogic resident_ttl w i).Safe Q (.vis op k) s := by
  refine safe_vis (fun _ _ => Traced.Alone.stable) hs ?_
  intro s hs _
  have hallowed : op.Allowed i s := by
    cases hop with
    | add_completed => exact hs.held
    | take => exact ⟨hs.held, hs.unmeasured⟩
    | store_resident | now | notify => trivial
  have hsound := TokenOp.trace_sound hs.sound hallowed
  refine ⟨hallowed, fun _ => by cases hop <;> trivial, hk _ _ ?_⟩
  cases hop with
  | notify =>
    exact ⟨⟨hsound, hs.held, Function.update_self _ _ _, hs.owes_cancel, hs.evicting, hs.paused,
      hs.paused_at⟩, hs.unmeasured⟩
  | take =>
    exact ⟨⟨hsound, hs.held, hs.owes, hs.owes_cancel, hs.evicting, hs.paused, rfl⟩,
      hs.unmeasured⟩
  | store_resident | now | add_completed =>
    exact ⟨⟨hsound, hs.held, hs.owes, hs.owes_cancel, hs.evicting, hs.paused, hs.paused_at⟩,
      hs.unmeasured⟩

/-- A pause is stamped with the time at which the clock is read. -/
theorem stamp_then {k : Unit → TokenM α} (hs : s.Alone i owing paused paused_at)
    (hk : ∀ started s, s.Alone i owing paused (some started) →
      (tokenLogic resident_ttl w i).Safe Q (k ()) s) :
    (tokenLogic resident_ttl w i).Safe Q
      (.vis .now fun now => .vis (.write_paused_at now) k) s := by
  refine safe_vis (fun _ _ => Traced.Alone.stable) hs ?_
  intro s hs _
  refine ⟨trivial, fun _ => trivial, ?_⟩
  refine safe_vis (A := fun s' => s'.Alone i owing paused paused_at ∧ s.now ≤ s'.now) ?_
    ⟨hs, Nat.le_refl _⟩ ?_
  · rintro s₁ s₂ hrely ⟨h₁, hle⟩
    exact ⟨h₁.stable hrely, Nat.le_trans hle hrely.now⟩
  · rintro s₁ ⟨h₁, hle⟩ -
    have hallowed : (TokenOp.write_paused_at s.now).Allowed i s₁ :=
      ⟨⟨h₁.held, h₁.unmeasured⟩, hle⟩
    refine ⟨hallowed, fun _ => trivial, hk s.now _ ?_⟩
    exact ⟨⟨TokenOp.trace_sound h₁.sound hallowed, h₁.held, h₁.owes, h₁.owes_cancel, h₁.evicting,
      h₁.paused, rfl⟩, h₁.unmeasured⟩

end Rules

/-! ### The calls

A call starts and ends outside the mutex and without a debt. -/

section Calls

/-- `pause`: both ways, whether or not the token was paused. -/
theorem pause_safe (hs : s.Outside i .none) :
    (tokenLogic resident_ttl w i).Safe (fun _ s => s.Outside i .none) PauseToken.pause s := by
  refine lock_then hs ?_
  intro paused paused_at s hs hstamped
  refine swap_true_then hs ?_ ?_
  · rintro rfl s hs
    exact unlock_then hs hstamped fun s hs s' hrely => hs.stable hrely
  · rintro rfl s hs
    refine under_then hs (.store_resident _ _ _) ?_
    intro _ s hs
    refine stamp_then hs ?_
    intro started s hs
    exact unlock_then hs.toInside rfl fun s hs s' hrely => hs.stable hrely

/-- The end of a pause, under the mutex. -/
theorem end_pause_safe {paused_at : Option ℕ} (hs : s.Alone i true false paused_at) :
    (tokenLogic resident_ttl w i).Safe (fun _ s => s.Alone i false false none)
      PauseToken.end_pause s := by
  refine under_then hs (.store_resident _ _ _) ?_
  intro _ s hs
  refine under_then hs (.take _ _) ?_
  intro started s hs
  cases started with
  | none => exact under_then hs (.notify _ _) fun _ s hs s' hrely => hs.stable hrely
  | some started =>
    refine under_then hs (.now _ _) ?_
    intro now s hs
    refine under_then hs (.add_completed _ _ _) ?_
    intro _ s hs
    exact under_then hs (.notify _ _) fun _ s hs s' hrely => hs.stable hrely

/-- `resume`, which does nothing to an evicted token. -/
theorem resume_safe (hs : s.Outside i .none) :
    (tokenLogic resident_ttl w i).Safe (fun _ s => s.Outside i .none) PauseToken.resume s := by
  refine outside_then hs trivial (fun _ => trivial) ?_
  intro evicted s hs
  cases evicted with
  | true => exact fun s' hrely => hs.stable hrely
  | false =>
    refine lock_then hs ?_
    intro paused paused_at s hs hstamped
    refine swap_false_then hs ?_
    intro s hs
    cases paused with
    | false => exact unlock_then hs.toInside hstamped fun s hs s' hrely => hs.stable hrely
    | true =>
      show (tokenLogic resident_ttl w i).Safe _ (PauseToken.end_pause >>= fun _ => _) s
      refine .bind (end_pause_safe hs) ?_
      intro _ s hs
      exact unlock_then hs.toInside rfl fun s hs s' hrely => hs.stable hrely

theorem mark_resident_safe (hs : s.Outside i .none) :
    (tokenLogic resident_ttl w i).Safe (fun _ s => s.Outside i .none)
      PauseToken.mark_resident s := by
  refine outside_then hs trivial (fun _ => trivial) ?_
  intro paused s hs
  cases paused with
  | false => exact fun s' hrely => hs.stable hrely
  | true =>
    refine outside_then hs trivial (fun _ => trivial) ?_
    intro evicted s hs
    cases evicted with
    | true => exact fun s' hrely => hs.stable hrely
    | false =>
      refine outside_then hs trivial (fun _ => trivial) ?_
      intro _ s hs
      exact outside_then hs trivial (fun _ => trivial) fun _ s hs s' hrely => hs.stable hrely

/-- `cancel`, which also pays what an eviction owes. -/
theorem cancel_safe {evicting : Bool} (hs : s.Outside i ⟨false, false, evicting⟩) :
    (tokenLogic resident_ttl w i).Safe (fun _ s => s.Outside i .none)
      CancellationToken.cancel s := by
  refine outside_then hs trivial (fun _ => trivial) ?_
  intro _ s hs
  exact outside_then hs trivial (fun _ => trivial) fun _ s hs s' hrely => hs.stable hrely

/-- An eviction; the waiting thread has to know that it is due. -/
theorem evict_safe (hs : s.Outside i .none) (hdue : i = w → s.Due resident_ttl w) :
    (tokenLogic resident_ttl w i).Safe (fun _ s => s.Outside i .none) PauseToken.evict s := by
  refine safe_vis (A := fun s => s.Outside i .none ∧ (i = w → s.Due resident_ttl w)) ?_
    ⟨hs, hdue⟩ ?_
  · rintro s s' hrely ⟨hs, hdue⟩
    refine ⟨hs.stable hrely, ?_⟩
    rintro rfl
    exact (hdue rfl).stable hrely
  · rintro s ⟨hs, hdue⟩ -
    have hfree : TokenOp.store_evicted.Free := trivial
    obtain ⟨hallowed, hs'⟩ := outside_step hfree hs
    refine ⟨hallowed, fun hi => ⟨hs.sound, hdue hi⟩, ?_⟩
    refine outside_then hs' trivial (fun _ => trivial) ?_
    intro _ s hs
    show (tokenLogic resident_ttl w i).Safe _ (CancellationToken.cancel >>= fun _ => _) s
    refine .bind (cancel_safe hs) ?_
    intro _ s hs
    exact outside_then hs trivial (fun _ => trivial) fun _ s hs s' hrely => hs.stable hrely

end Calls

/-! ### The waiting thread

What it has seen of the flags and of the notifiers, block by block. -/

/-- If the pause that thread `i` measured still goes on, it will have lasted `resident_ttl` at
`deadline`. -/
def Traced.DueAt (resident_ttl : ℕ) (i : ι) (deadline : ℕ) (s : Traced ι) : Prop :=
  ∃ started, s.Measured i started ∧ started + resident_ttl ≤ deadline

/-- The state of the futures of `select!`. -/
structure Select.Invariant (resident_ttl : ℕ) (i : ι) (futures : Select) (s : Traced ι) : Prop where
  outside : s.Outside i .none
  notified : s.Awaits futures.notified
  cancelled : ∀ since, futures.cancelled = some since → s.AwaitsCancel since
  sleep : s.DueAt resident_ttl i futures.deadline

/-- What holds at the head of each block. -/
def Block.Invariant (resident_ttl : ℕ) (i : ι) : Block → Traced ι → Prop
  | .cancelled, s => s.Outside i .none
  | .cancelled_await since, s => s.Outside i .none ∧ s.AwaitsCancel since
  | .wait, s => s.Outside i .none
  | .select futures, s => futures.Invariant resident_ttl i s
  | .poll futures todo, s =>
    futures.Invariant resident_ttl i s ∧ (futures.cancelled = none → .cancelled ∈ todo)

/-- Where a block of the waiting thread ends. -/
abbrev Ends (resident_ttl : ℕ) (i : ι) : Option Block → Traced ι → Prop :=
  Tasks.Post (Traced.Outside i .none) (Block.Invariant resident_ttl i)

/-- The operation changes nothing. -/
def TokenOp.Reads : TokenOp → Prop
  | .load_paused | .load_evicted | .load_cancelled | .now | .notified | .poll_notified _
  | .cancel_notified | .poll_cancel_notified _ | .random | .park _ _ => True
  | _ => False

omit [DecidableEq ι] in
theorem Traced.DueAt.stable {deadline : ℕ} {s s' : Traced ι} (hrely : Rely i s s')
    (h : s.DueAt resident_ttl i deadline) : s'.DueAt resident_ttl i deadline := by
  obtain ⟨started, hmeasured, hdue⟩ := h
  exact ⟨started, hrely.measured started hmeasured, hdue⟩

omit [DecidableEq ι] in
theorem Select.Invariant.stable {futures : Select} {s s' : Traced ι} (hrely : Rely i s s')
    (h : futures.Invariant resident_ttl i s) : futures.Invariant resident_ttl i s' :=
  ⟨h.outside.stable hrely, hrely.awaits _ h.notified,
    fun since hsince => hrely.awaits_cancel since (h.cancelled since hsince),
    h.sleep.stable hrely⟩

/-- An operation that only reads. -/
theorem read_then (hstable : ∀ s s', Rely i s s' → A s → A s') (hs : A s) (hreads : op.Reads)
    (hpromise : ∀ s, A s → op.Promise resident_ttl i s)
    (hk : ∀ s, A s → (tokenLogic resident_ttl i i).Safe Q (k (op.run i s.toTokens).1) s) :
    (tokenLogic resident_ttl i i).Safe Q (.vis op k) s := by
  refine safe_vis hstable hs ?_
  intro s hs _
  have hsame : op.trace i s = s := by
    cases op <;> first | rfl | exact hreads.elim
  rw [hsame]
  refine ⟨?_, fun _ => hpromise s hs, hk s hs⟩
  cases op <;> trivial

/-- The nested `cancelled` and the one that is a task of its own begin alike: a notification
is created and then the flag is looked at. -/
theorem cancelled_then (hstable : ∀ s s', Rely i s s' → A s → A s') (hs : A s)
    {k : ℕ → Bool → TokenM α}
    (htrue : ∀ since s, A s → (tokenLogic resident_ttl i i).Safe Q (k since true) s)
    (hfalse : ∀ since s, A s → s.AwaitsCancel since →
      (tokenLogic resident_ttl i i).Safe Q (k since false) s) :
    (tokenLogic resident_ttl i i).Safe Q
      (.vis .cancel_notified fun since => .vis .load_cancelled fun b => k since b) s := by
  refine read_then hstable hs trivial (fun _ _ => trivial) ?_
  intro s hs
  refine read_then (A := fun s' => A s' ∧ s.cancel_notify ≤ s'.cancel_notify) ?_
    ⟨hs, Nat.le_refl _⟩ trivial (fun _ _ => trivial) ?_
  · rintro s₁ s₂ hrely ⟨h₁, hle⟩
    exact ⟨hstable _ _ hrely h₁, Nat.le_trans hle hrely.cancel_notify⟩
  · rintro s₁ ⟨h₁, hle⟩
    show (tokenLogic resident_ttl i i).Safe Q (k s.cancel_notify s₁.cancelled) s₁
    cases hcancelled : s₁.cancelled with
    | true => exact htrue _ _ h₁
    | false =>
      refine hfalse _ _ h₁ ⟨hle, fun h => ?_⟩
      rw [hcancelled] at h
      cases h

/-- What is awaited is kept by a whole program. -/
theorem safe_awaits {p : TokenM α} (h : (tokenLogic resident_ttl w i).Safe Q p s)
    (hs : s.Awaits since) :
    (tokenLogic resident_ttl w i).Safe (fun a s => Q a s ∧ s.Awaits since) p s := by
  induction p generalizing s with
  | ret a => exact fun s' hrely => ⟨h s' hrely, hrely.awaits since hs⟩
  | vis op k ih =>
    rintro s₁ hrely r s₂ ⟨henabled, rfl, rfl⟩
    obtain ⟨hguar, hrest⟩ := h s₁ hrely _ _ ⟨henabled, rfl, rfl⟩
    exact ⟨hguar, ih _ hrest (TokenOp.trace_awaits i op (hrely.awaits since hs))⟩

omit [DecidableEq ι] in
theorem Traced.DueAt.mono {deadline deadline' : ℕ} (h : s.DueAt resident_ttl i deadline)
    (hle : deadline ≤ deadline') : s.DueAt resident_ttl i deadline' := by
  obtain ⟨started, hmeasured, hdue⟩ := h
  exact ⟨started, hmeasured, Nat.le_trans hdue hle⟩

/-- The mutex is given back with the remaining time computed. -/
theorem unlock_remaining {paused : Bool} {paused_at : Option ℕ} {r : ℕ}
    (hs : s.Inside i false paused paused_at) (hstamped : paused_at.isSome = paused)
    (hdue : s.DueAt resident_ttl i (s.now + r)) :
    (tokenLogic resident_ttl i i).Safe
      (fun r s => s.Outside i .none ∧ s.DueAt resident_ttl i (s.now + r))
      (.vis .unlock_timing fun _ => .ret r) s := by
  -- The clock only advances, so what is due at a time stays due at a later one.
  refine safe_vis (A := fun s => s.Inside i false paused paused_at ∧
    s.DueAt resident_ttl i (s.now + r)) ?_ ⟨hs, hdue⟩ ?_
  · rintro s s' hrely ⟨hs, hdue⟩
    exact ⟨hs.stable hrely, (hdue.stable hrely).mono (Nat.add_le_add_right hrely.now r)⟩
  · rintro s ⟨hs, hdue⟩ -
    have hallowed : TokenOp.unlock_timing.Allowed i s := by
      refine ⟨hs.held, ?_⟩
      rw [Traced.Stamped, hs.paused_at, hs.paused]
      exact hstamped
    have houtside : (TokenOp.unlock_timing.trace i s).Outside i .none :=
      ⟨TokenOp.trace_sound hs.sound hallowed, nofun, hs.owes, hs.owes_cancel, hs.evicting⟩
    have hdue' : (TokenOp.unlock_timing.trace i s).DueAt resident_ttl i (s.now + r) := hdue
    refine ⟨hallowed, fun _ => trivial, ?_⟩
    intro s' hrely
    exact ⟨houtside.stable hrely,
      (hdue'.stable hrely).mono (Nat.add_le_add_right hrely.now r)⟩

/-- The reading of the timing record: the pause that is measured is the one that is going on,
and the remaining time takes it to `resident_ttl`. -/
theorem remaining_safe (hs : s.Outside i .none) :
    (tokenLogic resident_ttl i i).Safe
      (fun r s => s.Outside i .none ∧ s.DueAt resident_ttl i (s.now + r))
      (PauseToken.remaining resident_ttl) s := by
  refine lock_then hs ?_
  intro paused paused_at s hs hstamped
  refine safe_vis (fun _ _ => Traced.Inside.stable) hs ?_
  intro s hs _
  have hallowed : TokenOp.read_timing.Allowed i s := by
    refine ⟨hs.held, ?_⟩
    rw [Traced.Stamped, hs.paused_at, hs.paused]
    exact hstamped
  have hinside : (TokenOp.read_timing.trace i s).Inside i false paused paused_at :=
    ⟨TokenOp.trace_sound hs.sound hallowed, hs.held, hs.owes, hs.owes_cancel, hs.evicting,
      hs.paused, hs.paused_at⟩
  have hcurrent : (TokenOp.read_timing.trace i s).current i = paused_at.isSome := by
    rw [← hs.paused_at]
    exact update_self ..
  refine ⟨hallowed, fun _ => trivial, ?_⟩
  generalize TokenOp.read_timing.trace i s = s' at hinside hcurrent ⊢
  have htiming : (TokenOp.run i s.toTokens TokenOp.read_timing).1 = s.timing := rfl
  rw [htiming, Prog.bind]
  dsimp only
  rw [hs.paused_at]
  cases paused_at with
  | none =>
    -- Nothing was measured.
    refine unlock_remaining hinside hstamped ⟨s'.now, fun h => ?_, Nat.le_refl _⟩
    rw [hcurrent] at h
    cases h
  | some started =>
    refine read_then (fun _ _ => Traced.Inside.stable) hinside trivial (fun _ _ => trivial) ?_
    intro s' hs'
    refine unlock_remaining hs' hstamped ⟨started, fun _ => hs'.paused_at, ?_⟩
    have hstarted := hs'.sound.started started hs'.paused_at
    show started + resident_ttl ≤ s'.now + (resident_ttl - (s'.now - started))
    omega

/-! ### The blocks

Each ends in what the next one starts from. -/

theorem cancelled_safe (hs : s.Outside i .none) :
    (tokenLogic resident_ttl i i).Safe (Ends resident_ttl i) CancellationToken.cancelled s := by
  refine cancelled_then (fun _ _ => Traced.Outside.stable) hs ?_ ?_
  · intro since s hs s' hrely
    exact hs.stable hrely
  · intro since s hs hawaits s' hrely
    exact ⟨hs.stable hrely, hrely.awaits_cancel since hawaits⟩

theorem cancelled_await_safe (hs : s.Outside i .none) (hawaits : s.AwaitsCancel since) :
    (tokenLogic resident_ttl i i).Safe (Ends resident_ttl i)
      (CancellationToken.cancelled_await since) s := by
  have hstable : ∀ s s' : Traced ι, Rely i s s' → s.Outside i .none ∧ s.AwaitsCancel since →
      s'.Outside i .none ∧ s'.AwaitsCancel since :=
    fun s s' hrely h => ⟨h.1.stable hrely, hrely.awaits_cancel since h.2⟩
  refine read_then hstable ⟨hs, hawaits⟩ trivial (fun _ _ => trivial) ?_
  intro s hs
  generalize (TokenOp.run i s.toTokens (.poll_cancel_notified since)).1 = ready
  cases ready with
  | true => exact fun s' hrely => (hstable s s' hrely hs).1
  | false =>
    refine read_then hstable hs trivial ?_ ?_
    · rintro s ⟨houtside, hawaits⟩
      exact ⟨houtside, nofun, since, rfl, hawaits⟩
    · exact fun s hs s' hrely => hstable s s' hrely hs

/-- An eviction by the waiting thread, after which its method returns. -/
theorem evict_then (hs : s.Outside i .none) (hdue : s.Due resident_ttl i) :
    (tokenLogic resident_ttl i i).Safe (Ends resident_ttl i)
      (PauseToken.evict >>= fun _ => done) s := by
  refine .bind (evict_safe hs fun _ => hdue) ?_
  intro _ s hs s' hrely
  exact hs.stable hrely

/-- `wait` once the remaining time is known. -/
theorem remaining_then {remaining : ℕ} (hs : s.Outside i .none)
    (hdue : s.DueAt resident_ttl i (s.now + remaining)) (hawaits : s.Awaits since) :
    (tokenLogic resident_ttl i i).Safe (Ends resident_ttl i)
      (if remaining == 0 then PauseToken.evict >>= fun _ => done
        else ask .now >>= fun now => goto (.select ⟨since, none, now + remaining⟩)) s := by
  split
  · rename_i hzero
    rw [eq_of_beq hzero] at hdue
    exact evict_then hs hdue
  · refine read_then (A := fun s => s.Outside i .none ∧ s.Awaits since ∧
      s.DueAt resident_ttl i (s.now + remaining)) ?_ ⟨hs, hawaits, hdue⟩ trivial
      (fun _ _ => trivial) ?_
    · rintro s s' hrely ⟨hs, hawaits, hdue⟩
      exact ⟨hs.stable hrely, hrely.awaits since hawaits,
        (hdue.stable hrely).mono (Nat.add_le_add_right hrely.now remaining)⟩
    · rintro s ⟨hs, hawaits, hdue⟩
      have hinvariant : Select.Invariant resident_ttl i ⟨since, none, s.now + remaining⟩ s :=
        ⟨hs, hawaits, nofun, hdue⟩
      exact fun s' hrely => hinvariant.stable hrely

/-- `wait`, up to `select!`. -/
theorem wait_safe (hs : s.Outside i .none) :
    (tokenLogic resident_ttl i i).Safe (Ends resident_ttl i) (PauseToken.wait resident_ttl) s := by
  refine read_then (fun _ _ => Traced.Outside.stable) hs trivial (fun _ _ => trivial) ?_
  intro s₀ hs₀
  -- The notification is created before the flag is looked at.
  refine read_then (A := fun s => s.Outside i .none ∧ s₀.notify ≤ s.notify) ?_
    ⟨hs₀, Nat.le_refl _⟩ trivial (fun _ _ => trivial) ?_
  · rintro s s' hrely ⟨hs, hle⟩
    exact ⟨hs.stable hrely, Nat.le_trans hle hrely.notify⟩
  rintro s ⟨hs, hle⟩
  generalize hpaused : (TokenOp.run i s.toTokens .load_paused).1 = paused
  cases paused with
  | false => exact fun s' hrely => hs.stable hrely
  | true =>
    have hawaits : s.Awaits s₀.notify :=
      ⟨hle, fun h => absurd (hpaused.symm.trans h) Bool.true_eq_false.mp⟩
    refine read_then (A := fun s => s.Outside i .none ∧ s.Awaits s₀.notify) ?_ ⟨hs, hawaits⟩
      trivial (fun _ _ => trivial) ?_
    · rintro s s' hrely ⟨hs, hawaits⟩
      exact ⟨hs.stable hrely, hrely.awaits _ hawaits⟩
    rintro s ⟨hs, hawaits⟩
    generalize (TokenOp.run i s.toTokens .load_cancelled).1 = cancelled
    cases cancelled with
    | true => exact fun s' hrely => hs.stable hrely
    | false =>
      show (tokenLogic resident_ttl i i).Safe _
        (PauseToken.remaining resident_ttl >>= fun _ => _) s
      refine .bind (safe_awaits (remaining_safe hs) hawaits) ?_
      rintro remaining s ⟨⟨hs, hdue⟩, hawaits⟩
      exact remaining_then hs hdue hawaits

theorem select_safe (hs : futures.Invariant resident_ttl i s) :
    (tokenLogic resident_ttl i i).Safe (Ends resident_ttl i) (PauseToken.select futures) s := by
  refine read_then (fun _ _ => Select.Invariant.stable) hs trivial (fun _ _ => trivial) ?_
  intro s hs
  generalize (TokenOp.run i s.toTokens .random).1 = first
  have hmem : Branch.cancelled ∈ Branch.order first := by
    match first with
    | 0 | 1 | 2 => decide
  exact fun s' hrely => ⟨hs.stable hrely, fun _ => hmem⟩

omit [DecidableEq ι] in
/-- What is left to be polled contains the nested `cancelled` until that has been polled. -/
theorem poll_stable {todo : List Branch} {s s' : Traced ι} (hrely : Rely i s s')
    (hs : (Block.poll futures todo).Invariant resident_ttl i s) :
    (Block.poll futures todo).Invariant resident_ttl i s' :=
  ⟨hs.1.stable hrely, hs.2⟩

theorem poll_notified_safe
    (hs : (Block.poll futures (.notified :: rest)).Invariant resident_ttl i s) :
    (tokenLogic resident_ttl i i).Safe (Ends resident_ttl i)
      (PauseToken.poll futures (.notified :: rest)) s := by
  refine read_then (fun _ _ => poll_stable) hs trivial (fun _ _ => trivial) ?_
  intro s hs
  generalize (TokenOp.run i s.toTokens (.poll_notified futures.notified)).1 = ready
  cases ready with
  | true => exact fun s' hrely => hs.1.outside.stable hrely
  | false =>
    intro s' hrely
    refine ⟨hs.1.stable hrely, fun hnone => ?_⟩
    exact (List.mem_cons.mp (hs.2 hnone)).resolve_left nofun

theorem poll_cancelled_safe
    (hs : (Block.poll futures (.cancelled :: rest)).Invariant resident_ttl i s) :
    (tokenLogic resident_ttl i i).Safe (Ends resident_ttl i)
      (PauseToken.poll futures (.cancelled :: rest)) s := by
  obtain ⟨notified, cancelled, deadline⟩ := futures
  cases cancelled with
  | none =>
    refine cancelled_then (fun _ _ => poll_stable) hs ?_ ?_
    · intro since s hs s' hrely
      exact hs.1.outside.stable hrely
    · intro since s hs hawaits s' hrely
      have hs' := hs.1.stable hrely
      refine ⟨⟨hs'.outside, hs'.notified, ?_, hs'.sleep⟩, nofun⟩
      -- A waiter that has registered is woken by every notification after this point.
      rintro since' ⟨⟩
      exact hrely.awaits_cancel since hawaits
  | some since =>
    refine read_then (fun _ _ => poll_stable) hs trivial (fun _ _ => trivial) ?_
    intro s hs
    generalize (TokenOp.run i s.toTokens (.poll_cancel_notified since)).1 = ready
    cases ready with
    | true =>
      intro s' hrely
      have hs' := hs.1.stable hrely
      exact ⟨⟨hs'.outside, hs'.notified, nofun, hs'.sleep⟩, fun _ => List.mem_cons_self⟩
    | false => exact fun s' hrely => ⟨hs.1.stable hrely, nofun⟩

theorem poll_sleep_safe (hs : (Block.poll futures (.sleep :: rest)).Invariant resident_ttl i s) :
    (tokenLogic resident_ttl i i).Safe (Ends resident_ttl i)
      (PauseToken.poll futures (.sleep :: rest)) s := by
  refine read_then (fun _ _ => poll_stable) hs trivial (fun _ _ => trivial) ?_
  intro s hs
  show (tokenLogic resident_ttl i i).Safe _ (if s.now < futures.deadline then _ else _) s
  split
  · intro s' hrely
    refine ⟨hs.1.stable hrely, fun hnone => ?_⟩
    exact (List.mem_cons.mp (hs.2 hnone)).resolve_left nofun
  · rename_i hover
    -- The sleep is over, so the pause it was started for has lasted its time.
    have hdue : s.Due resident_ttl i := by
      obtain ⟨started, hmeasured, hdue⟩ := hs.1.sleep
      exact ⟨started, hmeasured, Nat.le_trans hdue (Nat.not_lt.mp hover)⟩
    refine read_then (A := fun s => s.Outside i .none ∧ s.Due resident_ttl i) ?_
      ⟨hs.1.outside, hdue⟩ trivial (fun _ _ => trivial) ?_
    · exact fun s s' hrely h => ⟨h.1.stable hrely, h.2.stable hrely⟩
    rintro s ⟨hs, hdue⟩
    -- Between the two reads the command may have been resumed.
    generalize (TokenOp.run i s.toTokens .load_paused).1 = paused
    cases paused with
    | true => exact evict_then hs hdue
    | false => exact fun s' hrely => hs.stable hrely

/-- A task that parks awaits what has not come. -/
theorem park_safe (hs : (Block.poll futures []).Invariant resident_ttl i s) :
    (tokenLogic resident_ttl i i).Safe (Ends resident_ttl i) (PauseToken.poll futures []) s := by
  refine read_then (fun _ _ => poll_stable) hs trivial ?_ ?_
  · rintro s ⟨hs, hpolled⟩
    refine ⟨hs.outside, ?_, ?_⟩
    · rintro since ⟨⟩
      exact hs.notified
    · cases hcancelled : futures.cancelled with
      | none => exact absurd (hpolled hcancelled) List.not_mem_nil
      | some since => exact ⟨since, rfl, hs.cancelled since hcancelled⟩
  · exact fun s hs s' hrely => hs.1.stable hrely

end Logic

end Threads

end WasmRuntime.Token
