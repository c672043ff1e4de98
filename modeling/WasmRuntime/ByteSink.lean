/-
Blocking byte sinks: `std::io::Write` as its callers see it.

The counterpart of `ByteStream`. A writer has received some bytes, and has a schedule of what its
next `write` calls do. `write_all` is the default method of the trait: its loop makes one call a
turn and ends at the first call that fails or takes nothing.
-/
import WasmRuntime.Exec

set_option autoImplicit false

namespace WasmRuntime.ByteSink

variable {α : Type}

/-! ## Parts that stop short

On failure a writer has received a part of the buffer that stops short of the end. Over consecutive
writes such parts have to be added up. -/

/-- A beginning of a list that is not all of it. -/
def Short (taken whole : List α) : Prop := ∃ rest, rest ≠ [] ∧ whole = taken ++ rest

theorem short_nil {whole : List α} (h : whole ≠ []) : Short [] whole := ⟨whole, h, rfl⟩

theorem Short.length_lt {taken whole : List α} (h : Short taken whole) :
    taken.length < whole.length := by
  obtain ⟨rest, hne, rfl⟩ := h
  have := List.length_pos_iff.mpr hne
  rw [List.length_append]
  omega

/-- Nothing that follows can complete it. -/
theorem Short.append_right {taken whole : List α} (h : Short taken whole) (more : List α) :
    Short taken (whole ++ more) := by
  obtain ⟨rest, hne, rfl⟩ := h
  exact ⟨rest ++ more, fun hnil => hne (List.append_eq_nil_iff.mp hnil).1, List.append_assoc _ _ _⟩

/-- What was complete before does not matter. -/
theorem Short.append_left {taken whole : List α} (h : Short taken whole) (before : List α) :
    Short (before ++ taken) (before ++ whole) := by
  obtain ⟨rest, hne, rfl⟩ := h
  exact ⟨rest, hne, (List.append_assoc _ _ _).symm⟩

theorem short_iff {taken whole : List α} : Short taken whole ↔ taken <+: whole ∧ taken ≠ whole := by
  constructor
  · intro h
    refine ⟨?_, fun heq => ?_⟩
    · obtain ⟨rest, -, rfl⟩ := h
      exact List.prefix_append taken rest
    · exact absurd h.length_lt (by rw [heq]; exact lt_irrefl _)
  · rintro ⟨⟨rest, rfl⟩, hne⟩
    refine ⟨rest, fun hnil => hne ?_, rfl⟩
    rw [hnil, List.append_nil]

/-! ## Writers

A call takes at most so many bytes, is interrupted, or fails. When the schedule runs out the writer
takes whatever it is given. A call that fails has taken nothing, as the trait documents, and every
behaviour of a writer in a run that ends is one of these. What its callers can rely on is
`Written`. -/

/-- What one `write` call does: take up to `k` bytes, be interrupted, or fail. -/
inductive WriteEvent where
  | accept (k : ℕ)
  | interrupted
  | error (message : String)
  deriving DecidableEq, Repr

/-- A writer. -/
structure Writer where
  received : Bytes
  schedule : List WriteEvent
  deriving DecidableEq, Repr

/-- The loop of `Write::write_all`, by the schedule: what has been received, and what is left of
the buffer. -/
def write_all_loop (received : Bytes) : List WriteEvent → Bytes → Writer × Except String Unit
  | [], buf => (⟨received ++ buf, []⟩, .ok ())
  | event :: rest, buf =>
    if buf.isEmpty then (⟨received, event :: rest⟩, .ok ())
    else
      match event with
      | .accept 0 => (⟨received, rest⟩, .error "failed to write whole buffer")
      | .accept (k + 1) =>
        write_all_loop (received ++ buf.take (k + 1)) rest (buf.drop (k + 1))
      | .interrupted => write_all_loop received rest buf
      | .error message => (⟨received, rest⟩, .error message)

/-- `Write::write_all`. -/
def Writer.write_all (self : Writer) (buf : Bytes) : Writer × Except String Unit :=
  write_all_loop self.received self.schedule buf

/-- What `write_all` leaves behind: the whole buffer when it succeeds, and a part that stops short
when it fails. -/
def Written (before buf after : Bytes) (result : Except String Unit) : Prop :=
  result = .ok () ∧ after = before ++ buf ∨
    ∃ taken, (∃ message, result = .error message) ∧ after = before ++ taken ∧ Short taken buf

/-- By induction on the schedule, for every buffer. -/
theorem write_all_loop_written (schedule : List WriteEvent) :
    ∀ received buf : Bytes, Written received buf
      (write_all_loop received schedule buf).1.received
      (write_all_loop received schedule buf).2 := by
  induction schedule with
  | nil =>
    intro received buf
    exact Or.inl ⟨rfl, rfl⟩
  | cons event rest ih =>
    intro received buf
    rw [write_all_loop.eq_def]
    dsimp only
    by_cases hempty : buf.isEmpty = true
    · rw [if_pos hempty, List.isEmpty_iff.mp hempty]
      exact Or.inl ⟨rfl, (List.append_nil _).symm⟩
    · have hne : buf ≠ [] := fun hnil => hempty (List.isEmpty_iff.mpr hnil)
      have hnothing : received = received ++ [] := (List.append_nil _).symm
      rw [if_neg hempty]
      cases event with
      | accept k =>
        cases k with
        | zero => exact Or.inr ⟨[], ⟨_, rfl⟩, hnothing, short_nil hne⟩
        | succ k =>
          -- A piece was taken, and the rest of the loop is about the rest of the buffer.
          have hsplit := List.take_append_drop (k + 1) buf
          rcases ih (received ++ buf.take (k + 1)) (buf.drop (k + 1)) with
            ⟨hok, hall⟩ | ⟨taken, herror, hpart, hshort⟩
          · refine Or.inl ⟨hok, ?_⟩
            rw [hall, List.append_assoc, hsplit]
          · refine Or.inr ⟨buf.take (k + 1) ++ taken, herror, ?_, ?_⟩
            · rw [hpart, List.append_assoc]
            · have := hshort.append_left (buf.take (k + 1))
              rwa [hsplit] at this
      | interrupted => exact ih received buf
      | error message => exact Or.inr ⟨[], ⟨_, rfl⟩, hnothing, short_nil hne⟩

/-! ## Writers that take everything

A writer that is asked again and again loses nothing by it: if no call of its schedule fails or
takes no byte, `write_all` succeeds, and leaves such a writer behind. -/

/-- The call makes progress, or is made again. -/
def WriteEvent.Takes : WriteEvent → Prop
  | .accept k => 0 < k
  | .interrupted => True
  | .error _ => False

/-- Every call of the schedule does. -/
def Writer.Takes (self : Writer) : Prop := ∀ event ∈ self.schedule, event.Takes

/-- A writer that takes every buffer takes all of the bytes. -/
theorem Writer.Takes.write_all {self : Writer} (h : self.Takes) (buf : Bytes) :
    (self.write_all buf).2 = .ok () ∧ (self.write_all buf).1.Takes := by
  obtain ⟨received, schedule⟩ := self
  unfold Writer.write_all
  dsimp only
  induction schedule generalizing received buf with
  | nil => exact ⟨rfl, h⟩
  | cons event rest ih =>
    have hevent := h event List.mem_cons_self
    have hrest : Writer.Takes ⟨received, rest⟩ := fun e he => h e (List.mem_cons_of_mem _ he)
    rw [write_all_loop.eq_def]
    dsimp only
    split
    · exact ⟨rfl, h⟩
    · cases event with
      | accept k =>
        cases k with
        | zero => exact absurd hevent (Nat.lt_irrefl 0)
        | succ k => exact ih _ _ hrest
      | interrupted => exact ih _ _ hrest
      | error message => exact hevent.elim

end WasmRuntime.ByteSink
