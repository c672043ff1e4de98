/-
Absolute paths as lists of segments.

A path is its segments, each behind a separator. Two ways of comparing paths are related here:
by their segments, where an ancestor is a proper prefix of the list, and by their letters, where
a program asks whether one text begins with the other and a separator. They agree
(`append_isPrefix_render_iff`), because no segment has a separator in it. Without the separator
at the end they would not: `/a` begins `/ab`.

The letters are of any type.
-/
import Mathlib.Data.List.Basic

set_option autoImplicit false

namespace WasmRuntime.Segments

variable {α : Type}

/-- The text of a path. -/
def render (sep : α) (segments : List (List α)) : List α := segments.flatMap (sep :: ·)

theorem render_cons (sep : α) (s : List α) (segments : List (List α)) :
    render sep (s :: segments) = sep :: (s ++ render sep segments) := rfl

theorem render_append (sep : α) (ss tt : List (List α)) :
    render sep (ss ++ tt) = render sep ss ++ render sep tt := List.flatMap_append

/-- The text is what joins the segments behind an empty one. -/
theorem render_eq_intercalate (sep : α) (segments : List (List α)) :
    render sep segments = [sep].intercalate ([] :: segments) := by
  induction segments with
  | nil => rfl
  | cons s segments ih =>
    rw [render_cons, ih]
    cases segments with
    | nil => rfl
    | cons t segments => rfl

variable [DecidableEq α] {sep : α}

/-- The segments of a text: what stands behind each separator. -/
def split (sep : α) (text : List α) : List (List α) := (text.splitOn sep).drop 1

/-- No segment has a separator in it. -/
def Free (sep : α) (segments : List (List α)) : Prop := ∀ s ∈ segments, sep ∉ s

/-- Before the first separator there is nothing. -/
theorem splitOn_render {segments : List (List α)} (hfree : Free sep segments) :
    (render sep segments).splitOn sep = [] :: segments := by
  rw [render_eq_intercalate]
  refine List.splitOn_intercalate sep ?_ (List.cons_ne_nil _ _)
  intro s hs
  rcases List.mem_cons.mp hs with rfl | hs
  · exact List.not_mem_nil
  · exact hfree s hs

/-- The segments of the text of a path are those it was made of. -/
theorem split_render {segments : List (List α)} (hfree : Free sep segments) :
    split sep (render sep segments) = segments := by
  rw [split, splitOn_render hfree, List.drop_one, List.tail_cons]

/-- A text that begins with a separator is a path. -/
theorem render_split {text : List α} (h : [sep] <+: text) :
    render sep (split sep text) = text := by
  obtain ⟨rest, rfl⟩ := h
  have hsplit : ([sep] ++ rest).splitOn sep = [] :: rest.splitOn sep := by
    rw [List.splitOn, List.singleton_append, List.splitOnP_cons_eq_if_modifyHead,
      if_pos (beq_self_eq_true sep)]
    rfl
  have htext : [sep].intercalate (([sep] ++ rest).splitOn sep) = [sep] ++ rest :=
    List.intercalate_splitOn sep
  rw [hsplit] at htext
  rw [split, hsplit, List.drop_one, List.tail_cons, render_eq_intercalate, htext]

/-- What stands behind a separator in the middle of a text is behind the segments before it. -/
theorem split_append {ss : List (List α)} (hfree : Free sep ss) (rest : List α) :
    split sep (render sep ss ++ sep :: rest) = ss ++ rest.splitOn sep := by
  have happend : (render sep ss ++ sep :: rest).splitOn sep
      = (render sep ss).splitOn sep ++ rest.splitOn sep :=
    List.splitOnP_append_cons _ _ (beq_self_eq_true sep)
  rw [split, happend, splitOn_render hfree, List.cons_append, List.drop_one, List.tail_cons]

/-- Whatever stands before a separator, what stands behind it is cut into segments. -/
theorem mem_split_append {s : List α} (before rest : List α) (hs : s ∈ rest.splitOn sep) :
    s ∈ split sep (before ++ sep :: rest) := by
  have happend : (before ++ sep :: rest).splitOn sep
      = before.splitOn sep ++ rest.splitOn sep :=
    List.splitOnP_append_cons _ _ (beq_self_eq_true sep)
  rw [split, happend]
  cases hbefore : before.splitOn sep with
  | nil => exact absurd hbefore (List.splitOnP_ne_nil _ _)
  | cons first others =>
    rw [List.cons_append, List.drop_one, List.tail_cons]
    exact List.mem_append_right _ hs

/-- A separator at the end leaves an empty segment. -/
theorem nil_mem_of_last {text : List α} (h : [sep] <:+ text) : [] ∈ split sep text := by
  obtain ⟨before, rfl⟩ := h
  exact mem_split_append before [] List.mem_cons_self

/-- So do two separators in a row. -/
theorem nil_mem_of_double {text : List α} (h : [sep, sep] <:+: text) : [] ∈ split sep text := by
  obtain ⟨before, after, rfl⟩ := h
  have hfirst : [] ∈ (sep :: after).splitOn sep := by
    rw [List.splitOn, List.splitOnP_cons_eq_if_modifyHead, if_pos (beq_self_eq_true sep)]
    exact List.mem_cons_self
  rw [List.append_assoc, List.cons_append, List.singleton_append]
  exact mem_split_append before (sep :: after) hfirst

/-- A text begins with a path and a separator just when the path is an ancestor. -/
theorem append_isPrefix_render_iff {ss tt : List (List α)} (hss : Free sep ss)
    (htt : Free sep tt) :
    render sep ss ++ [sep] <+: render sep tt ↔ ss <+: tt ∧ ss ≠ tt := by
  constructor
  · rintro ⟨rest, htext⟩
    rw [List.append_assoc, List.singleton_append] at htext
    have htt' : tt = ss ++ rest.splitOn sep := by
      rw [← split_append hss rest, htext, split_render htt]
    refine ⟨⟨_, htt'.symm⟩, ?_⟩
    intro heq
    rw [← heq] at htt'
    exact List.splitOnP_ne_nil _ _ (List.self_eq_append_right.mp htt')
  · rintro ⟨⟨rest, rfl⟩, hne⟩
    cases rest with
    | nil => exact absurd (List.append_nil ss).symm hne
    | cons t rest =>
      rw [render_append, render_cons]
      exact (List.prefix_append_right_inj _).mpr ⟨_, rfl⟩

end WasmRuntime.Segments
