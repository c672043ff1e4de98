/-
Texts that say where they end.

A hash is fed one part after the other and sees their concatenation only. Whether two inputs can be
the same although their parts differ is a question about the encoders of the parts: an encoder is
*self-delimiting* when its text can be split off whatever follows, and shows the value. A
concatenation of such texts is unambiguous, part by part from the left. The encoders take values of
any type to lists of any symbols; the values for which an encoder is good form a set, since a length
field holds only so many.
-/
import Mathlib.Data.Set.Defs
import Mathlib.Data.List.Basic
import WasmRuntime.ByteCodec

set_option autoImplicit false

namespace WasmRuntime.Codes

variable {α β σ : Type}

/-- Whatever follows it, the text of a value of `D` can be split off, and shows the value. -/
def SelfDelimiting (D : Set α) (enc : α → List σ) : Prop :=
  ∀ a ∈ D, ∀ b ∈ D, ∀ s t, enc a ++ s = enc b ++ t → a = b ∧ s = t

variable {D : Set α} {enc : α → List σ}

/-- Texts of one width, when they are different for different values. -/
theorem SelfDelimiting.of_width (w : ℕ) (hwidth : ∀ a ∈ D, (enc a).length = w)
    (hinj : ∀ a ∈ D, ∀ b ∈ D, enc a = enc b → a = b) : SelfDelimiting D enc := by
  intro a ha b hb s t h
  have hlen : (enc a).length = (enc b).length := by rw [hwidth a ha, hwidth b hb]
  obtain ⟨henc, hrest⟩ := List.append_inj h hlen
  exact ⟨hinj a ha b hb henc, hrest⟩

/-- Texts none of which begins another. -/
theorem SelfDelimiting.of_prefix_eq (h : ∀ a ∈ D, ∀ b ∈ D, enc a <+: enc b → a = b) :
    SelfDelimiting D enc := by
  intro a ha b hb s t heq
  have hab : a = b := by
    rcases List.prefix_or_prefix_of_prefix (List.prefix_append (enc a) s)
      (heq ▸ List.prefix_append (enc b) t) with hle | hle
    · exact h a ha b hb hle
    · exact (h b hb a ha hle).symm
  rw [hab] at heq
  exact ⟨hab, List.append_cancel_left heq⟩

/-- The values may be renamed. -/
theorem SelfDelimiting.comp (h : SelfDelimiting D enc) {D' : Set β} {f : β → α}
    (hf : ∀ b ∈ D', f b ∈ D) (hinj : Function.Injective f) :
    SelfDelimiting D' (fun b => enc (f b)) := by
  intro a ha b hb s t heq
  obtain ⟨hab, hst⟩ := h (f a) (hf a ha) (f b) (hf b hb) s t heq
  exact ⟨hinj hab, hst⟩

/-! ## Lists

Three ways are used: a fixed width, a count or length before a list, and a stop symbol behind it
that no element begins with. -/

/-- Lists of the same length can be split off element by element. -/
theorem SelfDelimiting.flatMap (h : SelfDelimiting D enc) {l l' : List α} (hl : ∀ a ∈ l, a ∈ D)
    (hl' : ∀ a ∈ l', a ∈ D) (hlen : l.length = l'.length) {s t : List σ}
    (heq : l.flatMap enc ++ s = l'.flatMap enc ++ t) : l = l' ∧ s = t := by
  induction l generalizing l' with
  | nil =>
    rw [List.length_nil, eq_comm, List.length_eq_zero_iff] at hlen
    subst hlen
    exact ⟨rfl, heq⟩
  | cons a l ih =>
    match l', hl', hlen, heq with
    | b :: l', hl', hlen, heq =>
      rw [List.flatMap_cons, List.flatMap_cons, List.append_assoc, List.append_assoc] at heq
      obtain ⟨rfl, hrest⟩ := h a (hl a List.mem_cons_self) b (hl' b List.mem_cons_self) _ _ heq
      obtain ⟨rfl, hst⟩ := ih (fun x hx => hl x (List.mem_cons_of_mem a hx))
        (fun x hx => hl' x (List.mem_cons_of_mem a hx)) (Nat.succ.inj hlen) hrest
      exact ⟨rfl, hst⟩

/-- A list to the end of the text, if no element has an empty text. -/
theorem SelfDelimiting.flatMap_inj (h : SelfDelimiting D enc) (hne : ∀ a ∈ D, enc a ≠ [])
    {l l' : List α} (hl : ∀ a ∈ l, a ∈ D) (hl' : ∀ a ∈ l', a ∈ D)
    (heq : l.flatMap enc = l'.flatMap enc) : l = l' := by
  induction l generalizing l' with
  | nil =>
    match l', hl', heq with
    | [], _, _ => rfl
    | b :: l', hl', heq =>
      have hb := (List.append_eq_nil_iff.mp heq.symm).1
      exact absurd hb (hne b (hl' b List.mem_cons_self))
  | cons a l ih =>
    match l', hl', heq with
    | [], _, heq =>
      have ha := (List.append_eq_nil_iff.mp heq).1
      exact absurd ha (hne a (hl a List.mem_cons_self))
    | b :: l', hl', heq =>
      rw [List.flatMap_cons, List.flatMap_cons] at heq
      obtain ⟨rfl, hrest⟩ := h a (hl a List.mem_cons_self) b (hl' b List.mem_cons_self) _ _ heq
      rw [ih (fun x hx => hl x (List.mem_cons_of_mem a hx))
        (fun x hx => hl' x (List.mem_cons_of_mem a hx)) hrest]

/-- A list behind its count. -/
theorem SelfDelimiting.counted (h : SelfDelimiting D enc) {N : Set ℕ} {count : ℕ → List σ}
    (hcount : SelfDelimiting N count) :
    SelfDelimiting {l : List α | l.length ∈ N ∧ ∀ a ∈ l, a ∈ D}
      (fun l => count l.length ++ l.flatMap enc) := by
  rintro l ⟨hn, hl⟩ l' ⟨hn', hl'⟩ s t heq
  simp only [List.append_assoc] at heq
  obtain ⟨hlen, hrest⟩ := hcount _ hn _ hn' _ _ heq
  exact h.flatMap hl hl' hlen hrest

/-- A list before a stop symbol that no element begins with. -/
theorem SelfDelimiting.terminated (h : SelfDelimiting D enc) {stop : σ}
    (hstop : ∀ a ∈ D, ∀ s t, enc a ++ s ≠ stop :: t) :
    SelfDelimiting {l : List α | ∀ a ∈ l, a ∈ D} (fun l => l.flatMap enc ++ [stop]) := by
  intro l hl l' hl' s t heq
  simp only [List.append_assoc, List.singleton_append] at heq
  induction l generalizing l' with
  | nil =>
    match l', hl', heq with
    | [], _, heq => exact ⟨rfl, List.tail_eq_of_cons_eq heq⟩
    | b :: l', hl', heq =>
      rw [List.flatMap_cons, List.append_assoc] at heq
      exact absurd heq.symm (hstop b (hl' b List.mem_cons_self) _ _)
  | cons a l ih =>
    rw [List.flatMap_cons, List.append_assoc] at heq
    match l', hl', heq with
    | [], _, heq => exact absurd heq (hstop a (hl a List.mem_cons_self) _ _)
    | b :: l', hl', heq =>
      rw [List.flatMap_cons, List.append_assoc] at heq
      obtain ⟨rfl, hrest⟩ := h a (hl a List.mem_cons_self) b (hl' b List.mem_cons_self) _ _ heq
      obtain ⟨rfl, hst⟩ := ih (fun x hx => hl x (List.mem_cons_of_mem a hx)) l'
        (fun x hx => hl' x (List.mem_cons_of_mem a hx)) hrest
      exact ⟨rfl, hst⟩

/-! ## Symbols and numbers

The elements: a symbol, a number of fixed width, a byte string behind its length. -/

/-- A symbol is its own text. -/
theorem selfDelimiting_symbol : SelfDelimiting Set.univ (fun a : σ => [a]) := by
  intro a _ b _ s t h
  exact List.cons_eq_cons.mp h

/-- A big-endian number of `w` bytes. -/
theorem selfDelimiting_be (w : ℕ) : SelfDelimiting {n | n < 256 ^ w} (ByteCodec.be w) :=
  .of_width w (fun n _ => ByteCodec.be_length w n)
    fun _ hm _ hn h => ByteCodec.be_inj hm hn h

/-- A byte string behind its length in `w` bytes. -/
theorem selfDelimiting_bytes (w : ℕ) :
    SelfDelimiting {bs : Bytes | bs.length < 256 ^ w}
      (fun bs => ByteCodec.be w bs.length ++ bs) := by
  have hlist := selfDelimiting_symbol.counted (σ := UInt8) (selfDelimiting_be w)
  simp only [List.flatMap_singleton'] at hlist
  intro a ha b hb s t h
  exact hlist a ⟨ha, fun _ _ => trivial⟩ b ⟨hb, fun _ _ => trivial⟩ s t h

end WasmRuntime.Codes
