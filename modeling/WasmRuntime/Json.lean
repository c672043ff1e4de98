/-
Compact JSON as `serde_json` writes it.

A serialiser is described by what it hands to its writer: a `Text` is the sequence of `write_all`
calls, in order. Strings are quoted and escaped byte by byte, an object is its members between
braces with a comma before all but the first, and there is no other white space. The escape table is
the crate's: the short forms for the five control characters that have one, `\u00xx` for the other
bytes below 32, and nothing else beyond the quote and the backslash.
-/
import WasmRuntime.Codes
import WasmRuntime.Exec
import Mathlib.Data.Nat.Digits.Defs

set_option autoImplicit false

namespace WasmRuntime.Json

open ByteCodec Codes

/-- The successive writes of a serialiser. -/
abbrev Text := List Bytes

/-- What the writes amount to. -/
def render (t : Text) : Bytes := t.flatten

/-- The number of bytes written. -/
def size (t : Text) : ℕ := (render t).length

/-- The escaped form of one byte of a string. -/
def escapeByte (b : UInt8) : Bytes :=
  if b = 34 then [92, 34]
  else if b = 92 then [92, 92]
  else if b = 8 then [92, 98]
  else if b = 9 then [92, 116]
  else if b = 10 then [92, 110]
  else if b = 12 then [92, 102]
  else if b = 13 then [92, 114]
  else if b < 32 then utf8 "\\u00" ++ utf8 (hexEncode [b])
  else [b]

/-- A string value: the quotes are writes of their own. -/
def str (s : String) : Text := [[34], (utf8 s).flatMap escapeByte, [34]]

/-- An unsigned integer value. -/
def num (n : ℕ) : Text := [utf8 (Nat.repr n)]

/-- One member of an object. -/
def member (key : String) (value : Text) : Text := str key ++ ([58] :: value)

/-- The members after the first, each behind its comma. -/
def moreMembers : List (String × Text) → Text
  | [] => []
  | (key, value) :: rest => [44] :: (member key value ++ moreMembers rest)

/-- An object value. -/
def obj : List (String × Text) → Text
  | [] => [[123], [125]]
  | (key, value) :: rest => [123] :: (member key value ++ (moreMembers rest ++ [[125]]))

/-- A boolean value. -/
def bool (b : Bool) : Text := [utf8 (if b then "true" else "false")]

/-- A signed integer value. -/
def int (i : ℤ) : Text := [utf8 (toString i)]

/-- The elements after the first, each behind its comma. -/
def moreElements : List Text → Text
  | [] => []
  | value :: rest => [44] :: (value ++ moreElements rest)

/-- An array value. -/
def arr : List Text → Text
  | [] => [[91], [93]]
  | value :: rest => [91] :: (value ++ (moreElements rest ++ [[93]]))

/-! ## How long a text can get

The one thing a bounded writer needs to know about a text. No byte takes more than six once escaped,
so the length of a string's text is bounded by the length of the string (`size_str_le`), and the
length of an object's by its members' (`size_obj_le`). -/

theorem render_append (s t : Text) : render (s ++ t) = render s ++ render t :=
  List.flatten_append

theorem size_nil : size [] = 0 := rfl

theorem size_cons (b : Bytes) (t : Text) : size (b :: t) = b.length + size t := by
  rw [size, render, List.flatten_cons, List.length_append]
  rfl

theorem size_append (s t : Text) : size (s ++ t) = size s + size t := by
  rw [size, render_append, List.length_append]
  rfl

/-- No byte takes more than six once escaped. -/
theorem escapeByte_length_le (b : UInt8) : (escapeByte b).length ≤ 6 := by
  have hhex : (utf8 "\\u00" ++ utf8 (hexEncode [b])).length = 6 := by
    rw [List.length_append, (utf8_hexEncode [b]).1]
    rfl
  unfold escapeByte
  split_ifs <;> first | exact hhex.le | simp

theorem flatMap_escapeByte_length_le (bs : Bytes) :
    (bs.flatMap escapeByte).length ≤ 6 * bs.length := by
  induction bs with
  | nil => simp
  | cons b bs ih =>
    have hb := escapeByte_length_le b
    rw [List.flatMap_cons, List.length_append, List.length_cons]
    omega

theorem size_str_le (s : String) : size (str s) ≤ 6 * (utf8 s).length + 2 := by
  have h := flatMap_escapeByte_length_le (utf8 s)
  rw [str, size_cons, size_cons, size_cons, size_nil]
  simp only [List.length_singleton]
  omega

theorem size_str_le_of {s : String} {n : ℕ} (h : (utf8 s).length ≤ n) :
    size (str s) ≤ 6 * n + 2 := by
  have hs := size_str_le s
  omega

/-- A number of at most `e` digits; a digit is one character, and no character takes
more than four bytes. -/
theorem size_num_le {n e : ℕ} (he : 0 < e) (hn : n < 10 ^ e) : size (num n) ≤ 4 * e := by
  have hchars : ∀ l : List Char, (l.flatMap String.utf8EncodeChar).length ≤ 4 * l.length := by
    intro l
    induction l with
    | nil => simp
    | cons c l ih =>
      have hc := c.utf8Size_le_four
      rw [List.flatMap_cons, List.length_append, List.length_cons,
        String.length_utf8EncodeChar]
      omega
  have hdigits : (Nat.toDigits 10 n).length ≤ e := Nat.toDigits_length 10 n e he hn
  have hnum := hchars (Nat.toDigits 10 n)
  rw [num, size_cons, size_nil, Nat.repr, utf8_ofList]
  omega

theorem size_member (key : String) (value : Text) :
    size (member key value) = size (str key) + 1 + size value := by
  rw [member, size_append, size_cons, List.length_singleton]
  omega

theorem size_moreMembers (fields : List (String × Text)) :
    size (moreMembers fields)
      = (fields.map (fun f => size (member f.1 f.2) + 1)).sum := by
  induction fields with
  | nil => rfl
  | cons f rest ih =>
    rw [moreMembers, size_cons, size_append, ih, List.map_cons, List.sum_cons,
      List.length_singleton]
    omega

/-- An object is its members, a comma or a brace for each, and one brace more. -/
theorem size_obj_le (fields : List (String × Text)) :
    size (obj fields) ≤ 2 + (fields.map (fun f => size (member f.1 f.2) + 1)).sum := by
  cases fields with
  | nil => simp [obj, size, render]
  | cons f rest =>
    rw [obj, size_cons, size_append, size_append, size_moreMembers, size_cons, size_nil,
      List.map_cons, List.sum_cons, List.length_singleton]
    simp only [List.length_singleton]
    omega

theorem size_obj_pos (fields : List (String × Text)) : 1 ≤ size (obj fields) := by
  cases fields with
  | nil => decide
  | cons f rest =>
    rw [obj, size_cons, List.length_singleton]
    omega

theorem size_bool_le (b : Bool) : size (bool b) ≤ 5 := by
  cases b <;> decide

/-- A number with its sign. -/
theorem size_int_le {i : ℤ} {e : ℕ} (he : 0 < e) (hi : i.natAbs < 10 ^ e) :
    size (int i) ≤ 4 * e + 1 := by
  have hnum := size_num_le he hi
  rw [num, size_cons, size_nil] at hnum
  rw [int, size_cons, size_nil]
  cases i with
  | ofNat n =>
    have htext : toString (Int.ofNat n) = Nat.repr n := rfl
    rw [htext]
    simp only [Int.ofNat_eq_natCast, Int.natAbs_natCast] at hnum
    omega
  | negSucc n =>
    have htext : toString (Int.negSucc n) = "-" ++ Nat.repr (n + 1) := rfl
    have hsign : (utf8 "-").length = 1 := by decide
    rw [htext, utf8_append, List.length_append, hsign]
    simp only [Int.natAbs_negSucc, Nat.succ_eq_add_one] at hnum
    omega

theorem size_moreElements_le {values : List Text} {b : ℕ} (h : ∀ v ∈ values, size v ≤ b) :
    size (moreElements values) ≤ values.length * (b + 1) := by
  induction values with
  | nil => simp [moreElements, size_nil]
  | cons v rest ih =>
    have hv := h v List.mem_cons_self
    have hrest := ih fun w hw => h w (List.mem_cons_of_mem v hw)
    rw [moreElements, size_cons, size_append, List.length_singleton, List.length_cons,
      Nat.succ_mul]
    omega

/-- An array is its elements, a comma or a bracket for each, and one bracket more. -/
theorem size_arr_le {values : List Text} {b : ℕ} (h : ∀ v ∈ values, size v ≤ b) :
    size (arr values) ≤ 2 + values.length * (b + 1) := by
  cases values with
  | nil => simp [arr, size, render]
  | cons v rest =>
    have hv := h v List.mem_cons_self
    have hrest := size_moreElements_le fun w hw => h w (List.mem_cons_of_mem v hw)
    rw [arr, size_cons, size_append, size_append, size_cons, size_nil]
    simp only [List.length_cons, List.length_nil, Nat.succ_mul]
    omega

/-! ## Where a text ends

What a hash needs to know. A string's text is self-delimiting whatever the string holds
(`selfDelimiting_str`), a number's is with the comma behind it (`selfDelimiting_num`). -/

theorem render_cons (b : Bytes) (t : Text) : render (b :: t) = b ++ render t :=
  List.flatten_cons

theorem render_nil : render [] = [] := rfl

/-- The byte that a short escape stands for. -/
def shortEscape (c : UInt8) : UInt8 :=
  if c = 98 then 8 else if c = 116 then 9 else if c = 110 then 10 else if c = 102 then 12
  else if c = 114 then 13 else c

/-- The three forms of an escaped byte: itself, a short escape, or its number. -/
theorem escapeByte_forms (b : UInt8) :
    (escapeByte b = [b] ∧ b ≠ 92 ∧ b ≠ 34) ∨
    (∃ c, escapeByte b = [92, c] ∧ c ≠ 117 ∧ shortEscape c = b) ∨
    escapeByte b = 92 :: 117 :: ([48, 48] ++ utf8 (hexEncode [b])) := by
  have hunicode : utf8 "\\u00" = [92, 117, 48, 48] := by decide
  unfold escapeByte
  split_ifs with h34 h92 h8 h9 h10 h12 h13 hlow
  · exact .inr (.inl ⟨34, rfl, by decide, by rw [h34]; decide⟩)
  · exact .inr (.inl ⟨92, rfl, by decide, by rw [h92]; decide⟩)
  · exact .inr (.inl ⟨98, rfl, by decide, by rw [h8]; decide⟩)
  · exact .inr (.inl ⟨116, rfl, by decide, by rw [h9]; decide⟩)
  · exact .inr (.inl ⟨110, rfl, by decide, by rw [h10]; decide⟩)
  · exact .inr (.inl ⟨102, rfl, by decide, by rw [h12]; decide⟩)
  · exact .inr (.inl ⟨114, rfl, by decide, by rw [h13]; decide⟩)
  · rw [hunicode]
    exact .inr (.inr rfl)
  · exact .inl ⟨rfl, h92, h34⟩

/-- No escaped byte begins with another one. The first symbol tells the plain bytes from the
escapes, the second the short escapes from each other and from the numbers. -/
theorem selfDelimiting_escapeByte : SelfDelimiting Set.univ escapeByte := by
  refine .of_prefix_eq fun a _ b _ hle => ?_
  rcases escapeByte_forms a with ⟨ha, ha', -⟩ | ⟨c, ha, hc, hac⟩ | ha <;>
    rcases escapeByte_forms b with ⟨hb, hb', -⟩ | ⟨d, hb, hd, hbd⟩ | hb <;>
    rw [ha, hb] at hle <;> simp only [List.cons_prefix_cons] at hle
  · exact hle.1
  · exact absurd hle.1 ha'
  · exact absurd hle.1 ha'
  · exact absurd hle.1.symm hb'
  · rw [← hac, ← hbd, hle.2.1]
  · exact absurd hle.2.1 hc
  · exact absurd hle.1.symm hb'
  · exact absurd hle.2.1.symm hd
  · have htail := (List.prefix_append_right_inj [48, 48]).mp hle.2.2
    have hhex := htail.eq_of_length (by rw [(utf8_hexEncode [a]).1, (utf8_hexEncode [b]).1]; rfl)
    exact List.singleton_inj.mp (hexEncode_inj (utf8_inj hhex))

/-- An escaped byte does not begin with a quote. -/
theorem escapeByte_ne_quote (b : UInt8) (s t : Bytes) : escapeByte b ++ s ≠ 34 :: t := by
  intro h
  rcases escapeByte_forms b with ⟨hb, -, hquote⟩ | ⟨c, hb, -, -⟩ | hb
  · rw [hb] at h
    exact hquote (List.cons.inj h).1
  · rw [hb] at h
    cases (List.cons.inj h).1
  · rw [hb] at h
    cases (List.cons.inj h).1

/-- The text of a string ends with the first quote that is not escaped. -/
theorem selfDelimiting_str : SelfDelimiting Set.univ (fun s => render (str s)) := by
  have hbody := selfDelimiting_escapeByte.terminated fun b _ => escapeByte_ne_quote b
  intro a _ b _ s t h
  have hrender : ∀ x : String, render (str x) = 34 :: ((utf8 x).flatMap escapeByte ++ [34]) :=
    fun x => by rw [str, render_cons, render_cons, render_cons, render_nil]; rfl
  simp only [hrender, List.cons_append, List.cons.injEq, true_and] at h
  obtain ⟨hutf8, hst⟩ := hbody (utf8 a) (fun _ _ => trivial) (utf8 b) (fun _ _ => trivial) s t h
  exact ⟨utf8_inj hutf8, hst⟩

theorem utf8EncodeChar_inj {a b : Char} (h : String.utf8EncodeChar a = String.utf8EncodeChar b) :
    a = b := by
  have hsingle : utf8 (String.ofList [a]) = utf8 (String.ofList [b]) := by
    rw [utf8_ofList, utf8_ofList, List.flatMap_singleton, List.flatMap_singleton, h]
  exact List.singleton_inj.mp (String.ofList_injective (utf8_inj hsingle))

theorem utf8EncodeChar_digit_length {c : Char} (hc : c.isDigit = true) :
    (String.utf8EncodeChar c).length = 1 := by
  simp only [Char.isDigit, Bool.and_eq_true, decide_eq_true_eq] at hc
  rw [String.length_utf8EncodeChar, Char.utf8Size_eq_one_iff]
  exact UInt32.le_trans hc.2 (by decide)

/-- A number has no end of its own, but the comma behind it is none of its digits. -/
theorem selfDelimiting_num : SelfDelimiting Set.univ (fun n => render (num n) ++ [44]) := by
  have hdigit : SelfDelimiting {c : Char | c.isDigit = true} String.utf8EncodeChar :=
    .of_width 1 (fun _ hc => utf8EncodeChar_digit_length hc) fun _ _ _ _ h => utf8EncodeChar_inj h
  have hstop : ∀ c ∈ {c : Char | c.isDigit = true}, ∀ s t,
      String.utf8EncodeChar c ++ s ≠ (44 : UInt8) :: t := by
    intro c hc s t h
    obtain ⟨b, hb⟩ := List.length_eq_one_iff.mp (utf8EncodeChar_digit_length hc)
    rw [hb, List.singleton_append, List.cons.injEq] at h
    -- A comma is no digit.
    have hcomma : c = ',' := utf8EncodeChar_inj (by rw [hb, h.1]; decide)
    rw [hcomma] at hc
    exact absurd hc (by decide)
  have hbody := hdigit.terminated hstop
  have hrender : ∀ n, render (num n) = (Nat.toDigits 10 n).flatMap String.utf8EncodeChar :=
    fun n => by rw [num, render_cons, render_nil, List.append_nil, Nat.repr, utf8_ofList]
  intro m _ n _ s t h
  simp only [hrender] at h
  obtain ⟨hdigits, hst⟩ := hbody _
    (fun c hc => Nat.isDigit_of_mem_toDigits (by decide) (by decide) hc) _
    (fun c hc => Nat.isDigit_of_mem_toDigits (by decide) (by decide) hc) s t h
  refine ⟨?_, hst⟩
  rw [← Nat.ofDigitChars_toDigits (n := m) (b := 10) (by decide) (by decide), hdigits,
    Nat.ofDigitChars_toDigits (by decide) (by decide)]

end WasmRuntime.Json
