/-
Byte strings, big-endian integers and lowercase hexadecimal.

Everything that crosses a boundary in the crate is a byte string: checkpoint artifacts, journals,
worker frames, cache metadata. The integers inside them are fixed-width and big-endian, and every
digest is printed in lowercase hex, so those three notions are settled here once, over `List UInt8`,
with no reference to any format that uses them.
-/
import Mathlib.Tactic.Ring
import Mathlib.Data.List.Induction

set_option autoImplicit false

namespace WasmRuntime

/-- A byte string. -/
abbrev Bytes := List UInt8

namespace ByteCodec

/-! ## Big-endian integers

The integer codec is stated at an arbitrary width `w`, because the formats use four of them (two,
four, six and eight bytes), and the six-byte one has no machine type to borrow lemmas from. The two
round trips are `be_val` (a number below `256 ^ w` survives) and `val_be` (every string of `w` bytes
is the encoding of its value); with `be_length` they make `be w` a bijection onto the strings of
length `w`, which is what an exact-acceptance theorem needs. -/

/-- The `w` low-order base-256 digits of `n`, most significant first. -/
def be : ℕ → ℕ → Bytes
  | 0, _ => []
  | w + 1, n => be w (n / 256) ++ [UInt8.ofNat n]

/-- The number a big-endian byte string denotes. -/
def beVal (bs : Bytes) : ℕ := bs.foldl (fun acc b => acc * 256 + b.toNat) 0

@[simp] theorem be_length (w n : ℕ) : (be w n).length = w := by
  induction w generalizing n with
  | zero => rfl
  | succ w ih => simp only [be, List.length_append, ih, List.length_singleton]

@[simp] theorem beVal_nil : beVal [] = 0 := rfl

theorem beVal_append_singleton (bs : Bytes) (b : UInt8) :
    beVal (bs ++ [b]) = beVal bs * 256 + b.toNat := by
  simp only [beVal, List.foldl_append, List.foldl_cons, List.foldl_nil]

/-- The value is below `256 ^ w`. -/
theorem beVal_lt (bs : Bytes) : beVal bs < 256 ^ bs.length := by
  induction bs using List.reverseRecOn with
  | nil => simp
  | append_singleton bs b ih =>
    have hb : b.toNat < 256 := b.toNat_lt
    rw [beVal_append_singleton, List.length_append, List.length_singleton, pow_succ]
    omega

/-- A number below `256 ^ w` survives the trip through `w` bytes. -/
theorem be_val (w n : ℕ) (hn : n < 256 ^ w) : beVal (be w n) = n := by
  induction w generalizing n with
  | zero =>
    have hn0 : n = 0 := by simpa using hn
    rw [hn0]
    rfl
  | succ w ih =>
    have hdiv : n / 256 < 256 ^ w := by
      rw [pow_succ] at hn
      exact Nat.div_lt_of_lt_mul (by rwa [Nat.mul_comm] at hn)
    rw [be, beVal_append_singleton, ih _ hdiv, UInt8.toNat_ofNat']
    omega

/-- Every string of bytes is the encoding of its own value at its own width. -/
theorem val_be (bs : Bytes) : be bs.length (beVal bs) = bs := by
  induction bs using List.reverseRecOn with
  | nil => rfl
  | append_singleton bs b ih =>
    have hb : b.toNat < 256 := b.toNat_lt
    have hdiv : (beVal bs * 256 + b.toNat) / 256 = beVal bs := by omega
    have hlast : UInt8.ofNat (beVal bs * 256 + b.toNat) = b := by
      apply UInt8.toNat_inj.mp
      rw [UInt8.toNat_ofNat']
      omega
    rw [beVal_append_singleton, List.length_append, List.length_singleton, be, hdiv, ih, hlast]

/-- The width-`w` encoding determines the number. -/
theorem be_inj {w m n : ℕ} (hm : m < 256 ^ w) (hn : n < 256 ^ w) (h : be w m = be w n) :
    m = n := by
  rw [← be_val w m hm, h, be_val w n hn]

/-! ## UTF-8

A string is handed to a hash, a length check or an encoder as its UTF-8 bytes. -/

/-- The UTF-8 bytes of a string. -/
def utf8 (s : String) : Bytes := s.toByteArray.data.toList

theorem utf8_append (s t : String) : utf8 (s ++ t) = utf8 s ++ utf8 t := by
  simp [utf8]

theorem utf8_ofList (l : List Char) :
    utf8 (String.ofList l) = l.flatMap String.utf8EncodeChar := by
  induction l with
  | nil => rfl
  | cons c l ih =>
    simp only [utf8, String.toByteArray_ofList] at ih ⊢
    rw [List.utf8Encode_cons, List.utf8Encode_singleton]
    simp [ih]

/-- A string is determined by its bytes. -/
theorem utf8_inj {s t : String} (h : utf8 s = utf8 t) : s = t := by
  apply String.toByteArray_inj.mp
  apply ByteArray.ext
  exact Array.toList_inj.mp h

/-! ## Lowercase hexadecimal

Written in lower case only and read in both, so decoding inverts encoding and not the other way
about. -/

/-- The lowercase hexadecimal digit of a nibble. -/
def hexDigit (d : ℕ) : Char :=
  if d < 10 then Char.ofNat (48 + d) else Char.ofNat (87 + d)

/-- The value of a hexadecimal digit; both cases are read. -/
def hexVal (c : Char) : Option ℕ :=
  if '0' ≤ c ∧ c ≤ '9' then some (c.toNat - 48)
  else if 'a' ≤ c ∧ c ≤ 'f' then some (c.toNat - 87)
  else if 'A' ≤ c ∧ c ≤ 'F' then some (c.toNat - 55)
  else none

/-- The two hexadecimal digits of a byte. -/
def hexPair (b : UInt8) : List Char := [hexDigit (b.toNat / 16), hexDigit (b.toNat % 16)]

/-- `hex::encode`: lowercase, two digits a byte. -/
def hexEncode (bs : Bytes) : String := String.ofList (bs.flatMap hexPair)

/-- `hex::decode` on characters: pairs of digits of either case, no odd rest. -/
def hexDecodeChars : List Char → Option Bytes
  | [] => some []
  | [_] => none
  | a :: b :: rest => do
      let hi ← hexVal a
      let lo ← hexVal b
      let tail ← hexDecodeChars rest
      pure (UInt8.ofNat (16 * hi + lo) :: tail)

/-- `hex::decode`. -/
def hexDecode (s : String) : Option Bytes := hexDecodeChars s.toList

theorem hexVal_hexDigit : ∀ d < 16, hexVal (hexDigit d) = some d := by decide

/-- A byte is a lowercase hexadecimal digit: `is_ascii_digit` or in `a..=f`. -/
def isHexByte (b : UInt8) : Bool := (48 ≤ b && b ≤ 57) || (97 ≤ b && b ≤ 102)

theorem utf8EncodeChar_hexDigit : ∀ d < 16,
    (String.utf8EncodeChar (hexDigit d)).length = 1 ∧
      (String.utf8EncodeChar (hexDigit d)).all isHexByte := by decide

/-- What was encoded decodes to itself. -/
theorem hexDecode_hexEncode (bs : Bytes) : hexDecode (hexEncode bs) = some bs := by
  rw [hexDecode, hexEncode, String.toList_ofList]
  induction bs with
  | nil => rfl
  | cons b bs ih =>
    have hb : b.toNat < 256 := b.toNat_lt
    have hcons : (b :: bs).flatMap hexPair
        = hexDigit (b.toNat / 16) :: hexDigit (b.toNat % 16) :: bs.flatMap hexPair := by
      simp [List.flatMap_cons, hexPair]
    have hbyte : UInt8.ofNat (16 * (b.toNat / 16) + b.toNat % 16) = b := by
      rw [Nat.div_add_mod]
      exact UInt8.ofNat_toNat
    rw [hcons, hexDecodeChars, hexVal_hexDigit _ (by omega), hexVal_hexDigit _ (by omega), ih]
    simp only [Option.pure_def, Option.bind_eq_bind, Option.bind_some, hbyte]

theorem hexEncode_inj {a b : Bytes} (h : hexEncode a = hexEncode b) : a = b := by
  have hab : some a = some b := by rw [← hexDecode_hexEncode a, h, hexDecode_hexEncode b]
  exact Option.some.inj hab

theorem utf8_hexEncode_cons (b : UInt8) (bs : Bytes) :
    utf8 (hexEncode (b :: bs))
      = String.utf8EncodeChar (hexDigit (b.toNat / 16))
        ++ (String.utf8EncodeChar (hexDigit (b.toNat % 16)) ++ utf8 (hexEncode bs)) := by
  simp only [hexEncode, utf8_ofList, List.flatMap_cons, hexPair, List.flatMap_append,
    List.flatMap_nil, List.append_nil, List.append_assoc]

/-- The hex text of `n` bytes has `2 n` bytes, each a lowercase hex digit. -/
theorem utf8_hexEncode (bs : Bytes) :
    (utf8 (hexEncode bs)).length = 2 * bs.length ∧ (utf8 (hexEncode bs)).all isHexByte := by
  induction bs with
  | nil => exact ⟨rfl, rfl⟩
  | cons b bs ih =>
    have hb : b.toNat < 256 := b.toNat_lt
    obtain ⟨hhi, hhi'⟩ := utf8EncodeChar_hexDigit (b.toNat / 16) (by omega)
    obtain ⟨hlo, hlo'⟩ := utf8EncodeChar_hexDigit (b.toNat % 16) (by omega)
    rw [utf8_hexEncode_cons]
    refine ⟨?_, ?_⟩
    · simp only [List.length_append, hhi, hlo, ih.1, List.length_cons]
      omega
    · simp only [List.all_append, hhi', hlo', ih.2, Bool.and_self]

end ByteCodec

end WasmRuntime
