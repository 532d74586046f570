import Mathlib.Data.List.Basic

namespace Zynax.Golang

/-!
# Text encodings of bytes

`encoding/hex` and `encoding/base64`.
-/

/-! ### Bytes and their texts -/

def asciiBytes (s : List Char) : List UInt8 := s.map (fun c => UInt8.ofNat c.toNat)

def asciiText (b : List UInt8) : List Char := b.map (fun x => Char.ofNat x.toNat)

theorem asciiText_asciiBytes {s : List Char} (hs : ∀ c ∈ s, c.toNat < 128) :
    asciiText (asciiBytes s) = s := by
  rw [asciiText, asciiBytes, List.map_map]
  conv_rhs => rw [← List.map_id s]
  apply List.map_congr_left
  intro c hc
  have hlt : c.toNat < 256 := by
    grind
  simp only [Function.comp_apply, id_eq]
  rw [UInt8.toNat_ofNat_of_lt' hlt, Char.ofNat_toNat]

def stringBytes (s : String) : List UInt8 := s.toUTF8.data.toList

theorem fromUTF8_stringBytes (s : String) :
    String.fromUTF8? ⟨(stringBytes s).toArray⟩ = some s := by
  have hbytes : (⟨(stringBytes s).toArray⟩ : ByteArray) = s.toByteArray := rfl
  rw [hbytes, String.fromUTF8?, dif_pos s.isValidUTF8]
  rfl

theorem stringBytes_inj {s t : String} (h : stringBytes s = stringBytes t) : s = t := by
  have hread := fromUTF8_stringBytes s
  rw [h, fromUTF8_stringBytes t] at hread
  grind

/-! ### Hexadecimal -/

def hexDigit (n : Nat) : Char := "0123456789abcdef".toList.getD n '0'

def hexEncodeToString (data : List UInt8) : String :=
  String.ofList (data.flatMap (fun b => [hexDigit (b.toNat / 16), hexDigit (b.toNat % 16)]))

/-! ### Base 64 -/

def base64Alphabet : List Char :=
  "ABCDEFGHIJKLMNOPQRSTUVWXYZabcdefghijklmnopqrstuvwxyz0123456789+/".toList

def base64Digit (n : Nat) : Char := base64Alphabet.getD n 'A'

def base64Value (c : Char) : Option Nat := base64Alphabet.findIdx? (· = c)

def base64Chars : List UInt8 → List Char
  | [] => []
  | [a] => [base64Digit (a.toNat / 4), base64Digit (a.toNat % 4 * 16), '=', '=']
  | [a, b] =>
    [base64Digit (a.toNat / 4), base64Digit (a.toNat % 4 * 16 + b.toNat / 16),
      base64Digit (b.toNat % 16 * 4), '=']
  | a :: b :: c :: rest =>
    base64Digit (a.toNat / 4) :: base64Digit (a.toNat % 4 * 16 + b.toNat / 16) ::
      base64Digit (b.toNat % 16 * 4 + c.toNat / 64) :: base64Digit (c.toNat % 64) ::
        base64Chars rest

def base64Encode (data : List UInt8) : String := String.ofList (base64Chars data)

def base64Quanta : List Char → Option (List UInt8)
  | [] => some []
  | c0 :: c1 :: c2 :: c3 :: rest => do
    let v0 ← base64Value c0
    let v1 ← base64Value c1
    let b0 := UInt8.ofNat (v0 * 4 + v1 / 16)
    if c2 = '=' then
      if c3 = '=' ∧ rest = [] then some [b0] else none
    else
      let v2 ← base64Value c2
      let b1 := UInt8.ofNat (v1 % 16 * 16 + v2 / 4)
      if c3 = '=' then
        if rest = [] then some [b0, b1] else none
      else
        let v3 ← base64Value c3
        let bytes ← base64Quanta rest
        some (b0 :: b1 :: UInt8.ofNat (v2 % 4 * 64 + v3) :: bytes)
  | _ => none

def base64Decode (s : String) : Option (List UInt8) :=
  base64Quanta (s.toList.filter (fun c => c ≠ '\n' ∧ c ≠ '\r'))

theorem base64Value_digit : ∀ n < 64, base64Value (base64Digit n) = some n := by decide +kernel

theorem base64Digit_ne : ∀ n < 64,
    base64Digit n ≠ '=' ∧ base64Digit n ≠ '\n' ∧ base64Digit n ≠ '\r' := by decide +kernel

theorem ofNat_eq_of_eq_toNat {n : Nat} {b : UInt8} (h : n = b.toNat) : UInt8.ofNat n = b := by
  rw [h, UInt8.ofNat_toNat]

theorem base64Quanta_chars (data : List UInt8) :
    base64Quanta (base64Chars data) = some data := by
  -- one group at a time: the digits are read, and their bits are those of the bytes
  induction data using base64Chars.induct with
  | case1 => rfl
  | case2 a =>
    have ha := a.toNat_lt
    have h0 := base64Value_digit (a.toNat / 4) (by omega)
    have h1 := base64Value_digit (a.toNat % 4 * 16) (by omega)
    have hbyte : UInt8.ofNat (a.toNat / 4 * 4 + a.toNat % 4 * 16 / 16) = a :=
      ofNat_eq_of_eq_toNat (by omega)
    simp only [base64Chars, base64Quanta, h0, h1, hbyte, Option.bind_eq_bind, Option.bind_some,
      if_true, and_self]
  | case3 a b =>
    have ha := a.toNat_lt
    have hb := b.toNat_lt
    have h0 := base64Value_digit (a.toNat / 4) (by omega)
    have h1 := base64Value_digit (a.toNat % 4 * 16 + b.toNat / 16) (by omega)
    have h2 := base64Value_digit (b.toNat % 16 * 4) (by omega)
    have hne := (base64Digit_ne (b.toNat % 16 * 4) (by omega)).1
    have hbyte0 : UInt8.ofNat (a.toNat / 4 * 4 + (a.toNat % 4 * 16 + b.toNat / 16) / 16) = a :=
      ofNat_eq_of_eq_toNat (by omega)
    have hbyte1 : UInt8.ofNat ((a.toNat % 4 * 16 + b.toNat / 16) % 16 * 16 +
        b.toNat % 16 * 4 / 4) = b := ofNat_eq_of_eq_toNat (by omega)
    simp only [base64Chars, base64Quanta, h0, h1, h2, hne, hbyte0, hbyte1, Option.bind_eq_bind,
      Option.bind_some, if_true, if_false]
  | case4 a b c rest ih =>
    have ha := a.toNat_lt
    have hb := b.toNat_lt
    have hc := c.toNat_lt
    have h0 := base64Value_digit (a.toNat / 4) (by omega)
    have h1 := base64Value_digit (a.toNat % 4 * 16 + b.toNat / 16) (by omega)
    have h2 := base64Value_digit (b.toNat % 16 * 4 + c.toNat / 64) (by omega)
    have h3 := base64Value_digit (c.toNat % 64) (by omega)
    have hne2 := (base64Digit_ne (b.toNat % 16 * 4 + c.toNat / 64) (by omega)).1
    have hne3 := (base64Digit_ne (c.toNat % 64) (by omega)).1
    have hbyte0 : UInt8.ofNat (a.toNat / 4 * 4 + (a.toNat % 4 * 16 + b.toNat / 16) / 16) = a :=
      ofNat_eq_of_eq_toNat (by omega)
    have hbyte1 : UInt8.ofNat ((a.toNat % 4 * 16 + b.toNat / 16) % 16 * 16 +
        (b.toNat % 16 * 4 + c.toNat / 64) / 4) = b := ofNat_eq_of_eq_toNat (by omega)
    have hbyte2 : UInt8.ofNat ((b.toNat % 16 * 4 + c.toNat / 64) % 4 * 64 + c.toNat % 64) = c :=
      ofNat_eq_of_eq_toNat (by omega)
    simp only [base64Chars, base64Quanta, h0, h1, h2, h3, hne2, hne3, hbyte0, hbyte1, hbyte2, ih,
      Option.bind_eq_bind, Option.bind_some, if_false]

theorem notMem_lineBreak_base64Chars (data : List UInt8) :
    ∀ c ∈ base64Chars data, c ≠ '\n' ∧ c ≠ '\r' := by
  have hdigit : ∀ n < 64, base64Digit n ≠ '\n' ∧ base64Digit n ≠ '\r' := fun n hn =>
    (base64Digit_ne n hn).2
  induction data using base64Chars.induct with
  | case1 => simp [base64Chars]
  | case2 a =>
    have ha := a.toNat_lt
    simp only [base64Chars, List.forall_mem_cons]
    grind
  | case3 a b =>
    have ha := a.toNat_lt
    have hb := b.toNat_lt
    simp only [base64Chars, List.forall_mem_cons]
    grind
  | case4 a b c rest ih =>
    have ha := a.toNat_lt
    have hb := b.toNat_lt
    have hc := c.toNat_lt
    simp only [base64Chars, List.forall_mem_cons]
    grind

theorem base64Decode_encode (data : List UInt8) : base64Decode (base64Encode data) = some data := by
  have hfilter : (base64Chars data).filter (fun c => c ≠ '\n' ∧ c ≠ '\r') = base64Chars data := by
    rw [List.filter_eq_self]
    intro c hc
    exact decide_eq_true (notMem_lineBreak_base64Chars data c hc)
  rw [base64Decode, base64Encode, String.toList_ofList, hfilter, base64Quanta_chars]

theorem base64Encode_ne_empty {data : List UInt8} (h : data ≠ []) : base64Encode data ≠ "" := by
  intro he
  have hdec := base64Decode_encode data
  rw [he] at hdec
  exact h (Option.some.inj hdec).symm

end Zynax.Golang
