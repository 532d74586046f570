import Zynax.Golang.Encoding
import Zynax.Golang.Json

namespace Zynax.Golang.Utf8

open Golang

/-!
# UTF-8

Go strings are bytes.  Reading them as text gives the replacement character for each byte that
belongs to no character; a field of type `string` of a protobuf message may hold nothing but the
encoding of a text.
-/

def encode (l : List Char) : List UInt8 := l.flatMap String.utf8EncodeChar

@[simp] theorem encode_nil : encode [] = [] := rfl

@[simp] theorem encode_cons (c : Char) (l : List Char) :
    encode (c :: l) = String.utf8EncodeChar c ++ encode l := List.flatMap_cons

@[simp] theorem encode_append (a b : List Char) : encode (a ++ b) = encode a ++ encode b :=
  List.flatMap_append

theorem stringBytes_eq (s : String) : stringBytes s = encode s.toList := by
  show s.toByteArray.data.toList = _
  rw [← String.utf8Encode_toList, List.utf8Encode, List.data_toByteArray]
  rfl

theorem encode_eq_stringBytes (l : List Char) : encode l = stringBytes (String.ofList l) := by
  rw [stringBytes_eq, String.toList_ofList]

def Valid (b : List UInt8) : Prop := ∃ l, encode l = b

theorem Valid.append {a b : List UInt8} (ha : Valid a) (hb : Valid b) : Valid (a ++ b) := by
  obtain ⟨l, rfl⟩ := ha
  obtain ⟨m, rfl⟩ := hb
  exact ⟨l ++ m, encode_append l m⟩

theorem valid_flatMap {ι : Type} {f : ι → List UInt8} {l : List ι} (h : ∀ x ∈ l, Valid (f x)) :
    Valid (l.flatMap f) := by
  induction l with
  | nil => exact ⟨[], rfl⟩
  | cons x l ih =>
    rw [List.forall_mem_cons] at h
    rw [List.flatMap_cons]
    exact h.1.append (ih h.2)

theorem length_le_length_encode (l : List Char) : l.length ≤ (encode l).length := by
  induction l with
  | nil => exact Nat.le_refl 0
  | cons c l ih =>
    have hpos := List.length_pos_iff.mpr (String.utf8EncodeChar_ne_nil (c := c))
    simp only [encode_cons, List.length_append, List.length_cons]
    omega

/-! ### Decoding -/

def decodeRune (b : List UInt8) : Char × Nat :=
  match b.toByteArray.utf8DecodeChar? 0 with
  | some c => (c, c.utf8Size)
  | none => ('\ufffd', 1)

def textFrom : Nat → List UInt8 → List Char
  | _, [] => []
  | n + 1, _ :: r => textFrom n r
  | 0, b :: r => (decodeRune (b :: r)).1 :: textFrom ((decodeRune (b :: r)).2 - 1) r

def text (b : List UInt8) : String := String.ofList (textFrom 0 b)

def unmarshal (b : List UInt8) : Option Json := Json.unmarshal (text b)

def escapeRune (b : List UInt8) : List Char :=
  match b.toByteArray.utf8DecodeChar? 0 with
  | some c => Json.escapeChar c
  | none => Json.unicodeEscape 0xfffd

def escapeFrom : Nat → List UInt8 → List Char
  | _, [] => []
  | n + 1, _ :: r => escapeFrom n r
  | 0, b :: r => escapeRune (b :: r) ++ escapeFrom ((decodeRune (b :: r)).2 - 1) r

def quote (b : List UInt8) : List UInt8 := encode ('"' :: (escapeFrom 0 b ++ ['"']))

theorem decodeRune_encode (c : Char) (r : List UInt8) :
    decodeRune (String.utf8EncodeChar c ++ r) = (c, c.utf8Size) := by
  unfold decodeRune
  rw [List.toByteArray_append, ByteArray.utf8DecodeChar?_utf8EncodeChar_append]

theorem textFrom_length (a r : List UInt8) : textFrom a.length (a ++ r) = textFrom 0 r := by
  induction a with
  | nil => rfl
  | cons b a ih => exact ih

theorem textFrom_encode (l : List Char) : textFrom 0 (encode l) = l := by
  induction l with
  | nil => rfl
  | cons c l ih =>
    obtain ⟨b, tail, hc⟩ := List.exists_cons_of_ne_nil (String.utf8EncodeChar_ne_nil (c := c))
    have hdec := decodeRune_encode c (encode l)
    -- the bytes to be skipped are the other bytes of the character
    have hwidth : c.utf8Size = tail.length + 1 := by
      rw [← String.length_utf8EncodeChar, hc, List.length_cons]
    rw [hc, List.cons_append] at hdec
    rw [encode_cons, hc, List.cons_append, textFrom, hdec, hwidth, Nat.add_sub_cancel,
      textFrom_length, ih]

/-- **What was encoded is read again.** -/
theorem text_encode (l : List Char) : text (encode l) = String.ofList l := by
  rw [text, textFrom_encode]

example : text [0x68, 0xff, 0xc3, 0xa9, 0xc3] = "h\ufffdé\ufffd" := by decide +kernel

@[simp] theorem text_stringBytes (s : String) : text (stringBytes s) = s := by
  rw [stringBytes_eq, text_encode, String.ofList_toList]

theorem text_eq_empty_iff {b : List UInt8} : text b = "" ↔ b = [] := by
  cases b with
  | nil => exact iff_of_true rfl rfl
  | cons x r => simp [text, textFrom]

theorem escapeFrom_encode (l : List Char) : escapeFrom 0 (encode l) = l.flatMap Json.escapeChar := by
  have hskip : ∀ a r : List UInt8, escapeFrom a.length (a ++ r) = escapeFrom 0 r := by
    intro a r
    induction a with
    | nil => rfl
    | cons b a ih => exact ih
  induction l with
  | nil => rfl
  | cons c l ih =>
    obtain ⟨b, tail, hc⟩ := List.exists_cons_of_ne_nil (String.utf8EncodeChar_ne_nil (c := c))
    have hdec := decodeRune_encode c (encode l)
    have hwidth : c.utf8Size = tail.length + 1 := by
      rw [← String.length_utf8EncodeChar, hc, List.length_cons]
    have hrune : escapeRune (b :: (tail ++ encode l)) = Json.escapeChar c := by
      rw [← List.cons_append, ← hc, escapeRune, List.toByteArray_append,
        ByteArray.utf8DecodeChar?_utf8EncodeChar_append]
    rw [hc, List.cons_append] at hdec
    rw [encode_cons, hc, List.cons_append, escapeFrom, hdec, hwidth, Nat.add_sub_cancel, hskip, ih,
      hrune, List.flatMap_cons]

/-! ### ASCII -/

theorem utf8EncodeChar_ascii {c : Char} (hc : c.toNat < 128) :
    String.utf8EncodeChar c = [UInt8.ofNat c.toNat] := by
  have hle : c.val.toNat ≤ 0x7f := Nat.le_of_lt_succ hc
  simp only [String.utf8EncodeChar, if_pos hle]
  rfl

/-! ### Where characters begin -/

theorem utf8EncodeChar_eq_cons (c : Char) : ∃ b r, String.utf8EncodeChar c = b :: r ∧
    b.IsUTF8FirstByte ∧ ∀ x ∈ r, ¬ x.IsUTF8FirstByte := by
  obtain ⟨b, r, hc⟩ := List.exists_cons_of_ne_nil (String.utf8EncodeChar_ne_nil (c := c))
  have hfirst : ∀ i (hi : i < (b :: r).length), (b :: r)[i].IsUTF8FirstByte ↔ i = 0 := by
    rw [← hc]
    simp
  refine ⟨b, r, hc, (hfirst 0 (by simp)).mpr rfl, fun x hx => ?_⟩
  obtain ⟨i, hi, rfl⟩ := List.getElem_of_mem hx
  have hnot := hfirst (i + 1) (by simpa using hi)
  grind

theorem eq_of_utf8EncodeChar_append {c d : Char} {r s : List UInt8}
    (h : String.utf8EncodeChar c ++ r = String.utf8EncodeChar d ++ s) : c = d ∧ r = s := by
  have hcd : c = d := by
    have hc := decodeRune_encode c r
    rw [h, decodeRune_encode] at hc
    exact (Prod.mk.inj hc).1.symm
  subst hcd
  exact ⟨rfl, List.append_cancel_left h⟩

theorem mem_encode_ascii {l : List Char} {d : Char} (hd : d.toNat < 128) :
    UInt8.ofNat d.toNat ∈ encode l ↔ d ∈ l := by
  rw [encode, List.mem_flatMap]
  constructor
  · rintro ⟨c, hc, hmem⟩
    obtain ⟨b, r, hcons, -, htail⟩ := utf8EncodeChar_eq_cons c
    rw [hcons] at hmem
    rcases List.mem_cons.mp hmem with heq | hmem
    · have happend : String.utf8EncodeChar c ++ [] = String.utf8EncodeChar d ++ r := by
        rw [utf8EncodeChar_ascii hd, hcons, ← heq, List.append_nil, List.singleton_append]
      exact (eq_of_utf8EncodeChar_append happend).1 ▸ hc
    · -- a byte of ASCII begins a character
      obtain ⟨b', r', hd', hfirst, -⟩ := utf8EncodeChar_eq_cons d
      rw [utf8EncodeChar_ascii hd] at hd'
      grind
  · intro hmem
    exact ⟨d, hmem, by rw [utf8EncodeChar_ascii hd, List.mem_singleton]⟩

/-- **A text begins with another one exactly when its bytes do.** -/
theorem encode_prefix_iff {a b : List Char} : encode a <+: encode b ↔ a <+: b := by
  constructor
  · intro h
    induction a generalizing b with
    | nil => exact List.nil_prefix
    | cons c a ih =>
      obtain ⟨r, hr⟩ := h
      cases b with
      | nil => simp [String.utf8EncodeChar_ne_nil] at hr
      | cons d b =>
        rw [encode_cons, encode_cons, List.append_assoc] at hr
        obtain ⟨rfl, hrest⟩ := eq_of_utf8EncodeChar_append hr
        grind
  · rintro ⟨r, rfl⟩
    simp

/-- **A cut of a text is a text exactly when it is made between two characters**, or not at all. -/
theorem valid_take_iff (l : List Char) (n : Nat) :
    Valid ((encode l).take n) ↔ (encode l).length ≤ n ∨ ∃ a, a <+: l ∧ (encode a).length = n := by
  rcases Nat.lt_or_ge n (encode l).length with hlt | hle
  · rw [or_iff_right (by omega)]
    constructor
    · rintro ⟨a, ha⟩
      have hpre : encode a <+: encode l := ha ▸ List.take_prefix n _
      refine ⟨a, encode_prefix_iff.mp hpre, ?_⟩
      grind
    · rintro ⟨a, ⟨r, rfl⟩, rfl⟩
      exact ⟨a, by rw [encode_append, List.take_left]⟩
  · exact iff_of_true ⟨l, (List.take_of_length_le hle).symm⟩ (Or.inl hle)

theorem Valid.isFirstByte {b : UInt8} {r : List UInt8} (h : Valid (b :: r)) : b.IsUTF8FirstByte := by
  obtain ⟨l, hl⟩ := h
  cases l with
  | nil => cases hl
  | cons c l =>
    obtain ⟨b', r', hc, hfirst, -⟩ := utf8EncodeChar_eq_cons c
    rw [encode_cons, hc, List.cons_append, List.cons.injEq] at hl
    exact hl.1 ▸ hfirst

/-- **What is left of a text without its first bytes** is a text exactly when it begins with the first
    byte of a character, or is empty. -/
theorem valid_drop_iff (l : List Char) (n : Nat) :
    Valid ((encode l).drop n) ↔ ∀ b, (encode l)[n]? = some b → b.IsUTF8FirstByte := by
  constructor
  · intro h b hb
    obtain ⟨hn, rfl⟩ := List.getElem?_eq_some_iff.mp hb
    rw [List.drop_eq_getElem_cons hn] at h
    exact h.isFirstByte
  · induction l generalizing n with
    | nil => exact fun _ => ⟨[], by simp⟩
    | cons c l ih =>
      intro h
      rw [encode_cons] at h ⊢
      rcases Nat.lt_or_ge n (String.utf8EncodeChar c).length with hn | hn
      · -- within a character only its first byte will do
        obtain ⟨b, r, hc, -, hother⟩ := utf8EncodeChar_eq_cons c
        cases n with
        | zero => exact ⟨c :: l, by rw [encode_cons, List.drop_zero]⟩
        | succ n =>
          rw [hc, List.length_cons] at hn
          have hr : n < r.length := by omega
          rw [hc, List.cons_append, List.getElem?_cons_succ, List.getElem?_append_left hr,
            List.getElem?_eq_getElem hr] at h
          grind
      · rw [List.getElem?_append_right hn] at h
        rw [List.drop_append, List.drop_of_length_le hn, List.nil_append]
        exact ih _ h

end Zynax.Golang.Utf8
