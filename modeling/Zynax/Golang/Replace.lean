import Zynax.Golang.Utf8
import Mathlib.Data.List.Infix

namespace Zynax.Golang

/-!
# Replacing a substring

`strings.ReplaceAll` for a substring that is not empty, on lists of anything: the bytes of a string,
or its characters.
-/

theorem infix_append_of_getLast {α : Type} {w a b : List α} (ha : a ≠ []) (hlast : a.getLast ha ∉ w)
    (h : w <:+: a ++ b) : w <:+: a ∨ w <:+: b := by
  obtain ⟨p, q, hpq⟩ := h
  rw [List.append_assoc] at hpq
  rcases List.append_eq_append_iff.mp hpq with ⟨m, rfl, hm⟩ | ⟨m, rfl, rfl⟩
  · -- it begins in `a`
    rcases List.append_eq_append_iff.mp hm with ⟨k, rfl, hk⟩ | ⟨k, rfl, rfl⟩
    · simp
    · -- it also ends in `b`, so it holds the last element of `a` unless it begins at the end
      grind
  · simp

section

variable {α : Type} [DecidableEq α] {old new : List α}

def replaceFrom (old new : List α) : Nat → List α → List α
  | _, [] => []
  | n + 1, _ :: r => replaceFrom old new n r
  | 0, c :: r =>
    if old.isPrefixOf (c :: r) then new ++ replaceFrom old new (old.length - 1) r
    else c :: replaceFrom old new 0 r

def replaceSub (old new s : List α) : List α := replaceFrom old new 0 s

theorem replaceFrom_add (a r : List α) (n : Nat) :
    replaceFrom old new (a.length + n) (a ++ r) = replaceFrom old new n r := by
  induction a with
  | nil => simp
  | cons c a ih =>
    rw [List.length_cons, Nat.add_right_comm, List.cons_append, replaceFrom, ih]

theorem replaceFrom_copy {a : List α} (r : List α)
    (h : ∀ b c, b <:+ a → b ≠ [] → c = b ++ r → ¬ old <+: c) :
    replaceFrom old new 0 (a ++ r) = a ++ replaceFrom old new 0 r := by
  induction a with
  | nil => rfl
  | cons c a ih =>
    have hno : old.isPrefixOf (c :: (a ++ r)) = false := by
      grind
    rw [List.cons_append, replaceFrom, hno, if_neg (by simp),
      ih fun b d hb => h b d (hb.trans (List.suffix_cons c a)), List.cons_append]

/-! ### What was replaced does not come up again -/

theorem prefix_of_prefix_replaceFrom {n : α} {new' w s : List α} (hn : n ∉ w)
    (h : w <+: replaceFrom old (n :: new') 0 s) : w <+: s := by
  induction s generalizing w with
  | nil => exact h
  | cons c s ih =>
    cases w with
    | nil => exact List.nil_prefix
    | cons d w =>
      rw [replaceFrom] at h
      split at h
      · -- a match: the result begins with `n`
        obtain ⟨r, hr⟩ := h
        exact absurd (List.cons.inj hr).1 (fun hd => hn (by simp [hd]))
      · obtain ⟨r, hr⟩ := h
        obtain ⟨rfl, hrest⟩ := List.cons.inj hr
        exact (List.prefix_cons_inj d).mpr (ih (fun hmem => hn (List.mem_cons_of_mem d hmem)) ⟨r, hrest⟩)

/-- **What was replaced does not come up again**, provided that the replacement does not hold it and
    begins and ends with something that it does not hold. -/
theorem not_infix_replaceFrom (hnew : new ≠ []) (hhead : new.head hnew ∉ old)
    (hlast : new.getLast hnew ∉ old) (hinf : ¬ old <:+: new) (s : List α) (n : Nat) :
    ¬ old <:+: replaceFrom old new n s := by
  have hold : old ≠ [] := by
    grind
  induction s generalizing n with
  | nil =>
    cases n <;> simpa [replaceFrom] using hold
  | cons c s ih =>
    cases n with
    | succ n => exact ih n
    | zero =>
      rw [replaceFrom]
      split
      · intro h
        exact (infix_append_of_getLast hnew hlast h).elim hinf (ih _)
      · rename_i hno
        intro h
        rcases List.infix_cons_iff.mp h with hpre | hin
        · refine hno (List.isPrefixOf_iff_prefix.mpr ?_)
          -- the occurrence was copied, so the scan would have matched here
          obtain ⟨n, new', rfl⟩ := List.exists_cons_of_ne_nil hnew
          obtain ⟨d, w, rfl⟩ := List.exists_cons_of_ne_nil hold
          obtain ⟨rfl, hrest⟩ := List.cons_prefix_cons.mp hpre
          refine List.cons_prefix_cons.mpr ⟨rfl, prefix_of_prefix_replaceFrom ?_ hrest⟩
          grind
        · exact ih 0 hin

theorem not_infix_replaceSub (hnew : new ≠ []) (hhead : new.head hnew ∉ old)
    (hlast : new.getLast hnew ∉ old) (hinf : ¬ old <:+: new) (s : List α) :
    ¬ old <:+: replaceSub old new s :=
  not_infix_replaceFrom hnew hhead hlast hinf s 0

theorem infix_of_infix_replaceFrom {w : List α} (hnew : new ≠ []) (hhead : new.head hnew ∉ w)
    (hlast : new.getLast hnew ∉ w) (hinf : ¬ w <:+: new) {s : List α} {n : Nat}
    (h : w <:+: replaceFrom old new n s) : w <:+: s := by
  induction s generalizing n with
  | nil => cases n <;> simpa [replaceFrom] using h
  | cons c s ih =>
    cases n with
    | succ n => exact List.infix_cons (ih h)
    | zero =>
      rw [replaceFrom] at h
      split at h
      · rcases infix_append_of_getLast hnew hlast h with h | h
        · exact absurd h hinf
        · exact List.infix_cons (ih h)
      · rcases List.infix_cons_iff.mp h with hpre | hin
        · apply List.IsPrefix.isInfix
          obtain ⟨a, new', rfl⟩ := List.exists_cons_of_ne_nil hnew
          cases w with
          | nil => exact List.nil_prefix
          | cons d w =>
            obtain ⟨rfl, hrest⟩ := List.cons_prefix_cons.mp hpre
            have hnot : a ∉ w := fun hmem => hhead (List.mem_cons_of_mem d hmem)
            exact List.cons_prefix_cons.mpr ⟨rfl, prefix_of_prefix_replaceFrom hnot hrest⟩
        · exact List.infix_cons (ih hin)

theorem replaceSub_eq_self {s : List α} (h : ¬ old <:+: s) : replaceSub old new s = s := by
  have hcopy : replaceFrom old new 0 (s ++ []) = s ++ replaceFrom old new 0 [] := by
    refine replaceFrom_copy [] ?_
    grind
  rwa [replaceFrom, List.append_nil] at hcopy

end

/-! ### Bytes and characters -/

open Utf8

theorem length_encode_take (s : List Char) (n : Nat) (c : Char) :
    (encode ((c :: s).take (n + 1))).length =
      (String.utf8EncodeChar c).length + (encode (s.take n)).length := by
  simp

theorem replaceFrom_encode_match {d : Char} {rest s : List Char} (new : List Char) (hrest : rest <+: s) :
    replaceFrom (encode (d :: rest)) (encode new) 0 (encode (d :: s)) =
      encode new ++ replaceFrom (encode (d :: rest)) (encode new) (encode (s.take rest.length)).length
        (encode s) := by
  obtain ⟨b, tail, hd, -, -⟩ := utf8EncodeChar_eq_cons d
  have htake : s.take rest.length = rest := (List.prefix_iff_eq_take.mp hrest).symm
  have hlen : (encode (d :: rest)).length - 1 = tail.length + (encode (s.take rest.length)).length := by
    rw [htake, encode_cons, hd, List.cons_append, List.length_cons, List.length_append]
    omega
  have hcons : encode (d :: s) = b :: (tail ++ encode s) := by
    rw [encode_cons, hd, List.cons_append]
  have hbytes : encode (d :: rest) <+: encode (d :: s) :=
    encode_prefix_iff.mpr (List.cons_prefix_cons.mpr ⟨rfl, hrest⟩)
  rw [hcons] at hbytes
  rw [hcons, replaceFrom, if_pos (List.isPrefixOf_iff_prefix.mpr hbytes), hlen, replaceFrom_add]

theorem replaceFrom_encode_copy {old : List Char} (new : List Char) (hold : old ≠ []) {c : Char}
    {s : List Char} (hmatch : ¬ old <+: c :: s) :
    replaceFrom (encode old) (encode new) 0 (encode (c :: s)) =
      String.utf8EncodeChar c ++ replaceFrom (encode old) (encode new) 0 (encode s) := by
  obtain ⟨b, tail, hc, -, htail⟩ := utf8EncodeChar_eq_cons c
  rw [encode_cons]
  refine replaceFrom_copy _ fun x y hx hne hy hp => ?_
  rw [hc] at hx
  rcases List.suffix_cons_iff.mp hx with rfl | hx
  · -- a match of bytes at the character would be one of characters
    rw [hy, ← hc, ← encode_cons] at hp
    exact hmatch (encode_prefix_iff.mp hp)
  · -- inside a character no text begins
    obtain ⟨d, rest, rfl⟩ := List.exists_cons_of_ne_nil hold
    obtain ⟨b', tail', hd, hb', -⟩ := utf8EncodeChar_eq_cons d
    obtain ⟨z, x', rfl⟩ := List.exists_cons_of_ne_nil hne
    rw [hy, encode_cons, hd, List.cons_append, List.cons_append, List.cons_prefix_cons] at hp
    exact htail z (hx.subset (by simp)) (hp.1 ▸ hb')

theorem replaceFrom_encode {old new : List Char} (hold : old ≠ []) (s : List Char) (n : Nat) :
    replaceFrom (encode old) (encode new) (encode (s.take n)).length (encode s) =
      encode (replaceFrom old new n s) := by
  induction s generalizing n with
  | nil => simp [replaceFrom]
  | cons c s ih =>
    cases n with
    | succ n => rw [length_encode_take, encode_cons, replaceFrom_add, ih, replaceFrom]
    | zero =>
      rw [List.take_zero, encode_nil, List.length_nil]
      by_cases hmatch : old <+: c :: s
      · obtain ⟨d, rest, rfl⟩ := List.exists_cons_of_ne_nil hold
        obtain ⟨rfl, hrest⟩ := List.cons_prefix_cons.mp hmatch
        rw [replaceFrom_encode_match new hrest, ih, replaceFrom,
          if_pos (List.isPrefixOf_iff_prefix.mpr hmatch), encode_append]
        rfl
      · have hzero := ih 0
        rw [List.take_zero, encode_nil, List.length_nil] at hzero
        rw [replaceFrom_encode_copy new hold hmatch, hzero, replaceFrom,
          if_neg (fun h => hmatch (List.isPrefixOf_iff_prefix.mp h)), encode_cons]

/-- **Replacing the bytes of a text in the bytes of a text is replacing text.** -/
theorem replaceSub_encode {old new : List Char} (hold : old ≠ []) (s : List Char) :
    replaceSub (encode old) (encode new) (encode s) = encode (replaceSub old new s) := by
  have h : _ = encode (replaceFrom old new 0 s) := replaceFrom_encode hold s 0
  rwa [List.take_zero, encode_nil, List.length_nil] at h

end Zynax.Golang
