import Zynax.Adapter.Adk
import Zynax.Adapter.Ci
import Zynax.Adapter.Git
import Zynax.Adapter.Http

namespace Zynax.Adapter

open Golang Utf8

/-!
# The messages of failures

The text of an error is cut before it goes into an event, whose message must be UTF-8.

* `CutsBetween` — the limit falls between two characters of a text, or behind it.
-/

def Sendable (text msg : List UInt8) : Prop :=
  ∃ m : String, bytes m = msg ∧ m.length ≤ maxErrMsgLen ∧ msg <+: text

def CutsBetween (text : List UInt8) : Prop :=
  text.length ≤ maxErrMsgLen ∨ ∃ a : List Char, encode a <+: text ∧ (encode a).length = maxErrMsgLen

theorem valid_bytes (s : String) : Valid (bytes s) := ⟨s.toList, (bytes_eq s).symm⟩

theorem sendable_of_valid {text msg : List UInt8} (hvalid : Valid msg) (hlen : msg.length ≤ maxErrMsgLen)
    (hpre : msg <+: text) : Sendable text msg := by
  obtain ⟨l, rfl⟩ := hvalid
  refine ⟨String.ofList l, (encode_eq_stringBytes l).symm, ?_, hpre⟩
  rw [String.length_ofList]
  exact (length_le_length_encode l).trans hlen

theorem sendable_cutBytes_iff {text : List UInt8} (hvalid : Valid text) :
    Sendable text (cutBytes maxErrMsgLen text) ↔ CutsBetween text := by
  obtain ⟨l, rfl⟩ := hvalid
  -- what is left is short and a beginning of the text; it remains to be text
  have hcut : Sendable (encode l) ((encode l).take maxErrMsgLen) ↔
      Valid ((encode l).take maxErrMsgLen) := by
    constructor
    · rintro ⟨m, hm, -⟩
      exact hm ▸ valid_bytes m
    · intro h
      exact sendable_of_valid h (List.length_take_le _ _) (List.take_prefix _ _)
  rw [cutBytes_eq_take, hcut, valid_take_iff, CutsBetween]
  simp only [encode_prefix_iff]

/-! ### Redacted texts -/

theorem Redactor.valid_string (red : Redactor) {s : List UInt8} (hs : Valid s) : Valid (red.string s) := by
  unfold Redactor.string
  split_ifs with hnone
  · exact hs
  · clear hnone
    have hlong := red.long
    generalize red.secrets = secrets at hlong
    -- one secret after the other, each of them long enough not to be empty
    induction secrets generalizing s with
    | nil => exact hs
    | cons secret secrets ih =>
      refine ih ?_ fun t ht => hlong t (List.mem_cons_of_mem secret ht)
      obtain ⟨l, rfl⟩ := hs
      have hsecret : secret.toList ≠ [] := by
        intro hnil
        have h := hlong secret List.mem_cons_self
        rw [Adapter.bytes_eq, hnil] at h
        exact absurd h (by decide)
      refine ⟨replaceSub secret.toList "[REDACTED]".toList l, ?_⟩
      show _ = replaceSub (Adapter.bytes secret) placeholder (encode l)
      rw [placeholder, Adapter.bytes_eq, Adapter.bytes_eq, replaceSub_encode hsecret]

/-! ### The four adapters -/

theorem Adk.sendable_boundMessage (text : String) : Sendable (bytes text) (boundMessage (bytes text)) := by
  unfold boundMessage
  split
  · rename_i hlen
    exact sendable_of_valid (valid_bytes text) hlen List.prefix_rfl
  · rw [bytes_eq, textFrom_encode]
    refine ⟨String.ofList (text.toList.take maxErrMsgLen), (encode_eq_stringBytes _).symm, ?_, ?_⟩
    · rw [String.length_ofList]
      exact List.length_take_le _ _
    · exact encode_prefix_iff.mpr (List.take_prefix _ _)

theorem sendable_unknownMessage_iff (name : String) :
    Sendable (unknownMessage name) (unknownMessage name) ↔ name.length ≤ 492 := by
  have hlen : ("unknown capability: " ++ name).length = 20 + name.length := by
    rw [String.length_append, show "unknown capability: ".length = 20 from by decide]
  constructor
  · rintro ⟨m, hm, hlength, -⟩
    rw [stringBytes_inj hm, hlen, maxErrMsgLen] at hlength
    omega
  · intro h
    refine ⟨_, rfl, ?_, List.prefix_rfl⟩
    rw [hlen, maxErrMsgLen]
    omega

/-- **The message of a failure can be sent**, for every text in the adk adapter; in the others exactly
    if no character of the (redacted) text stands across the limit, and an unknown capability has a
    short name. -/
theorem messages_sendable_iff (red : Redactor) (text name : String) :
    (Sendable (bytes text) (Http.sanitise (bytes text)) ↔ CutsBetween (bytes text)) ∧
    (Sendable (bytes text) (Ci.sanitise (bytes text)) ↔ CutsBetween (bytes text)) ∧
    (Sendable (red.string (bytes text)) (Git.sanitise red (bytes text)) ↔
      CutsBetween (red.string (bytes text))) ∧
    Sendable (bytes text) (Adk.boundMessage (bytes text)) ∧
    (Sendable (unknownMessage name) (unknownMessage name) ↔ name.length ≤ 492) := by
  refine ⟨?_, ?_, ?_, Adk.sendable_boundMessage text, sendable_unknownMessage_iff name⟩
  · exact sendable_cutBytes_iff (valid_bytes text)
  · exact sendable_cutBytes_iff (valid_bytes text)
  · exact sendable_cutBytes_iff (red.valid_string (valid_bytes text))

def euros (n : Nat) : String := String.ofList (List.replicate n '€')

theorem length_encode_euros (n : Nat) : (encode (List.replicate n '€')).length = 3 * n := by
  induction n with
  | zero => rfl
  | succ n ih =>
    rw [List.replicate_succ, encode_cons, List.length_append, ih,
      show (String.utf8EncodeChar '€').length = 3 from by decide +kernel]
    omega

theorem cutsBetween_euros_iff (n : Nat) : CutsBetween (bytes (euros n)) ↔ 3 * n ≤ maxErrMsgLen := by
  rw [euros, bytes_eq, String.toList_ofList, CutsBetween, length_encode_euros]
  refine or_iff_left ?_
  rintro ⟨a, ha, hlen⟩
  obtain ⟨-, ha⟩ := List.prefix_replicate_iff.mp (encode_prefix_iff.mp ha)
  rw [ha, length_encode_euros, maxErrMsgLen] at hlen
  omega

theorem cut_message_not_sendable :
    ¬ Sendable (bytes (euros 171)) (Http.sanitise (bytes (euros 171))) ∧
    ¬ Sendable (bytes (euros 171)) (Ci.sanitise (bytes (euros 171))) ∧
    ¬ Sendable (bytes (euros 171)) (Git.sanitise {} (bytes (euros 171))) := by
  have hcut := mt (cutsBetween_euros_iff 171).mp (by decide)
  have hnot := mt (sendable_cutBytes_iff (valid_bytes (euros 171))).mp hcut
  have hstring : Redactor.string {} (bytes (euros 171)) = bytes (euros 171) := by
    rw [Redactor.string, if_pos (Or.inr rfl)]
  refine ⟨hnot, hnot, ?_⟩
  rwa [Git.sanitise, hstring]

end Zynax.Adapter
