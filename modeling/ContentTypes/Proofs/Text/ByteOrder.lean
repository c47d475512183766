import Mathlib.Data.List.Lex
import Mathlib.Data.String.Basic

/-!
# The order of bytes

Texts stand in the order of their characters exactly if they stand in the order of their bytes in UTF-8:
`lt_iff_bytes_lt`. The code of a character that comes later is no longer than it needs to be and has a
larger byte where the two codes first differ.
-/

namespace ContentTypes.Text

def bytes (text : String) : List UInt8 :=
  text.toUTF8.data.toList

theorem bytes_eq (text : String) : bytes text = text.toList.flatMap String.utf8EncodeChar := by
  rw [bytes, String.toUTF8_eq_toByteArray, ← String.utf8Encode_toList, List.utf8Encode]
  exact List.toList_data_toByteArray

theorem ofNat_cons_lt {m n : Nat} {rest rest' : List UInt8} (hn : n < 256) (h : m ≤ n)
    (hrest : m = n → rest < rest') : UInt8.ofNat m :: rest < UInt8.ofNat n :: rest' := by
  rw [List.cons_lt_cons_iff, UInt8.lt_iff_toNat_lt, UInt8.toNat_ofNat', UInt8.toNat_ofNat']
  rcases Nat.lt_or_eq_of_le h with hlt | rfl
  · left
    omega
  · exact .inr ⟨rfl, hrest rfl⟩

theorem utf8EncodeChar_append_lt {c d : Char} (h : c < d) (rest rest' : List UInt8) :
    String.utf8EncodeChar c ++ rest < String.utf8EncodeChar d ++ rest' := by
  have hlt : c.val.toNat < d.val.toNat := UInt32.lt_iff_toNat_lt.1 (Char.lt_def.1 h)
  have hvalid := d.valid
  simp only [UInt32.isValidChar, Nat.isValidChar] at hvalid
  simp only [String.utf8EncodeChar]
  generalize c.val.toNat = v at hlt ⊢
  generalize d.val.toNat = w at hlt hvalid ⊢
  -- a longer code begins with a larger byte; codes of one length are compared digit by digit
  split_ifs <;> simp only [List.cons_append, List.nil_append] <;>
    repeat refine ofNat_cons_lt (by omega) (by omega) fun _ => ?_
  all_goals omega

theorem append_lt_append {rest rest' : List UInt8} (h : rest < rest') (front : List UInt8) :
    front ++ rest < front ++ rest' := by
  induction front with
  | nil => exact h
  | cons byte front ih => exact List.cons_lt_cons_iff.2 (.inr ⟨rfl, ih⟩)

theorem flatMap_utf8EncodeChar_lt {text other : List Char} (h : text < other) :
    text.flatMap String.utf8EncodeChar < other.flatMap String.utf8EncodeChar := by
  induction h with
  | nil =>
    rename_i c rest
    cases hcode : String.utf8EncodeChar c with
    | nil => exact absurd hcode String.utf8EncodeChar_ne_nil
    | cons byte code =>
      rw [List.flatMap_cons, hcode]
      exact List.nil_lt_cons _ _
  | rel h => exact utf8EncodeChar_append_lt h _ _
  | cons h ih => exact append_lt_append ih _

theorem lt_iff_bytes_lt {text other : String} : text < other ↔ bytes text < bytes other := by
  rw [bytes_eq, bytes_eq, String.lt_iff_toList_lt]
  refine ⟨flatMap_utf8EncodeChar_lt, fun h => ?_⟩
  by_contra hnot
  rcases List.le_iff_lt_or_eq.1 (List.not_lt.1 hnot) with hlt | heq
  · exact List.lt_asymm h (flatMap_utf8EncodeChar_lt hlt)
  · exact List.lt_irrefl _ (heq ▸ h)

end ContentTypes.Text
