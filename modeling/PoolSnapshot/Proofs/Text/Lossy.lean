import Mathlib.Data.List.Forall2
import PoolSnapshot.Text.Lossy

/-!
A text that was written as UTF-8 reads back unchanged.
-/
namespace PoolSnapshot

namespace Bytes

theorem toList_loop (b : ByteArray) (i : Nat) (r : List UInt8) :
    ByteArray.toList.loop b i r = r.reverse ++ b.data.toList.drop i := by
  fun_induction ByteArray.toList.loop b i r with
  | case1 i r h ih =>
    have inside : i < b.data.toList.length := by simpa using h
    rw [ih, List.drop_eq_getElem_cons inside]
    simp [ByteArray.get!, h]
  | case2 i r h =>
    rw [List.drop_eq_nil_of_le (by simpa using Nat.le_of_not_lt h), List.append_nil]

theorem ofText_eq (s : String) : ofText s = s.toList.flatMap String.utf8EncodeChar := by
  rw [ofText, String.toUTF8_eq_toByteArray, ← String.utf8Encode_toList, List.utf8Encode, ByteArray.toList,
    toList_loop, List.toList_data_toByteArray]
  rfl

end Bytes

namespace Text

variable {a b c d : UInt8} {s : Bytes}

theorem lossyChars_one (lead : a.toNat < 0x80) : lossyChars (a :: s) = Char.ofNat a.toNat :: lossyChars s := by
  have ascii : a < 0x80 := UInt8.lt_iff_toNat_lt.mpr lead
  rw [lossyChars.eq_def]
  exact if_pos ascii

theorem lossyChars_two (lead : 0xC2 ≤ a.toNat ∧ a.toNat ≤ 0xDF) (tail : isTail b) :
    lossyChars (a :: b :: s) = scalar (a.toNat % 32) [b] :: lossyChars s := by
  have ascii : ¬a < 0x80 := by
    rw [UInt8.lt_iff_toNat_lt]
    exact Nat.not_lt.mpr (Nat.le_trans (by decide) lead.1)
  have two : (0xC2 ≤ a && a ≤ 0xDF) = true := by
    simpa [UInt8.le_iff_toNat_le] using lead
  rw [lossyChars, if_neg ascii, if_pos two]
  exact if_pos tail

theorem lossyChars_three (lead : 0xE0 ≤ a.toNat ∧ a.toNat ≤ 0xEF) (second : isSecond₃ a b) (tail : isTail c) :
    lossyChars (a :: b :: c :: s) = scalar (a.toNat % 16) [b, c] :: lossyChars s := by
  have ascii : ¬a < 0x80 := by
    rw [UInt8.lt_iff_toNat_lt]
    exact Nat.not_lt.mpr (Nat.le_trans (by decide) lead.1)
  have two : ¬(0xC2 ≤ a && a ≤ 0xDF) = true := by
    simp [UInt8.le_iff_toNat_le]
    omega
  have three : (0xE0 ≤ a && a ≤ 0xEF) = true := by
    simpa [UInt8.le_iff_toNat_le] using lead
  rw [lossyChars, if_neg ascii, if_neg two, if_pos three]
  exact (if_pos second).trans (if_pos tail)

theorem lossyChars_four (lead : 0xF0 ≤ a.toNat ∧ a.toNat ≤ 0xF4) (second : isSecond₄ a b) (tail : isTail c)
    (tail' : isTail d) :
    lossyChars (a :: b :: c :: d :: s) = scalar (a.toNat % 8) [b, c, d] :: lossyChars s := by
  have ascii : ¬a < 0x80 := by
    rw [UInt8.lt_iff_toNat_lt]
    exact Nat.not_lt.mpr (Nat.le_trans (by decide) lead.1)
  have two : ¬(0xC2 ≤ a && a ≤ 0xDF) = true := by
    simp [UInt8.le_iff_toNat_le]
    omega
  have three : ¬(0xE0 ≤ a && a ≤ 0xEF) = true := by
    simp [UInt8.le_iff_toNat_le]
    omega
  have four : (0xF0 ≤ a && a ≤ 0xF4) = true := by
    simpa [UInt8.le_iff_toNat_le] using lead
  rw [lossyChars, if_neg ascii, if_neg two, if_neg three, if_pos four]
  exact (if_pos second).trans ((if_pos tail).trans (if_pos tail'))

/-- The bytes of a character are read as that character. Its number is short of the surrogates or beyond
them, and that is what the second bytes that may not follow are about. -/
theorem lossyChars_encode (x : Char) (s : Bytes) :
    lossyChars (String.utf8EncodeChar x ++ s) = x :: lossyChars s := by
  obtain ⟨v, number⟩ : ∃ v, v = x.val.toNat := ⟨_, rfl⟩
  have valid : v < 0xD800 ∨ 0xDFFF < v ∧ v < 0x110000 := number ▸ x.valid
  have back : Char.ofNat v = x := number ▸ Char.ofNat_toNat x
  have byte {n : Nat} (h : n < 256) : (UInt8.ofNat n).toNat = n := UInt8.toNat_ofNat_of_lt h
  have tail (n : Nat) : isTail (UInt8.ofNat (n % 64 + 128)) := by
    simp [isTail, UInt8.le_iff_toNat_le]
    omega
  have low (n : Nat) : (UInt8.ofNat (n % 64 + 128)).toNat % 64 = n % 64 := by
    rw [byte (by omega)]
    omega
  rw [String.utf8EncodeChar, ← number]
  split_ifs with one two three
  · have lead := byte (n := v) (by omega)
    rw [List.singleton_append, lossyChars_one (by omega), lead, back]
  · have lead := byte (n := v / 64 % 32 + 192) (by omega)
    refine (lossyChars_two (by omega) (tail v)).trans (congrArg (· :: lossyChars s) ?_)
    rw [← back, scalar]
    simp only [List.foldl_cons, List.foldl_nil, lead, low]
    exact congrArg Char.ofNat (by omega)
  · have lead := byte (n := v / 4096 % 16 + 224) (by omega)
    have second : isSecond₃ (UInt8.ofNat (v / 4096 % 16 + 224)) (UInt8.ofNat (v / 64 % 64 + 128)) := by
      have next := byte (n := v / 64 % 64 + 128) (by omega)
      simp only [isSecond₃, isTail, ← UInt8.toNat_inj, UInt8.le_iff_toNat_le, UInt8.reduceToNat, lead, next]
      split_ifs <;> simp <;> omega
    refine (lossyChars_three (by omega) second (tail v)).trans (congrArg (· :: lossyChars s) ?_)
    rw [← back, scalar]
    simp only [List.foldl_cons, List.foldl_nil, lead, low]
    exact congrArg Char.ofNat (by omega)
  · have lead := byte (n := v / 262144 % 8 + 240) (by omega)
    have second : isSecond₄ (UInt8.ofNat (v / 262144 % 8 + 240)) (UInt8.ofNat (v / 4096 % 64 + 128)) := by
      have next := byte (n := v / 4096 % 64 + 128) (by omega)
      simp only [isSecond₄, isTail, ← UInt8.toNat_inj, UInt8.le_iff_toNat_le, UInt8.reduceToNat, lead, next]
      split_ifs <;> simp <;> omega
    refine (lossyChars_four (by omega) second (tail _) (tail v)).trans (congrArg (· :: lossyChars s) ?_)
    rw [← back, scalar]
    simp only [List.foldl_cons, List.foldl_nil, lead, low]
    exact congrArg Char.ofNat (by omega)

theorem lossyChars_flatMap (cs : List Char) : lossyChars (cs.flatMap String.utf8EncodeChar) = cs := by
  induction cs with
  | nil => rfl
  | cons c cs ih => rw [List.flatMap_cons, lossyChars_encode, ih]

@[simp] theorem lossy_ofText (s : String) : lossy (Bytes.ofText s) = s := by
  rw [lossy, Bytes.ofText_eq, lossyChars_flatMap, String.ofList_toList]

end Text

end PoolSnapshot
