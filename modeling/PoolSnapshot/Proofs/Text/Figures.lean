import PoolSnapshot.Hex
import PoolSnapshot.Proofs.Settings.Numerals
import PoolSnapshot.Text.Padded

/-!
Figures read back. The digits of a number say the number, in tens as in sixteens, with zeros in front or without,
and only zero begins with a zero.
-/
namespace PoolSnapshot

namespace Text

/-- No zeros in front. -/
def Minimal (ds : List Char) : Prop := ds.head? = some '0' → ds = ['0']

instance : DecidablePred Minimal := fun _ => inferInstanceAs (Decidable (_ → _))

theorem head?_toDigits {base n : Nat} (tens : 1 < base) (few : base ≤ 16) (pos : 0 < n) :
    (Nat.toDigits base n).head? ≠ some '0' := by
  induction n using Nat.strongRecOn with
  | ind n ih =>
    by_cases one : n < base
    · have table : ∀ d : Fin 16, 0 < d.val → [Nat.digitChar d].head? ≠ some '0' := by decide
      rw [Nat.toDigits_of_lt_base one]
      exact table ⟨n, by omega⟩ pos
    · have more : base ≤ n := Nat.le_of_not_lt one
      have rest := ih (n / base) (Nat.div_lt_self pos tens) (Nat.div_pos more (by omega))
      rw [Nat.toDigits_of_base_le tens more, List.head?_append_of_ne_nil _ Nat.toDigits_ne_nil]
      exact rest

theorem minimal_toDigits {base : Nat} (tens : 1 < base) (few : base ≤ 16) (n : Nat) :
    Minimal (Nat.toDigits base n) := by
  cases n with
  | zero => exact fun _ => Nat.toDigits_zero base
  | succ n => exact fun zero => absurd zero (head?_toDigits tens few (Nat.succ_pos n))

theorem digitsValue_eq (ds : List Char) : digitsValue ds = Nat.ofDigitChars 10 ds 0 := by
  rw [digitsValue, Nat.ofDigitChars_eq_foldl]
  congr
  funext n c
  rw [Nat.mul_comm]

theorem digits?_toDigits (n : Nat) : digits? (Nat.toDigits 10 n) = some n := by
  refine digits?_eq_some.mpr ⟨Nat.toDigits_ne_nil, fun c m => ?_, ?_⟩
  · exact Nat.isDigit_of_mem_toDigits (by decide) (by decide) m
  · rw [digitsValue_eq, Nat.ofDigitChars_ten_toDigits]

theorem digits?_padded (width n : Nat) : digits? (padded width n) = some n := by
  obtain ⟨some, all, value⟩ := digits?_eq_some.mp (digits?_toDigits n)
  refine digits?_eq_some.mpr ⟨List.append_ne_nil_of_right_ne_nil _ some, ?_, ?_⟩
  · intro c m
    obtain m | m := List.mem_append.mp m
    · rw [List.eq_of_mem_replicate m]
      rfl
    · exact all c m
  · rw [digitsValue_eq] at value ⊢
    rw [padded, Nat.ofDigitChars_append, Nat.ofDigitChars_replicate_zero, Nat.mul_zero, value]

theorem length_padded {width n : Nat} (pos : 0 < width) (fits : n < 10 ^ width) :
    (padded width n).length = width := by
  have short := (Nat.length_toDigits_le_iff (b := 10) (by decide) pos).mpr fits
  rw [padded, List.length_append, List.length_replicate]
  omega

/-- A number as wide as the width has no zeros put in front. -/
theorem padded_of_le {width n : Nat} (pos : 0 < width) (wide : 10 ^ width ≤ n) :
    padded (width + 1) n = Nat.toDigits 10 n ∧ width < (Nat.toDigits 10 n).length := by
  have long : width < (Nat.toDigits 10 n).length := by
    rw [← Nat.not_le, Nat.length_toDigits_le_iff (by decide) pos]
    exact Nat.not_lt.mpr wide
  rw [padded, Nat.sub_eq_zero_of_le long]
  exact ⟨rfl, long⟩

theorem exists_padded_two {n : Nat} (few : n < 100) :
    ∃ c c', padded 2 n = [c, c'] ∧ digits? [c, c'] = some n := by
  obtain ⟨c, c', two⟩ := List.length_eq_two.mp (length_padded Nat.two_pos few)
  exact ⟨c, c', two, two ▸ digits?_padded 2 n⟩

theorem not_mem_padded {c : Char} (other : c.isDigit = false) (width n : Nat) : c ∉ padded width n := by
  obtain ⟨-, all, -⟩ := digits?_eq_some.mp (digits?_padded width n)
  exact fun m => ne_of_digit (all c m) other rfl

end Text

namespace Hex

theorem toNat?_toDigits (n : Nat) : toNat? (Nat.toDigits 16 n) = some n := by
  have value (n : Nat) : (Nat.toDigits 16 n).foldl (fun v c => return (← v) * 16 + (← value? c)) (some 0) = some n := by
    induction n using Nat.strongRecOn with
    | ind n ih =>
      by_cases one : n < 16
      · rw [Nat.toDigits_of_lt_base one, List.foldl_cons, List.foldl_nil, value?_digitChar one]
        simp
      · have more : 16 ≤ n := Nat.le_of_not_lt one
        have rest := ih (n / 16) (Nat.div_lt_self (by omega) (by decide))
        rw [Nat.toDigits_of_base_le (by decide) more, List.foldl_append, rest, List.foldl_cons, List.foldl_nil,
          value?_digitChar (Nat.mod_lt n (by decide))]
        exact congrArg some (Nat.div_add_mod' n 16)
  have digits : (Nat.toDigits 16 n).isEmpty = false := List.isEmpty_eq_false_iff.mpr Nat.toDigits_ne_nil
  rw [toNat?, digits]
  exact value n

end Hex

end PoolSnapshot
