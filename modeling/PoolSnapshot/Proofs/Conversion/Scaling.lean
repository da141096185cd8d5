import Mathlib.Algebra.Order.Field.Rat
import Mathlib.Tactic.NormNum
import PoolSnapshot.Conversion

/-!
Numbers on chain as decimal fractions. Up to twenty-eight places nothing is lost: a number is refused for
its size alone, and the order of the fractions is that of the numbers. The power of ten for more places is
no decimal, so that there no number of a fit size is answered at all.
-/
namespace PoolSnapshot

namespace Decimal

/-- The fraction that a decimal stands for. -/
def value (d : Decimal) : ℚ := d.mantissa / 10 ^ d.scale

/-- A mantissa of ninety-six bits over a power of ten of at most twenty-eight places. -/
structure Fits (d : Decimal) : Prop where
  mantissa : d.mantissa < 2 ^ 96
  scale : d.scale ≤ 28

theorem value_ofScaled (m s : Nat) : (ofScaled m s).value = m / 10 ^ s := by
  have exact := ofScaled_exact m s
  rw [Nat.pow_eq, Nat.pow_eq] at exact
  have power (k : Nat) : (10 : ℚ) ^ k ≠ 0 := pow_ne_zero k (by decide)
  rw [value, div_eq_div_iff (power _) (power _)]
  exact_mod_cast exact

/-- Neither the mantissa nor the scale grows. -/
theorem ofScaled_le (m s : Nat) : (ofScaled m s).mantissa ≤ m ∧ (ofScaled m s).scale ≤ s := by
  induction s generalizing m with
  | zero => exact ⟨Nat.le_refl _, Nat.le_refl _⟩
  | succ s ih =>
    unfold ofScaled
    split
    · obtain ⟨mantissa, scale⟩ := ih (m / 10)
      exact ⟨mantissa.trans (Nat.div_le_self m 10), scale.trans (Nat.le_succ s)⟩
    · exact ⟨Nat.le_refl _, Nat.le_refl _⟩

theorem fits_ofScaled (small : m < 2 ^ 96) (few : s ≤ 28) : (ofScaled m s).Fits := by
  obtain ⟨mantissa, scale⟩ := ofScaled_le m s
  exact ⟨mantissa.trans_lt small, scale.trans few⟩

/-- A power of ten is a decimal up to the twenty-eighth. -/
theorem pow_lt_capacity_iff (places : Nat) : Nat.pow 10 places < capacity ↔ places ≤ 28 := by
  rw [Nat.pow_eq, capacity, Nat.pow_eq]
  constructor
  · intro h
    by_contra more
    have least : 10 ^ 29 ≤ 10 ^ places := Nat.pow_le_pow_right (by decide) (by omega)
    omega
  · intro few
    have most : 10 ^ places ≤ 10 ^ 28 := Nat.pow_le_pow_right (by decide) few
    omega

end Decimal

namespace Word

variable {w w' : Word} {places : Nat}

theorem scaled_of_wide (wide : 2 ^ 96 ≤ w.toNat) (places : Nat) :
    w.scaled places = .error (.invalidDecimal "Invalid decimal: overflow from too many digits") :=
  if_neg (Nat.not_lt.mpr wide)

theorem scaled_of_small (small : w.toNat < 2 ^ 96) (places : Nat) :
    w.scaled places = .ok (.ofScaled w.toNat places) := if_pos small

theorem toDecimal_of_wide (wide : 2 ^ 96 ≤ w.toNat) (places : Nat) : w.toDecimal places =
    some (.error (.invalidDecimal "Invalid decimal: overflow from too many digits")) := by
  rw [toDecimal, scaled_of_wide wide]

theorem toDecimal_of_small (small : w.toNat < 2 ^ 96) :
    w.toDecimal places = if places ≤ 28 then some (.ok (.ofScaled w.toNat places)) else none := by
  rw [toDecimal, scaled_of_small small]
  simp only [Decimal.pow_lt_capacity_iff]

theorem toDecimal_eq_ok :
    w.toDecimal places = some (.ok d) ↔ w.toNat < 2 ^ 96 ∧ places ≤ 28 ∧ d = .ofScaled w.toNat places := by
  by_cases small : w.toNat < 2 ^ 96
  · rw [toDecimal_of_small small, and_iff_right small]
    split
    · next few => simp only [few, true_and, Option.some_inj, Except.ok.injEq, eq_comm]
    · next many => exact iff_of_false nofun fun h => many h.1
  · have refused := toDecimal_of_wide (Nat.not_lt.mp small) places
    exact iff_of_false (by simp [refused]) fun h => small h.1

/-- What becomes of any word with any number of places. -/
theorem toDecimal_exact (w : Word) (places : Nat) :
    (2 ^ 96 ≤ w.toNat → w.toDecimal places =
      some (.error (.invalidDecimal "Invalid decimal: overflow from too many digits"))) ∧
    (w.toNat < 2 ^ 96 → places ≤ 28 →
      ∃ d, w.toDecimal places = some (.ok d) ∧ d.Fits ∧ d.value * 10 ^ places = w.toNat) ∧
    (w.toNat < 2 ^ 96 → 28 < places → w.toDecimal places = none) ∧
    (∀ (w' : Word) d d', w.toDecimal places = some (.ok d) → w'.toDecimal places = some (.ok d') →
      (w.toNat < w'.toNat ↔ d.value < d'.value) ∧ (d = d' → w = w')) ∧
    w.toDecimal 18 = some w.toFraction := by
  have power : (0 : ℚ) < 10 ^ places := pow_pos (by decide) places
  refine ⟨fun wide => toDecimal_of_wide wide places, ?exact, ?many, ?apart, ?fraction⟩
  case exact =>
    intro small few
    refine ⟨_, toDecimal_eq_ok.mpr ⟨small, few, rfl⟩, Decimal.fits_ofScaled small few, ?_⟩
    rw [Decimal.value_ofScaled, div_mul_cancel₀ _ power.ne']
  case many =>
    intro small many
    rw [toDecimal_of_small small, if_neg (Nat.not_le.mpr many)]
  case apart =>
    intro w' d d' here there
    obtain ⟨-, -, rfl⟩ := toDecimal_eq_ok.mp here
    obtain ⟨-, -, rfl⟩ := toDecimal_eq_ok.mp there
    have value (w : Word) := Decimal.value_ofScaled w.toNat places
    constructor
    · rw [value, value, div_lt_div_iff_of_pos_right power, Nat.cast_lt]
    · intro same
      have equal := congrArg Decimal.value same
      rw [value, value, div_left_inj' power.ne', Nat.cast_inj] at equal
      exact BitVec.eq_of_toNat_eq equal
  case fraction =>
    have few : Nat.pow 10 18 < Decimal.capacity := (Decimal.pow_lt_capacity_iff 18).mpr (by decide)
    rw [toDecimal, toFraction]
    cases scaled w 18 with
    | error e => rfl
    | ok d => exact if_pos few

/-- The largest number that is accepted, the first that is not, and fractions next to each other. -/
theorem toDecimal_exact_edges :
    (∃ d, toDecimal (BitVec.ofNat 256 (2 ^ 96 - 1)) 28 = some (.ok d) ∧
      d.value * 10 ^ 28 = (2 ^ 96 - 1 : ℕ)) ∧
    toDecimal (BitVec.ofNat 256 (2 ^ 96)) 0 =
      some (.error (.invalidDecimal "Invalid decimal: overflow from too many digits")) ∧
    (0 : Word).toDecimal 29 = none ∧
    ∃ d d', (1 : Word).toDecimal 18 = some (.ok d) ∧ (2 : Word).toDecimal 18 = some (.ok d') ∧
      d.value < d'.value := by
  refine ⟨?largest, ?first, ?many, ?next⟩
  case largest =>
    obtain ⟨-, answered, -⟩ := toDecimal_exact (BitVec.ofNat 256 (2 ^ 96 - 1)) 28
    obtain ⟨d, made, -, value⟩ := answered (by decide) (by decide)
    exact ⟨d, made, value⟩
  case first => exact (toDecimal_exact (BitVec.ofNat 256 (2 ^ 96)) 0).1 (by decide)
  case many => exact (toDecimal_exact 0 29).2.2.1 (by decide) (by decide)
  case next =>
    obtain ⟨d, one, -⟩ := (toDecimal_exact 1 18).2.1 (by decide) (by decide)
    obtain ⟨d', two, -⟩ := (toDecimal_exact 2 18).2.1 (by decide) (by decide)
    obtain ⟨-, -, -, apart, -⟩ := toDecimal_exact 1 18
    obtain ⟨order, -⟩ := apart 2 d d' one two
    exact ⟨d, d', one, two, order.mp (by decide)⟩

/-- Zero is a decimal, and so is ten by `10 ^ 29`, but neither is the answer. -/
theorem toDecimal_not_total :
    (0 : Word).toDecimal 29 = none ∧ (10 : Word).toDecimal 29 = none ∧
    ¬∀ (w : Word) (places : Nat), w.toNat < 2 ^ 96 → places < 2 ^ 8 →
      (∃ d : Decimal, d.Fits ∧ d.value * 10 ^ places = w.toNat) →
      ∃ d, w.toDecimal places = some (.ok d) ∧ d.value * 10 ^ places = w.toNat := by
  have zero : (0 : Word).toDecimal 29 = none := rfl
  refine ⟨zero, rfl, fun total => ?_⟩
  have representable : ∃ d : Decimal, d.Fits ∧ d.value * 10 ^ 29 = (0 : Word).toNat :=
    ⟨⟨0, 0⟩, ⟨by decide, by decide⟩, by simp [Decimal.value]⟩
  obtain ⟨d, made, -⟩ := total 0 29 (by decide) (by decide) representable
  cases zero.symm.trans made

end Word

end PoolSnapshot
