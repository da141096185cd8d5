import PoolSnapshot.Text.Padded

/-!
Exact decimal fractions `mantissa / 10 ^ scale`, kept with the least scale that holds them.
-/
namespace PoolSnapshot

structure Decimal where
  mantissa : Nat
  scale : Nat
  deriving DecidableEq, Inhabited

namespace Decimal

def ofScaled : Nat → Nat → Decimal
  | m, 0 => ⟨m, 0⟩
  | m, s + 1 => if m % 10 = 0 then ofScaled (m / 10) s else ⟨m, s + 1⟩

/-- The largest mantissa is one less. -/
def capacity : Nat := Nat.pow 2 96

def text (d : Decimal) : String :=
  toString (d.mantissa / Nat.pow 10 d.scale) ++
    String.ofList (Text.fraction d.scale (d.mantissa % Nat.pow 10 d.scale))

theorem ofScaled_exact (m s : Nat) :
    (ofScaled m s).mantissa * Nat.pow 10 s = m * Nat.pow 10 (ofScaled m s).scale := by
  induction s generalizing m with
  | zero => rfl
  | succ s ih =>
    unfold ofScaled
    split
    · rename_i h
      rw [Nat.pow_eq, Nat.pow_succ, ← Nat.pow_eq, ← Nat.mul_assoc, ih]
      have e : m / 10 * 10 = m := by omega
      rw [Nat.mul_right_comm, e]
    · rfl

end Decimal

end PoolSnapshot
