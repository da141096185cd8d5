import Mathlib.Logic.Basic
import PoolSnapshot.Survey.Error

/-!
Checks of numbers one after another, of which the first that fails is reported.
-/
namespace PoolSnapshot.OracleDao

/-- A number that has to be below a bound, and what is wrong with it if it is not. -/
structure Check where
  field : String
  number : Word
  bound : Nat
  fault : ConversionError

namespace Check

def Fails (c : Check) : Prop := c.bound ≤ c.number.toNat

instance : DecidablePred Fails := fun c => inferInstanceAs (Decidable (c.bound ≤ c.number.toNat))

def report (source : Address) (c : Check) : SnapshotError := .conversion (.account source) c.field c.fault

theorem find?_eq_none {cs : List Check} : cs.find? Fails = none ↔ ∀ c ∈ cs, c.number.toNat < c.bound := by
  rw [List.find?_eq_none]
  refine forall₂_congr fun c _ => ?_
  rw [decide_eq_true_iff]
  exact Nat.not_le

/-- A value that is there if all checks pass, else the report on the first that fails. -/
def behind (source : Address) (cs : List Check) (a : α) : Except SnapshotError α :=
  match cs.find? Fails with
  | some c => .error (c.report source)
  | none => .ok a

variable {source : Address} {c : Check} {cs cs' : List Check}

theorem behind_eq_ok {a b : α} : behind source cs a = .ok b ↔ cs.find? Fails = none ∧ a = b := by
  rw [behind]
  cases cs.find? Fails with
  | some c => exact ⟨nofun, nofun⟩
  | none => exact ⟨fun h => ⟨rfl, Except.ok.inj h⟩, fun h => congrArg Except.ok h.2⟩

theorem behind_eq_error (found : cs.find? Fails = some c) (a : α) :
    behind source cs a = .error (c.report source) := by
  rw [behind, found]

theorem behind_append {x : Except SnapshotError α} {k : α → Except SnapshotError β} {b : β}
    (now : x = behind source cs a) (later : k a = behind source cs' b) :
    x >>= k = behind source (cs ++ cs') b := by
  subst now
  rw [behind, behind, List.find?_append]
  cases cs.find? Fails with
  | some c => rfl
  | none => exact later

theorem behind_one {x : Except ConversionError α}
    (h : x = if c.number.toNat < c.bound then .ok a else .error c.fault) :
    x.mapError (.conversion (.account source) c.field) = behind source [c] a := by
  subst h
  rw [behind, List.find?_singleton]
  by_cases below : c.number.toNat < c.bound
  · have passes : ¬c.Fails := Nat.not_le.mpr below
    rw [if_pos below, if_neg (by rwa [decide_eq_true_iff])]
    rfl
  · have fails : c.Fails := Nat.not_lt.mp below
    rw [if_neg below, if_pos (by rwa [decide_eq_true_iff])]
    rfl

end Check

end PoolSnapshot.OracleDao
