import PoolSnapshot.Proofs.Schedule.Order
import Mathlib.Algebra.GroupWithZero.Nat

/-!
No order of moves goes on forever, whatever is answered: a task has two moves for a question, one for
a change, one for its end and one for its start.
-/
namespace PoolSnapshot

variable {Q A ε R : Type}

namespace Move

def weight : Move Q A ε R → Nat
  | .change _ => 1
  | .ask _ _ => 2

end Move

namespace Worker

def weight (ω : Worker Q A ε R) : Nat := (ω.map Move.weight).sum

@[simp] theorem weight_cons (m : Move Q A ε R) (ω : Worker Q A ε R) :
    weight (m :: ω) = m.weight + weight ω := by
  rw [weight, List.map_cons, List.sum_cons, weight]

end Worker

namespace Cell

def weight : Cell Q A ε R → Nat
  | .running _ ω => Worker.weight ω + 1
  | .finished _ | .failed _ _ => 0

theorem Step.weight_lt {c c' : Cell Q A ε R} (m : c.Step l c') : c'.weight < c.weight := by
  cases m with
  | ask a =>
    simp only [weight, Worker.weight_cons, Move.weight]
    omega
  | change f =>
    simp only [weight, Worker.weight_cons, Move.weight]
    omega
  | fail f => simp [weight]
  | finish => simp [weight]

end Cell

namespace Progress

variable {π π' : Progress Q A ε R}

/-- The moves that are left at most. -/
def weight (π : Progress Q A ε R) : Nat :=
  (π.cells.map Cell.weight).sum + (π.waiting.map (Worker.weight ·.worker + 2)).sum

theorem Step.weight_lt (h : π.Step limit l π') : π'.weight < π.weight := by
  cases h with
  | start h room =>
    simp only [weight, List.map_append, List.map_cons, List.map_nil, List.sum_append, List.sum_cons,
      List.sum_nil, Cell.weight]
    omega
  | move h m =>
    have := m.weight_lt
    simp only [weight, List.map_append, List.map_cons, List.sum_append, List.sum_cons]
    omega

theorem step_wellFounded (limit : Nat) :
    WellFounded fun π' π : Progress Q A ε R => ∃ l, π.Step limit l π' :=
  Subrelation.wf (fun ⟨_, h⟩ => h.weight_lt) (measure weight).wf

theorem exists_end (answer : Q → A) (limit : Nat) (π : Progress Q A ε R) :
    ∃ asked π' r, π.Reaches limit asked π' ∧ Answered answer asked ∧ π'.Ends r := by
  induction π using (step_wellFounded limit).induction with
  | _ π ih =>
    cases ok : π.failure? with
    | some e => exact ⟨[], π, .error e, .refl π, .nil, .error ok⟩
    | none =>
      rcases exists_step answer limit ok with ⟨rs, h⟩ | ⟨l, π', s, now⟩
      · exact ⟨[], π, .ok rs, .refl π, .nil, h⟩
      · obtain ⟨asked, π'', r, t, later, h⟩ := ih π' ⟨l, s⟩
        exact ⟨_, π'', r, .step s t, Answered.append_iff.mpr ⟨now, later⟩, h⟩

end Progress

end PoolSnapshot
