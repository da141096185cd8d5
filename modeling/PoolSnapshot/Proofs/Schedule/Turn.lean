import PoolSnapshot.Schedule.Step
import Mathlib.Data.List.Perm.Basic

/-!
What tasks have come to when any question may get any answer. In whatever order they moved, each went
its own way by the answers that it took in, and all that was asked is what they asked.
-/
namespace PoolSnapshot

variable {Q A ε R : Type}

namespace Worker

def questions (ω : Worker Q A ε R) : List Q :=
  ω.filterMap fun
    | .ask q _ => some q
    | .change _ => none

/-- The way of a worker to a cell, by answers that it took in and one at most that it has yet to take
in. -/
inductive Goes :
    Worker Q A ε R → List R → List (Q × A) → List (Q × A) → Cell Q A ε R → Prop
  | here : Goes ω rs [] [] (.running rs ω)
  | finish : Goes [] rs [] [] (.finished rs)
  | change (h : f rs = (rs', none)) (g : Goes ω rs' heard due c) : Goes (.change f :: ω) rs heard due c
  | fail (h : f rs = (rs', some e)) : Goes (.change f :: ω) rs [] [] (.failed rs' e)
  | asked (a : A) : Goes (.ask q f :: ω) rs [] [(q, a)] (.running rs (.change (f a) :: ω))
  | took (h : f a rs = (rs', none)) (g : Goes ω rs' heard due c) :
      Goes (.ask q f :: ω) rs ((q, a) :: heard) due c
  | refused (h : f a rs = (rs', some e)) : Goes (.ask q f :: ω) rs [(q, a)] [] (.failed rs' e)

namespace Goes

variable {ω : Worker Q A ε R} {rs : List R} {heard due : List (Q × A)} {c c' : Cell Q A ε R}

theorem step (g : Goes ω rs heard due c) (m : c.Step l c') :
    ∃ heard' due', Goes ω rs heard' due' c' ∧ heard' ++ due' = heard ++ due ++ l.toList := by
  induction g with
  | here =>
    cases m with
    | ask a => exact ⟨[], [(_, a)], .asked a, rfl⟩
    | change h => exact ⟨[], [], .change h .here, rfl⟩
    | fail h => exact ⟨[], [], .fail h, rfl⟩
    | finish => exact ⟨[], [], .finish, rfl⟩
  | finish | fail | refused => cases m
  | change h _ ih =>
    obtain ⟨heard', due', g, e⟩ := ih m
    exact ⟨heard', due', .change h g, e⟩
  | asked a =>
    cases m with
    | change h => exact ⟨[(_, a)], [], .took h .here, rfl⟩
    | fail h => exact ⟨[(_, a)], [], .refused h, rfl⟩
  | took h _ ih =>
    obtain ⟨heard', due', g, e⟩ := ih m
    exact ⟨_, due', .took h g, congrArg (_ :: ·) e⟩

/-- A worker of one question: not begun, waiting for the answer, done with it, or failed by it. -/
theorem of_ask {f : A → Effect ε R} (g : Goes [.ask q f] rs heard due c) :
    (heard = [] ∧ due = [] ∧ c = .running rs [.ask q f]) ∨
    (∃ a, heard = [] ∧ due = [(q, a)] ∧ c = .running rs [.change (f a)]) ∨
    (∃ a rs', heard = [(q, a)] ∧ due = [] ∧ f a rs = (rs', none) ∧
      (c = .running rs' [] ∨ c = .finished rs')) ∨
    ∃ a rs' e, heard = [(q, a)] ∧ due = [] ∧ f a rs = (rs', some e) ∧ c = .failed rs' e := by
  cases g with
  | here => exact .inl ⟨rfl, rfl, rfl⟩
  | asked a => exact .inr (.inl ⟨a, rfl, rfl, rfl⟩)
  | took h g =>
    cases g with
    | here => exact .inr (.inr (.inl ⟨_, _, rfl, rfl, h, .inl rfl⟩))
    | finish => exact .inr (.inr (.inl ⟨_, _, rfl, rfl, h, .inr rfl⟩))
  | refused h => exact .inr (.inr (.inr ⟨_, _, _, rfl, rfl, h, rfl⟩))

/-- What was asked on the way so far is what the worker asks first. -/
theorem questions_prefix (g : Goes ω rs heard due c) :
    (heard ++ due).map (·.1) <+: ω.questions := by
  induction g with
  | here | finish | fail => exact List.nil_prefix
  | change _ _ ih => exact ih
  | asked | refused => exact (List.prefix_cons_inj _).mpr List.nil_prefix
  | took _ _ ih => exact (List.prefix_cons_inj _).mpr ih

theorem questions_of_finished (g : Goes ω rs heard due (.finished rs')) :
    due = [] ∧ heard.map (·.1) = ω.questions := by
  generalize h : Cell.finished rs' = c at g
  induction g with
  | here | asked | fail | refused => cases h
  | finish => exact ⟨rfl, rfl⟩
  | change _ _ ih => exact ih h
  | took _ _ ih => exact ⟨(ih h).1, congrArg (_ :: ·) (ih h).2⟩

end Goes

end Worker

/-- A task that was started, and how far it went. -/
structure Turn (Q A ε R : Type) where
  task : Task Q A ε R
  heard : List (Q × A)
  due : List (Q × A)
  cell : Cell Q A ε R
  goes : task.worker.Goes task.records heard due cell

namespace Turn

def asked (t : Turn Q A ε R) : List (Q × A) := t.heard ++ t.due

def failure? (t : Turn Q A ε R) : Option ε := t.cell.failure?

end Turn

namespace Progress

/-- The turns of the started tasks. No task moves after a failure, so there is one at most. -/
structure Accounts (τs : List (Task Q A ε R)) (asked : List (Q × A)) (π : Progress Q A ε R)
    (turns : List (Turn Q A ε R)) : Prop where
  tasks : turns.map Turn.task ++ π.waiting = τs
  cells : turns.map Turn.cell = π.cells
  log : asked.Perm (turns.flatMap Turn.asked)
  failures : (turns.filterMap Turn.failure?).length ≤ 1

variable {π π' : Progress Q A ε R} {τs : List (Task Q A ε R)} {turns : List (Turn Q A ε R)}
  {asked : List (Q × A)}

theorem Accounts.failure? (a : Accounts τs asked π turns) :
    π.failure? = turns.findSome? Turn.failure? := by
  rw [Progress.failure?, ← a.cells, List.findSome?_map]
  rfl

theorem filterMap_failure? (a : Accounts τs asked π turns) (h : π.failure? = none) :
    turns.filterMap Turn.failure? = [] := by
  rw [a.failure?, List.findSome?_eq_none_iff] at h
  exact List.filterMap_eq_nil_iff.mpr h

theorem accounts_start (τs : List (Task Q A ε R)) : Accounts τs [] (start τs) [] :=
  ⟨rfl, rfl, .nil, Nat.zero_le 1⟩

theorem Step.accounts (h : π.Step limit l π') (a : Accounts τs asked π turns) :
    ∃ turns', Accounts τs (asked ++ l.toList) π' turns' := by
  cases h with
  | @start τ rest cs h room =>
    let t : Turn Q A ε R := ⟨τ, [], [], _, .here⟩
    refine ⟨turns ++ [t], ?_, ?_, ?_, ?_⟩
    · rw [List.map_append, List.append_assoc]
      exact a.tasks
    · rw [List.map_append, a.cells]
      rfl
    · simpa [Turn.asked, t] using a.log
    · rw [List.filterMap_append, filterMap_failure? a h]
      exact Nat.zero_le 1
  | @move c rest _ c' cs ds h m =>
    obtain ⟨before, others, rfl, cells, others_cells⟩ := List.map_eq_append_iff.mp a.cells
    obtain ⟨t, after, rfl, rfl, rfl⟩ := List.map_eq_cons_iff.mp others_cells
    obtain ⟨heard, due, g, e⟩ := t.goes.step m
    let t' : Turn Q A ε R := ⟨t.task, heard, due, c', g⟩
    have quiet := filterMap_failure? a h
    refine ⟨before ++ t' :: after, ?_, ?_, ?_, ?_⟩
    · have tasks := a.tasks
      simp only [List.map_append, List.map_cons] at tasks ⊢
      exact tasks
    · simp [cells, t']
    · have more : t'.asked = t.asked ++ l.toList := e
      have log := a.log
      simp only [List.flatMap_append, List.flatMap_cons, more] at log ⊢
      refine (log.append_right l.toList).trans ?_
      simp only [List.append_assoc]
      exact (List.perm_append_comm.append_left _).append_left _
    · simp only [List.filterMap_append, List.filterMap_cons, List.append_eq_nil_iff] at quiet ⊢
      obtain ⟨none, rest⟩ := quiet
      have after_none : after.filterMap Turn.failure? = [] := by
        cases f : t.failure? with
        | none => rwa [f] at rest
        | some e => rw [f] at rest; cases rest
      rw [none, after_none]
      cases t'.failure? <;> simp

theorem Reaches.accounts (h : π.Reaches limit asked' π') (a : Accounts τs asked π turns) :
    ∃ turns', Accounts τs (asked ++ asked') π' turns' := by
  induction h generalizing asked turns with
  | refl =>
    rw [List.append_nil]
    exact ⟨turns, a⟩
  | step s _ ih =>
    obtain ⟨turns', a'⟩ := s.accounts a
    rw [← List.append_assoc]
    exact ih a'

end Progress

end PoolSnapshot
