import PoolSnapshot.Proofs.Schedule.Order
import PoolSnapshot.Proofs.Schedule.Turn

/-!
Tasks one after another. Whatever the limit, this is one of the orders in which they may move, and by
it each can go any way that it could go alone.
-/
namespace PoolSnapshot

variable {Q A ε R : Type}

/-- What is left of a task that ran. -/
def Cell.ended : List R × Option ε → Cell Q A ε R
  | (rs, none) => .finished rs
  | (rs, some e) => .failed rs e

/-- A worker goes to its end by the answers that it always gets. -/
theorem Worker.exists_goes (answer : Q → A) (ω : Worker Q A ε R) (rs : List R) :
    ∃ heard, ω.Goes rs heard [] (Cell.ended (ω.run answer rs)) ∧ Answered answer heard := by
  induction ω generalizing rs with
  | nil => exact ⟨[], .finish, .nil⟩
  | cons m ω ih =>
    rw [run]
    cases m with
    | change f =>
      cases e : f rs with
      | mk rs' o =>
        rw [Move.effect, e]
        cases o with
        | some err => exact ⟨[], .fail e, .nil⟩
        | none =>
          obtain ⟨heard, g, now⟩ := ih rs'
          exact ⟨heard, .change e g, now⟩
    | ask q f =>
      cases e : f (answer q) rs with
      | mk rs' o =>
        rw [Move.effect, e]
        cases o with
        | some err => exact ⟨_, .refused e, List.forall_mem_singleton.mpr rfl⟩
        | none =>
          obtain ⟨heard, g, now⟩ := ih rs'
          exact ⟨_, .took e g, List.forall_mem_cons.mpr ⟨rfl, now⟩⟩

namespace Progress

variable {answer : Q → A} {limit : Nat}

/-- A failure among cells that have none is that of the one more. -/
theorem failure?_at {cs ds : List (Cell Q A ε R)} {τs : List (Task Q A ε R)}
    (fine : failure? ⟨cs ++ ds, τs⟩ = none) (c : Cell Q A ε R) : failure? ⟨cs ++ c :: ds, τs⟩ = c.failure? := by
  simp only [failure?, List.findSome?_append, Option.or_eq_none_iff] at fine ⊢
  rw [fine.1, List.findSome?_cons, fine.2]
  cases c.failure? <;> rfl

theorem failure?_finished (rss : List (List R)) (τs : List (Task Q A ε R)) :
    failure? ⟨rss.map .finished ++ [], τs⟩ = none := by
  simp [failure?, Cell.failure?]

/-- The next task may start when all before it are finished. -/
theorem start_next (limit : Nat) (rss : List (List R)) (τ : Task Q A ε R) (τs : List (Task Q A ε R)) :
    Step limit ⟨rss.map .finished, τ :: τs⟩ none ⟨rss.map .finished ++ [.running τ.records τ.worker], τs⟩ := by
  have fine := failure?_finished rss (τ :: τs)
  rw [List.append_nil] at fine
  exact .start fine (running_finished_lt limit rss (τ :: τs))

/-- Among cells without a failure, a worker goes any way that it can go. -/
theorem reaches_goes {ω : Worker Q A ε R} {c : Cell Q A ε R} (g : ω.Goes rs heard due c) (limit : Nat)
    {cs ds : List (Cell Q A ε R)} {τs : List (Task Q A ε R)} (fine : failure? ⟨cs ++ ds, τs⟩ = none) :
    Reaches limit ⟨cs ++ .running rs ω :: ds, τs⟩ (heard ++ due) ⟨cs ++ c :: ds, τs⟩ := by
  have next {l : Option (Q × A)} {rs : List R} {ω : Worker Q A ε R} {c : Cell Q A ε R}
      (m : (Cell.running rs ω).Step l c) :
      Step limit ⟨cs ++ .running rs ω :: ds, τs⟩ l ⟨cs ++ c :: ds, τs⟩ :=
    .move (failure?_at fine _) m
  induction g with
  | here => exact .refl _
  | finish => exact .step (next .finish) (.refl _)
  | change h _ ih => exact .step (next (.change h)) ih
  | fail h => exact .step (next (.fail h)) (.refl _)
  | asked a => exact .step (next (.ask a)) (.refl _)
  | took h _ ih => exact .step (next (.ask _)) (.step (next (.change h)) ih)
  | refused h => exact .step (next (.ask _)) (.step (next (.fail h)) (.refl _))

/-- All tasks that wait go to their ends, each its own way. -/
theorem reaches_ways {ways : List (List (Q × A) × List R)} {τs : List (Task Q A ε R)}
    (went : List.Forall₂ (fun τ way => τ.worker.Goes τ.records way.1 [] (.finished way.2)) τs ways)
    (limit : Nat) (rss : List (List R)) :
    Reaches limit ⟨rss.map .finished, τs⟩ (ways.flatMap (·.1)) ⟨(rss ++ ways.map (·.2)).map .finished, []⟩ := by
  induction went generalizing rss with
  | nil =>
    rw [List.map_nil, List.append_nil]
    exact .refl _
  | @cons τ way τs ways goes _ ih =>
    have rest := ih (rss ++ [way.2])
    rw [List.append_assoc, List.map_append] at rest
    have now := reaches_goes goes limit (failure?_finished rss τs)
    rw [List.append_nil] at now
    exact .step (start_next limit rss τ τs) (now.trans rest)

/-- All tasks that wait run one after another, up to the first that fails. -/
theorem reaches_runAll (answer : Q → A) (limit : Nat) (rss : List (List R)) (τs : List (Task Q A ε R)) :
    ∃ asked π, Reaches limit ⟨rss.map .finished, τs⟩ asked π ∧ Answered answer asked ∧
      π.Ends ((Task.runAll answer τs).map (rss.flatten ++ ·)) := by
  induction τs generalizing rss with
  | nil =>
    refine ⟨[], _, .refl _, .nil, ?_⟩
    have ends : Ends (Q := Q) (A := A) (ε := ε) ⟨rss.map .finished, []⟩ (.ok rss.flatten) := .ok rss
    rwa [← List.append_nil rss.flatten] at ends
  | cons τ τs ih =>
    have start := start_next limit rss τ τs
    obtain ⟨asked, goes, now⟩ := τ.worker.exists_goes answer τ.records
    have t := reaches_goes goes limit (failure?_finished rss τs)
    rw [List.append_nil] at t
    cases e : τ.worker.run answer τ.records with
    | mk rs o =>
      rw [e] at t
      cases o with
      | some err =>
        refine ⟨_, _, .step start t, now, ?_⟩
        rw [Task.runAll, e]
        exact .error (failure?_at (failure?_finished rss τs) _)
      | none =>
        obtain ⟨asked', π, t', later, ends⟩ := ih (rss ++ [rs])
        rw [List.map_append] at t'
        refine ⟨_, π, .step start (t.trans t'), ?_, ?_⟩
        · exact Answered.append_iff.mpr ⟨.nil, Answered.append_iff.mpr ⟨now, later⟩⟩
        rw [Task.runAll, e]
        cases all : Task.runAll answer τs <;> rw [all] at ends
        · exact ends
        · simpa [Except.map] using ends

end Progress

end PoolSnapshot
