import PoolSnapshot.Schedule.Worker

/-!
Tasks side by side in any order of moves. They start in the order given, each while fewer than the
limit are running; a running worker may make its next move at any time; the first failure stops all.
-/
namespace PoolSnapshot

/-- A task that was started. -/
inductive Cell (Q A ε R : Type) where
  | running (records : List R) (worker : Worker Q A ε R)
  | finished (records : List R)
  | failed (records : List R) (e : ε)

namespace Cell

variable {Q A ε R : Type}

def records : Cell Q A ε R → List R
  | .running rs _ | .finished rs | .failed rs _ => rs

def isRunning : Cell Q A ε R → Bool
  | .running .. => true
  | _ => false

def failure? : Cell Q A ε R → Option ε
  | .failed _ e => some e
  | _ => none

/-- A move of one worker, with the question that it asks and the answer that it gets. -/
inductive Step : Cell Q A ε R → Option (Q × A) → Cell Q A ε R → Prop
  | ask (a : A) : Step (.running rs (.ask q f :: ω)) (some (q, a)) (.running rs (.change (f a) :: ω))
  | change (h : f rs = (rs', none)) : Step (.running rs (.change f :: ω)) none (.running rs' ω)
  | fail (h : f rs = (rs', some e)) : Step (.running rs (.change f :: ω)) none (.failed rs' e)
  | finish : Step (.running rs []) none (.finished rs)

end Cell

/-- The tasks that were started and those that were not, in order. -/
structure Progress (Q A ε R : Type) where
  cells : List (Cell Q A ε R)
  waiting : List (Task Q A ε R)

namespace Progress

variable {Q A ε R : Type}

def start (τs : List (Task Q A ε R)) : Progress Q A ε R := ⟨[], τs⟩

def running (π : Progress Q A ε R) : Nat := π.cells.countP Cell.isRunning

def failure? (π : Progress Q A ε R) : Option ε := π.cells.findSome? Cell.failure?

def records (π : Progress Q A ε R) : List R :=
  π.cells.flatMap Cell.records ++ π.waiting.flatMap Task.records

inductive Step (limit : Nat) : Progress Q A ε R → Option (Q × A) → Progress Q A ε R → Prop
  | start {cs : List (Cell Q A ε R)} (h : failure? ⟨cs, τ :: τs⟩ = none)
      (room : running ⟨cs, τ :: τs⟩ < max 1 limit) :
      Step limit ⟨cs, τ :: τs⟩ none ⟨cs ++ [.running τ.records τ.worker], τs⟩
  | move {cs ds : List (Cell Q A ε R)} (h : failure? ⟨cs ++ c :: ds, τs⟩ = none) (m : c.Step l c') :
      Step limit ⟨cs ++ c :: ds, τs⟩ l ⟨cs ++ c' :: ds, τs⟩

/-- Many steps, with all that was asked in order. -/
inductive Reaches (limit : Nat) : Progress Q A ε R → List (Q × A) → Progress Q A ε R → Prop
  | refl (π : Progress Q A ε R) : Reaches limit π [] π
  | step (h : Step limit π l π') (t : Reaches limit π' asked π'') :
      Reaches limit π (l.toList ++ asked) π''

/-- What it came to: all records, or the failure that stopped it. -/
inductive Ends : Progress Q A ε R → Except ε (List R) → Prop
  | ok (rss : List (List R)) : Ends ⟨rss.map .finished, []⟩ (.ok rss.flatten)
  | error (h : failure? π = some e) : Ends π (.error e)

theorem Reaches.trans {limit : Nat} {π π' π'' : Progress Q A ε R} {asked asked' : List (Q × A)}
    (h : Reaches limit π asked π') (h' : Reaches limit π' asked' π'') :
    Reaches limit π (asked ++ asked') π'' := by
  induction h with
  | refl => exact h'
  | step s _ ih =>
    rw [List.append_assoc]
    exact .step s (ih h')

end Progress

end PoolSnapshot
