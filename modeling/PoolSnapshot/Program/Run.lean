import PoolSnapshot.Program
import PoolSnapshot.Schedule.Step

/-!
All that a program may come to when every question may get any answer and the tasks of a stage move in
any order. No stage starts before the one before it has finished.
-/
namespace PoolSnapshot.Program

variable {Q A ε α : Type}

/-- A run, with all that was asked in order and what was answered. -/
inductive Run : Program Q A ε α → List (Q × A) → Except ε α → Prop
  | done (r : Except ε α) : Run (.done r) [] r
  | next {τs : List (Task Q A ε R)} {next : List R → Program Q A ε α}
      (h : (Progress.start τs).Reaches limit asked π) (e : π.Ends (.ok rs))
      (t : Run (next rs) asked' r) : Run (.stage limit τs next) (asked ++ asked') r
  | stop {τs : List (Task Q A ε R)} {next : List R → Program Q A ε α}
      (h : (Progress.start τs).Reaches limit asked π) (e : π.Ends (.error err)) :
      Run (.stage limit τs next) asked (.error err)

end PoolSnapshot.Program
