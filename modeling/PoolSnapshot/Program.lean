import PoolSnapshot.Schedule.Clock

/-!
Programs: stages of tasks, each stage chosen by the records that the stage before it left. A program
is a value, so that one and the same program can be run against answers given at once, on a clock,
or in any order.
-/
namespace PoolSnapshot

inductive Program (Q A ε α : Type) : Type 1 where
  | done (r : Except ε α)
  | stage {R : Type} (limit : Nat) (tasks : List (Task Q A ε R)) (next : List R → Program Q A ε α)

namespace Program

variable {Q A ε α β : Type} {σ : Type}

def bind : Program Q A ε α → (α → Program Q A ε β) → Program Q A ε β
  | .done (.ok a), k => k a
  | .done (.error e), _ => .done (.error e)
  | .stage limit τs next, k => .stage limit τs fun rs => (next rs).bind k

instance : Monad (Program Q A ε) where
  pure a := .done (.ok a)
  bind := bind

instance : MonadLift (Except ε) (Program Q A ε) where
  monadLift := .done

/-- Tasks side by side, `limit` at a time, and all their records in order. -/
def together {R : Type} (limit : Nat) (τs : List (Task Q A ε R)) : Program Q A ε (List R) :=
  .stage limit τs fun rs => .done (.ok rs)

def alone {R : Type} (records : List R) (ω : Worker Q A ε R) : Program Q A ε (List R) :=
  together 1 [⟨records, ω⟩]

/-- Every question answered at once. -/
def eval (answer : Q → A) : Program Q A ε α → Except ε α
  | .done r => r
  | .stage _ τs next =>
    match Task.runAll answer τs with
    | .ok rs => (next rs).eval answer
    | .error e => .error e

/-- On a clock, from a time and a state of the peer to the time and the state at the end. -/
def exec (peer : Clock.Peer σ Q A) : Program Q A ε α → Nat → σ → Nat × σ × Except ε α
  | .done r, now, s => (now, s, r)
  | .stage limit τs next, now, s =>
    match Clock.run peer limit τs now s with
    | (φ, none) => (next φ.records.flatten).exec peer φ.now φ.peer
    | (φ, some e) => (φ.now, φ.peer, .error e)

end Program

end PoolSnapshot
