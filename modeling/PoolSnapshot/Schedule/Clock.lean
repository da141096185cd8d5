import PoolSnapshot.Schedule.Worker

/-!
Tasks run side by side on one clock. Work takes no time; an answer may be a while in coming, and its
worker sleeps until then. The next task starts as soon as fewer than the limit are running, and the
first failure ends everything.
-/
namespace PoolSnapshot.Clock

variable {σ Q A ε R : Type}

/-- Whoever is asked: at a time, in a state, the answer and how long it takes. -/
abbrev Peer (σ Q A : Type) := Nat → Q → σ → σ × A × Nat

structure Sleeper (Q A ε R : Type) where
  wake : Nat
  index : Nat
  effect : Effect ε R
  rest : Worker Q A ε R

inductive Pause (Q A ε R : Type) where
  | finished
  | failed (e : ε)
  | asleep (wake : Nat) (effect : Effect ε R) (rest : Worker Q A ε R)

/-- A worker up to where it has to wait. -/
def advance (peer : Peer σ Q A) (now : Nat) : Worker Q A ε R → List R → σ → σ × List R × Pause Q A ε R
  | [], rs, s => (s, rs, .finished)
  | .change f :: ω, rs, s =>
    match f rs with
    | (rs, none) => advance peer now ω rs s
    | (rs, some e) => (s, rs, .failed e)
  | .ask q f :: ω, rs, s =>
    match peer now q s with
    | (s, a, 0) =>
      match f a rs with
      | (rs, none) => advance peer now ω rs s
      | (rs, some e) => (s, rs, .failed e)
    | (s, a, d) => (s, rs, .asleep (now + d) (f a) ω)

structure Floor (σ Q A ε R : Type) where
  now : Nat
  peer : σ
  records : List (List R)
  asleep : List (Sleeper Q A ε R)
  waiting : List (Nat × Worker Q A ε R)

namespace Floor

def recordsOf (φ : Floor σ Q A ε R) (i : Nat) : List R := φ.records.getD i []

/-- Lets worker `i` go on, and says whether it failed. -/
def drive (peer : Peer σ Q A) (φ : Floor σ Q A ε R) (i : Nat) (ω : Worker Q A ε R) :
    Floor σ Q A ε R × Option ε :=
  let (s, rs, p) := advance peer φ.now ω (φ.recordsOf i) φ.peer
  let φ := { φ with peer := s, records := φ.records.set i rs }
  match p with
  | .finished => (φ, none)
  | .failed e => (φ, some e)
  | .asleep t f ω => ({ φ with asleep := φ.asleep ++ [⟨t, i, f, ω⟩] }, none)

end Floor

/-- The first to wake, and the others; of two that wake together the one asleep for longer. -/
def earliest : List (Sleeper Q A ε R) → Option (Sleeper Q A ε R × List (Sleeper Q A ε R))
  | [] => none
  | s :: ss =>
    match earliest ss with
    | none => some (s, [])
    | some (t, ts) => if s.wake ≤ t.wake then some (s, ss) else some (t, s :: ts)

def loop (peer : Peer σ Q A) (limit : Nat) :
    Nat → Floor σ Q A ε R → Floor σ Q A ε R × Option ε
  | 0, φ => (φ, none)
  | fuel + 1, φ =>
    let wake (φ : Floor σ Q A ε R) :=
      match earliest φ.asleep with
      | none => (φ, none)
      | some (s, ss) =>
        match ({ φ with now := s.wake, asleep := ss } : Floor σ Q A ε R).drive peer s.index
            (.change s.effect :: s.rest) with
        | (φ, none) => loop peer limit fuel φ
        | (φ, some e) => (φ, some e)
    match φ.waiting with
    | [] => wake φ
    | (i, ω) :: ws =>
      if φ.asleep.length < max 1 limit then
        match ({ φ with waiting := ws } : Floor σ Q A ε R).drive peer i ω with
        | (φ, none) => loop peer limit fuel φ
        | (φ, some e) => (φ, some e)
      else wake φ

/-- Every turn starts a task or uses up a question. -/
def turns (τs : List (Task Q A ε R)) : Nat := τs.foldl (fun n τ => n + τ.worker.length + 1) 1

def run (peer : Peer σ Q A) (limit : Nat) (τs : List (Task Q A ε R)) (now : Nat) (s : σ) :
    Floor σ Q A ε R × Option ε :=
  loop peer limit (turns τs)
    { now, peer := s, records := τs.map (·.records), asleep := []
      waiting := τs.zipIdx.map fun (τ, i) => (i, τ.worker) }

end PoolSnapshot.Clock
