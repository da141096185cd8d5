import PoolSnapshot.Chunk

/-!
Workers: each owns a run of records and changes them move by move, on its own or by the answer to a
question. A move may fail, which ends its worker.
-/
namespace PoolSnapshot

/-- The records after a move, and why it failed if it did. -/
abbrev Effect (ε R : Type) := List R → List R × Option ε

inductive Move (Q A ε R : Type) where
  | change (f : Effect ε R)
  | ask (q : Q) (f : A → Effect ε R)

abbrev Worker (Q A ε R : Type) := List (Move Q A ε R)

/-- A worker and the records that it owns. -/
structure Task (Q A ε R : Type) where
  records : List R
  worker : Worker Q A ε R

namespace Move

variable {Q A ε R : Type}

def effect (answer : Q → A) : Move Q A ε R → Effect ε R
  | .change f => f
  | .ask q f => f (answer q)

end Move

namespace Worker

variable {Q A ε R : Type}

def fail (e : ε) : Worker Q A ε R := [.change fun rs => (rs, some e)]

/-- The worker alone, every question answered at once. -/
def run (answer : Q → A) : Worker Q A ε R → List R → List R × Option ε
  | [], rs => (rs, none)
  | m :: ω, rs =>
    match m.effect answer rs with
    | (rs, none) => run answer ω rs
    | (rs, some e) => (rs, some e)

end Worker

namespace Task

variable {Q A ε R : Type}

/-- Records in slices of one size, each with the worker made for the range that it is handed. -/
def assign (ranges : List Range) (size : Nat) (records : List R) (worker : Range → List R → Worker Q A ε R) :
    List (Task Q A ε R) :=
  (ranges.zip (Chunk.slices size records)).map fun (r, rs) => ⟨rs, worker r rs⟩

/-- The ranges are those that stepping by words finds, if it comes to an end. -/
def walked (size : UInt64) (records : List R) (worker : Range → List R → Worker Q A ε R) :
    Option (List (Task Q A ε R)) :=
  (Chunk.walk (.ofNat records.length) size).map (assign · size.toNat records worker)

/-- Each slice with its own range. Up to `2 ^ 63` records, stepping by words finds the same. -/
def chunked (size : Nat) (records : List R) (worker : Range → List R → Worker Q A ε R) :
    List (Task Q A ε R) :=
  assign (Chunk.ranges records.length size) size records worker

/-- The tasks one after another, up to the first that fails. -/
def runAll (answer : Q → A) : List (Task Q A ε R) → Except ε (List R)
  | [] => .ok []
  | τ :: τs =>
    match τ.worker.run answer τ.records with
    | (_, some e) => .error e
    | (rs, none) => (runAll answer τs).map (rs ++ ·)

end Task

end PoolSnapshot
