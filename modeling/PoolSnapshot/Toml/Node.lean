import PoolSnapshot.Scalar
import PoolSnapshot.Toml.Moment

/-!
Tables while they are written down, and what they come to when they are closed. Keys that were set
twice are found only then, and not at all behind the text of a moment.
-/
namespace PoolSnapshot.Toml

inductive Value where
  | leaf (s : Scalar)
  | list (items : List Value)
  | table (entries : List (String × Value))

inductive Mark where
  | braced
  | dotted
  | named
  /-- Mentioned only on the way to another table. -/
  | implied
  deriving DecidableEq

inductive Node where
  | leaf (s : Scalar)
  | moment (text : String)
  | list (items : List Node)
  | table (mark : Mark) (entries : List (String × Node))
  | rows (done : List Node) (entries : List (String × Node))

namespace Node

abbrev Entries := List (String × Node)

def isHeaded : Node → Bool
  | .table .named _ | .table .implied _ | .rows _ _ => true
  | _ => false

/-- A table whose first key says so stands for a moment. -/
def isMoment : Entries → Bool
  | [] => false
  | (k, _) :: _ => k = "$__toml_private_datetime"

/-- What else the table holds is left out, but no header may lead into it. -/
def moment? : Entries → Option String
  | (_, .leaf (.text s)) :: es => if es.any (·.2.isHeaded) then none else Moment.ofText? s
  | _ => none

def closed (es : Entries) (vs : Option (List (String × Value))) : Option Value :=
  if isMoment es then (moment? es).map fun s => .leaf (.text s) else vs.map .table

mutual

def close : Node → Option Value
  | .leaf s => some (.leaf s)
  | .moment s => some (.leaf (.text s))
  | .list ns => (closeAll ns).map .list
  | .table _ es => closed es (closeEach es)
  | .rows done es => do return .list ((← closeAll done) ++ [← closed es (closeEach es)])

def closeAll : List Node → Option (List Value)
  | [] => some []
  | n :: ns => do return (← close n) :: (← closeAll ns)

def closeEach : List (String × Node) → Option (List (String × Value))
  | [] => some []
  | (k, n) :: es =>
    if es.any (·.1 = k) then none else do return (k, ← close n) :: (← closeEach es)

end

def alter (k : String) (f : Option Node → Option Node) : Entries → Option Entries
  | [] => (f none).map fun n => [(k, n)]
  | (k', n) :: es =>
    if k' = k then (f (some n)).map fun n => (k, n) :: es else (alter k f es).map ((k', n) :: ·)

/-- Sets a key with points. -/
def assign (n : Node) : List String → Entries → Option Entries
  | [], _ => none
  | [k], es => some (es ++ [(k, n)])
  | k :: ks, es => es |> alter k fun
    | none => (assign n ks []).map (.table .dotted)
    | some (.table .dotted es') => (assign n ks es').map (.table .dotted)
    | some _ => none

/-- Changes the table that a header leads to; of several rows it is the last. -/
def within (f : Entries → Option Entries) : List String → Entries → Option Entries
  | [], es => f es
  | k :: ks, es => es |> alter k fun
    | none => (within f ks []).map (.table .implied)
    | some (.table .implied es') => (within f ks es').map (.table .implied)
    | some (.table .named es') => (within f ks es').map (.table .named)
    | some (.rows done es') => (within f ks es').map (.rows done)
    | some _ => none

/-- A table under a key, with the entries below its header. -/
def name (own : Entries) (k : String) : Entries → Option Entries :=
  alter k fun
    | none => some (.table .named own)
    | some (.table .implied es) => some (.table .named (es ++ own))
    | some _ => none

/-- One more row under a key. -/
def row (own : Entries) (k : String) : Entries → Option Entries :=
  alter k fun
    | none => some (.rows [] own)
    | some (.rows done es) => some (.rows (done ++ [.table .named es]) own)
    | some _ => none

end Node

end PoolSnapshot.Toml
