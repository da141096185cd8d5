import PoolSnapshot.Given

/-!
Small closed sets of states that a contract reports by code and a record shows by name.
-/
namespace PoolSnapshot

class Coded (α : Type) where
  all : List α
  code : α → Nat
  name : α → String
  /-- The name with its first letter in upper case. -/
  label : α → String

namespace Coded

inductive Fault where
  | unknown (name : String) (known : List String)
  | unnamed (found : String)
  | manyNames
  | held (found : String)
  deriving DecidableEq

def Fault.message : Fault → String
  | unknown s known =>
    let known := ", ".intercalate (known.map fun k => "`" ++ k ++ "`")
    s!"unknown variant `{s}`, expected one of {known}"
  | unnamed s => s!"invalid type: {s}, expected string or map"
  | manyNames => "invalid value: map, expected map with a single key"
  | held s => s!"invalid type: {s}, expected unit"

variable {α : Type} [Coded α]

def ofCode? (n : Nat) : Option α := (all : List α).find? (code · = n)

def ofName (s : String) : Except Fault α :=
  match (all : List α).find? (name · = s) with
  | some a => .ok a
  | none => .error (.unknown s ((all : List α).map name))

/-- A state is given by its name, or as the only key of an object that holds nothing. -/
def ofGiven : Given → Except Fault α
  | .scalar (.text s) => ofName s
  | .object [(s, v)] => do
    let a ← ofName s
    match v with
    | .null => return a
    | v => throw (.held v.described)
  | .object _ => .error .manyNames
  | v => .error (.unnamed v.described)

end Coded

end PoolSnapshot
