import PoolSnapshot.Settings.Layered
import PoolSnapshot.Text.Blank
import PoolSnapshot.Text.Numeral
import PoolSnapshot.Text.Split

/-!
Where settings come from: a document, and over it the variables of the environment. A key with points
or brackets is a path.
-/
namespace PoolSnapshot

/-- Variables with their values. -/
abbrev Environment := List (String × String)

namespace Environment

/-- Lower case, also of the sign of Kelvin, which has a plain letter as its lower case. -/
def lower (c : Char) : Char := if c = '\u212A' then 'k' else c.toLower

def pointed : List Char → List Char
  | '_' :: '_' :: s => '.' :: pointed s
  | c :: s => c :: pointed s
  | [] => []

/-- The key that a variable sets: two low lines stand for a point. -/
def key? (name : String) : Option (List Char) :=
  match name.toList.map lower with
  | 's' :: 'd' :: 'k' :: '_' :: s => some (pointed s)
  | _ => none

def scalar (s : String) : Scalar :=
  match s.toLower with
  | "true" => .bool true
  | "false" => .bool false
  | _ =>
    match (Text.integer? s.toList).filter fun n => -Int.pow 2 63 ≤ n ∧ n < Int.pow 2 63, Text.real? s.toList with
    | some n, _ => .integer n
    | none, some x => .real x
    | none, none => .text s

end Environment

namespace Layered.Step

def isKeyChar (c : Char) : Bool := c.isAlphanum || c = ' ' || c = '_' || c = '-'

def isSpace (c : Char) : Bool := c = ' ' || c = '\t'

def place? (s : List Char) : Option Int :=
  let s := Text.trim isSpace s
  if s.head? = some '+' then none
  else (Text.integer? s).filter fun n => -Int.pow 2 63 ≤ n ∧ n < Int.pow 2 63

/-- Steps behind the first: a key after a point, or a place in brackets. -/
def more? : Nat → List Char → Option (List Step)
  | _, [] => some []
  | 0, _ => none
  | n + 1, '.' :: s =>
    match s.takeWhile isKeyChar with
    | [] => none
    | k => (more? n (s.dropWhile isKeyChar)).map (.key (String.ofList k) :: ·)
  | n + 1, '[' :: s => do
    let (i, s) ← Text.cutFirst (· = ']') s
    let i ← place? i
    (more? n s).map (.place i :: ·)
  | _, _ => none

/-- What is no path is a key as a whole. -/
def path (key : List Char) : List Step :=
  (more? (key.length + 1) ('.' :: key)).getD [.key (String.ofList key)]

end Layered.Step

namespace Layered

def layFile (document : Toml.Value) : Option Layered :=
  (ofDocument document).entries.foldlM (fun t (k, v) => t.lay (Step.path k.toList) v) (.table none [])

def layEnvironment (ε : Environment) (t : Layered) : Option Layered :=
  ε.foldlM (fun t (name, s) =>
    match Environment.key? name with
    | some k => t.lay (Step.path k) (.leaf .environment (Environment.scalar s))
    | none => some t) t

/-- None when a list has no such place as a key asks for. -/
def ofSources (document : Toml.Value) (ε : Environment) : Option Layered :=
  layFile document >>= layEnvironment ε

end Layered

end PoolSnapshot
