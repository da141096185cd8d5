import PoolSnapshot.Toml.Value

/-!
Documents: headers that open tables, and keys set in the table that was opened last.
-/
namespace PoolSnapshot.Toml

open Reader

/-- Opens a table, or one more row of a list of tables. -/
structure Header where
  row : Bool
  path : List String

/-- Puts the entries below a header where it leads. -/
def Header.place (h : Header) (own es : Node.Entries) : Option Node.Entries :=
  match h.path.reverse with
  | [] => none
  | k :: ks => es |> Node.within ((if h.row then Node.row else Node.name) own k) ks.reverse

inductive Statement where
  | header (h : Header)
  | assign (path : List String) (n : Node)

namespace Statement

def read (n : Nat) : Reader Statement := do
  match ← get with
  | '[' :: '[' :: s =>
    set s
    let path ← keys n
    expect ']'
    expect ']'
    lineEnd
    return .header ⟨true, path⟩
  | '[' :: s =>
    set s
    let path ← keys n
    expect ']'
    lineEnd
    return .header ⟨false, path⟩
  | _ =>
    let path ← keys n
    expect '='
    blanks
    let v ← value n
    lineEnd
    return .assign path v

def readAll : Nat → Reader (List Statement)
  | 0 => failure
  | n + 1 => do
    gap
    if (← get).isEmpty then return []
    return (← read (n + 1)) :: (← readAll n)

/-- The entries before any header, and below each. -/
def gather : List Statement → Node.Entries → Option (Node.Entries × List (Header × Node.Entries))
  | [], es => some (es, [])
  | .assign path n :: ss, es => do gather ss (← Node.assign n path es)
  | .header h :: ss, es => do
    let (own, below) ← gather ss []
    return (es, (h, own) :: below)

end Statement

/-- A line may end in a carriage return. -/
def foldLines : List Char → List Char
  | '\r' :: '\n' :: s => '\n' :: foldLines s
  | c :: s => c :: foldLines s
  | [] => []

/-- A mark of the byte order at the start is skipped. -/
def unmark : List Char → List Char
  | '\uFEFF' :: s => s
  | s => s

/-- Headers do not matter to a document that stands for a moment. -/
def parse? (text : String) : Option Value := do
  let s := foldLines (unmark text.toList)
  let (ss, _) ← Statement.readAll (s.length + 1) s
  let (es, below) ← Statement.gather ss []
  let below := if Node.isMoment es then [] else below
  (.table .named (← below.foldlM (fun es (h, own) => h.place own es) es) : Node).close

end PoolSnapshot.Toml
