import PoolSnapshot.Abi.Function
import PoolSnapshot.Abi.Signature.Structure

/-!
Interfaces written as text, one declaration a line: functions, and the structs, events, errors and
constructors beside them. A function has a name, its arguments in parentheses, words that say what it
may do, and in the last pair of parentheses what it answers.
-/
namespace PoolSnapshot.Abi.Signature

/-- A type, and a name after it unless the last word only says where the value is kept. -/
def parameter (τ : Structs) (s : List Char) : Except Fault (String × Ty) :=
  let s := Text.trim Text.isBlank s
  match Text.cutLast isSpace s with
  | none => do return ("", ← τ.ty s)
  | some (s, k) => do
    let k := String.ofList k
    let type := (Text.cutLast isSpace s).elim s (·.1)
    return (if k = "memory" || k = "calldata" then "" else k, ← τ.ty type)

def parameters (τ : Structs) (s : List Char) : Except Fault (List (String × Ty)) :=
  ((Text.splitOn ',' s).filter (!·.isEmpty)).mapM (parameter τ)

def contains (word : String) : List Char → Bool
  | [] => word.isEmpty
  | c :: s => word.toList.isPrefixOf (c :: s) || contains word s

def mutability (words : List Char) : Mutability :=
  if contains "pure" words then .pure
  else if contains "view" words then .view
  else if contains "payable" words then .payable
  else .nonpayable

/-- The types that a function answers, up to the end of the line. -/
def answers (τ : Structs) (line : String) (s : List Char) : Except Fault (List Ty) := do
  let some s := Text.before? [')'] (Text.trim Text.isBlank s) | throw (.unclosed line)
  return (← parameters τ s).map (·.2)

def function (τ : Structs) (line : List Char) : Except Fault Function := do
  let text := String.ofList line
  let s := Text.trim Text.isBlank line
  let (k, s) ← takeName ((keyword? "function" s).getD s)
  let some s := Text.after? ['('] s | throw (.unopened text)
  let (s, outputs) := ((Text.cutLast (· = '(') s).map (·.map id some)).getD (s, none)
  let some (inputs, words) := Text.cutFirst (· = ')') s | throw (.unclosed text)
  let inputs ← parameters τ inputs
  let outputs ← (outputs.map (answers τ text)).getD (.ok [])
  return ⟨k, inputs, outputs, mutability words⟩

/-- A type, with a word if the event can be searched by it, and a name. -/
def topic (τ : Structs) (s : List Char) : Except Fault Ty :=
  let t := Text.trim Text.isBlank s
  match Text.cutLast isSpace t with
  | none => τ.ty t
  | some (t, _) =>
    match Text.cutLast isSpace t with
    | none => τ.ty t
    | some (type, word) =>
      if String.ofList word = "indexed" then τ.ty type else .error (.notIndexed (String.ofList s))

def event (τ : Structs) (line : List Char) : Except Fault (List Ty) := do
  let text := String.ofList line
  let some s := keyword? "event" line | throw (.noEvent text)
  let (_, s) ← takeName s
  match s.dropWhile isSpace with
  | [] => throw .noArguments
  | '(' :: s =>
    let s := Text.trim Text.isBlank s
    let s := Text.trim Text.isBlank ((Text.before? "anonymous".toList s).getD s)
    let some s := Text.before? [')'] s | throw (.unclosed text)
    if s.isEmpty then return [] else (Text.splitOn ',' s).mapM (topic τ)
  | c :: _ => throw (.stray c text)

/-- Errors are declared like functions that answer nothing. -/
def error (τ : Structs) (line s : List Char) : Except Fault Function := do
  let φ := Fault.noError (String.ofList line)
  let f ← Fault.recover (function τ s) (.error φ)
  if f.outputs.isEmpty then return f else throw φ

def arguments (τ : Structs) (line s : List Char) : Except Fault (List (String × Ty)) := do
  let some s := Text.after? ['('] (s.dropWhile Text.isBlank) | throw (.unopened (String.ofList line))
  parameters τ ((Text.cutLast (· = ')') s).elim s (·.1))

/-- The function that a line declares, if it declares one. -/
def declared (τ : Structs) (line : List Char) : Except Fault (Option Function) :=
  if "event".toList.isPrefixOf line then (event τ line).map fun _ => none
  else match Text.after? "error".toList line, Text.after? "constructor".toList line with
    | some s, _ => (error τ line s).map fun _ => none
    | _, some s => (arguments τ line s).map fun _ => none
    | none, none =>
      Fault.recover (some <$> function τ line) (.error (.noFunction (String.ofList line)))

/-- The line that is read: without the blanks and quotes around it. -/
def clean (line : String) : List Char :=
  Text.trim Text.isBlank (Text.trim (· = '"') (Text.trim isSpace line.toList))

/-- The functions of all lines that hold anything. Structs come first. -/
def functions (lines : List String) : Except Fault (List Function) := do
  let (structs, others) := ((lines.map clean).filter (!·.isEmpty)).partition "struct".toList.isPrefixOf
  let τ ← Structs.ofLines structs []
  return (← others.mapM (declared τ)).filterMap id

end PoolSnapshot.Abi.Signature
