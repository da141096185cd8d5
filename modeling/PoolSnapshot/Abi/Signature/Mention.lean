import PoolSnapshot.Abi.Signature.Name
import PoolSnapshot.Abi.Ty
import PoolSnapshot.Text.Numeric
import PoolSnapshot.Text.Quoted

/-!
Structs that are mentioned by name, alone or as items of an array.
-/
namespace PoolSnapshot.Abi.Signature

inductive Extent where
  | one
  | many
  | exactly (n : Nat)
  deriving DecidableEq

/-- What stands before a point in the name is kept, but does not count. -/
structure Mention where
  path : List String
  name : String
  extent : Extent
  deriving DecidableEq

namespace Mention

/-- The size up to the bracket that closes it. -/
def readExtent (text : List Char) : List Char → List Char → Except Fault Extent
  | _, [] => .error (.openArray (String.ofList text))
  | size, c :: s =>
    if isSpace c then
      if size.isEmpty then readExtent text [] s
      else .error (.brokenSize (String.ofList size) (String.ofList text))
    else if c = ']' then
      if size.isEmpty then .ok .many
      else match size? size with
        | some n => .ok (.exactly n)
        | none => .error (.noSize (String.ofList size) (String.ofList text))
    else if Text.isNumeric c then readExtent text (size ++ [c]) s
    else .error (.strayInSize c (String.ofList text))

def readFrom : Nat → List String → List Char → Except Fault Mention
  | 0, _, s => .error (.noName (String.ofList s))
  | n + 1, path, s => do
    let (k, s) ← takeName s
    match s with
    | [] => return ⟨path, k, .one⟩
    | '.' :: t => readFrom n (path ++ [k]) t
    | c :: t =>
      if isSpace c || c = '[' then return ⟨path, k, ← readExtent s [] t⟩
      else throw (.stray c (String.ofList s))

def read (s : List Char) : Except Fault Mention := readFrom (s.length + 1) [] s

def ty (μ : Mention) (fields : List Ty) : Ty :=
  match μ.extent with
  | .one => .tuple fields
  | .many => .array (.tuple fields)
  | .exactly n => .vector (.tuple fields) n

def shown (μ : Mention) : String :=
  let path := "[" ++ ", ".intercalate (μ.path.map Text.quoted) ++ "]"
  let type := "Type(StructType \x7b name: " ++ Text.quoted μ.name ++
    ", projections: " ++ path ++ " \x7d)"
  match μ.extent with
  | .one => "Struct(" ++ type ++ ")"
  | .many => "Struct(Array(" ++ type ++ "))"
  | .exactly n => "Struct(FixedArray(" ++ type ++ s!", {n}))"

end Mention

end PoolSnapshot.Abi.Signature
