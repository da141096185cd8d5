import PoolSnapshot.Abi.Decode
import PoolSnapshot.Text.Quoted

/-!
The types of record fields that an answer can be read as, and the report when its kind is another.
-/
namespace PoolSnapshot.Abi

namespace Value

mutual

def shown : Value → String
  | .address a => "Address(" ++ a.text ++ ")"
  | .bool b => "Bool(" ++ (if b then "true" else "false") ++ ")"
  | .bytes b => "Bytes(" ++ byteList b ++ ")"
  | .string s => "String(" ++ Text.quoted s ++ ")"
  | .uint w => "Uint(" ++ w.decimal ++ ")"
  | .int w => "Int(" ++ w.decimal ++ ")"
  | .fixedBytes b => "FixedBytes(" ++ byteList b ++ ")"
  | .array vs => "Array([" ++ ", ".intercalate (shownAll vs) ++ "])"
  | .vector vs => "FixedArray([" ++ ", ".intercalate (shownAll vs) ++ "])"
  | .tuple vs => "Tuple([" ++ ", ".intercalate (shownAll vs) ++ "])"

def shownAll : List Value → List String
  | [] => []
  | v :: vs => v.shown :: shownAll vs

end

end Value

class Readable (α : Type) where
  kind : String
  ofValue? : Value → Option α

instance : Readable Word where
  kind := "U256"
  ofValue?
    | .uint w | .int w => some w
    | _ => none

instance : Readable Bool where
  kind := "bool"
  ofValue?
    | .bool b => some b
    | _ => none

instance : Readable Address where
  kind := "Address"
  ofValue?
    | .address a => some a
    | _ => none

instance : Readable Hash where
  kind := "H256"
  ofValue?
    | .fixedBytes b => if b.length = 32 then some (Hash.ofBytes b) else none
    | _ => none

instance : Readable Bytes where
  kind := "Bytes"
  ofValue?
    | .bytes b => some b
    | _ => none

instance : Readable String where
  kind := "String"
  ofValue?
    | .string s => some s
    | _ => none

def Value.read (α : Type) [ρ : Readable α] (v : Value) : Except String α :=
  match ρ.ofValue? v with
  | some a => .ok a
  | none => .error s!"Expected `{ρ.kind}`, got {v.shown}"

end PoolSnapshot.Abi
