import PoolSnapshot.Abi.Ty
import PoolSnapshot.Word

/-!
Values handed to a contract and read from it, each carrying its kind, and how they are shown when a
value of another kind was expected.
-/
namespace PoolSnapshot.Abi

inductive Value where
  | address (a : Address)
  | bool (b : Bool)
  | bytes (b : Bytes)
  | string (s : String)
  | uint (w : Word)
  | int (w : Word)
  | fixedBytes (b : Bytes)
  | array (vs : List Value)
  | vector (vs : List Value)
  | tuple (vs : List Value)

namespace Value

mutual

/-- Any number fits any width, short fixed bytes fit a longer type, and a tuple may lack its last fields. -/
def fits : Value → Ty → Bool
  | .address _, .address => true
  | .bool _, .bool => true
  | .bytes _, .bytes => true
  | .string _, .string => true
  | .uint _, .uint _ => true
  | .int _, .int _ => true
  | .fixedBytes b, .fixedBytes n => b.length ≤ n
  | .array vs, .array t => allFit vs t
  | .vector vs, .vector t n => vs.length = n && allFit vs t
  | .tuple vs, .tuple ts => firstFit vs ts
  | _, _ => false

def allFit : List Value → Ty → Bool
  | [], _ => true
  | v :: vs, t => v.fits t && allFit vs t

def firstFit : List Value → List Ty → Bool
  | [], _ => true
  | v :: vs, t :: ts => v.fits t && firstFit vs ts
  | _ :: _, [] => false

def eachFits : List Value → List Ty → Bool
  | [], [] => true
  | v :: vs, t :: ts => v.fits t && eachFits vs ts
  | _, _ => false

end

def byteList (b : Bytes) : String := "[" ++ ", ".intercalate (b.map (toString ·.toNat)) ++ "]"

end Value

end PoolSnapshot.Abi
