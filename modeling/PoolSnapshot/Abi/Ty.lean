/-!
The types a contract interface is written in, and whether their values are stored in place or
behind an offset.
-/
namespace PoolSnapshot.Abi

inductive Ty where
  | address
  | bool
  | bytes
  | string
  | uint (bits : Nat)
  | int (bits : Nat)
  | fixedBytes (size : Nat)
  | array (t : Ty)
  | vector (t : Ty) (size : Nat)
  | tuple (ts : List Ty)

namespace Ty

mutual

def text : Ty → String
  | .address => "address"
  | .bool => "bool"
  | .bytes => "bytes"
  | .string => "string"
  | .uint n => s!"uint{n}"
  | .int n => s!"int{n}"
  | .fixedBytes n => s!"bytes{n}"
  | .array t => t.text ++ "[]"
  | .vector t n => t.text ++ s!"[{n}]"
  | .tuple ts => "(" ++ ",".intercalate (texts ts) ++ ")"

def texts : List Ty → List String
  | [] => []
  | t :: ts => t.text :: texts ts

end

mutual

def shown : Ty → String
  | .address => "Address"
  | .bool => "Bool"
  | .bytes => "Bytes"
  | .string => "String"
  | .uint n => s!"Uint({n})"
  | .int n => s!"Int({n})"
  | .fixedBytes n => s!"FixedBytes({n})"
  | .array t => "Array(" ++ t.shown ++ ")"
  | .vector t n => "FixedArray(" ++ t.shown ++ s!", {n})"
  | .tuple ts => "Tuple([" ++ ", ".intercalate (shownAll ts) ++ "])"

def shownAll : List Ty → List String
  | [] => []
  | t :: ts => t.shown :: shownAll ts

end

mutual

def dynamic : Ty → Bool
  | .bytes | .string | .array _ => true
  | .vector t _ => t.dynamic
  | .tuple ts => anyDynamic ts
  | _ => false

def anyDynamic : List Ty → Bool
  | [] => false
  | t :: ts => t.dynamic || anyDynamic ts

end

/-- Types whose values are one word or one text. -/
def isElementary : Ty → Bool
  | .array _ | .vector _ _ | .tuple _ => false
  | _ => true

/-- Types with nothing to store, which no bytes at all may stand for. -/
def isVoid : Ty → Bool
  | .fixedBytes n | .vector _ n => n = 0
  | _ => false

end Ty

end PoolSnapshot.Abi
