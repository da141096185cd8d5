/-!
Structured values as the records are written down: numbers are whole and never negative.
-/
namespace PoolSnapshot

inductive Json where
  | null
  | bool (b : Bool)
  | nat (n : Nat)
  | text (s : String)
  | array (items : List Json)
  | object (fields : List (String × Json))

namespace Json

/-- Keeps the named fields of an object. -/
def pick (names : List String) : Json → Json
  | .object fs => .object (fs.filter (names.contains ·.1))
  | j => j

end Json

end PoolSnapshot
