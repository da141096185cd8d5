import PoolSnapshot.Scalar

/-!
Values of any shape, given where a certain one is expected, and what a report calls them.
-/
namespace PoolSnapshot

inductive Given where
  | null
  | scalar (s : Scalar)
  | list (items : List Given)
  | object (fields : List (String × Given))
  deriving Inhabited

namespace Given

def described : Given → String
  | .null => "null"
  | .scalar (.real x) => "floating point `" ++ x.compact ++ "`"
  | .scalar s => s.described
  | .list _ => "sequence"
  | .object _ => "map"

end Given

end PoolSnapshot
