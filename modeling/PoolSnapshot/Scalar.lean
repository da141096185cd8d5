import PoolSnapshot.Binary64
import PoolSnapshot.Text.Quoted

/-!
Single values as they are configured.
-/
namespace PoolSnapshot

inductive Scalar where
  | text (s : String)
  | integer (n : Int)
  | real (x : Binary64)
  | bool (b : Bool)
  deriving DecidableEq

namespace Scalar

def toText : Scalar → String
  | .text s => s
  | .integer n => toString n
  | .real x => x.text
  | .bool b => if b then "true" else "false"

def pointed (x : Binary64) : String :=
  match x with
  | .finite .. => if x.text.toList.contains '.' then x.text else x.text ++ ".0"
  | _ => x.text

/-- Names the value in a report. -/
def described : Scalar → String
  | .text s => "string " ++ Text.quoted s
  | .integer n => s!"integer `{n}`"
  | .real x => s!"floating point `{pointed x}`"
  | .bool b => s!"boolean `{toText (.bool b)}`"

end Scalar

end PoolSnapshot
