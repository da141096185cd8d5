/-!
Text cut at separators.
-/
namespace PoolSnapshot.Text

/-- The pieces between separators: one more than there are separators. -/
def splitOn (sep : Char) : List Char → List (List Char)
  | [] => [[]]
  | c :: s =>
    if c = sep then [] :: splitOn sep s
    else match splitOn sep s with
      | [] => [[c]]
      | p :: ps => (c :: p) :: ps

/-- What stands before and after the first character of a kind. -/
def cutFirst (p : Char → Bool) (s : List Char) : Option (List Char × List Char) :=
  match s.dropWhile (!p ·) with
  | [] => none
  | _ :: t => some (s.takeWhile (!p ·), t)

/-- What stands before and after the last character of a kind. -/
def cutLast (p : Char → Bool) (s : List Char) : Option (List Char × List Char) :=
  (cutFirst p s.reverse).map fun (t, s) => (s.reverse, t.reverse)

/-- The text after a beginning, if it begins so. -/
def after? (beginning s : List Char) : Option (List Char) :=
  if beginning.isPrefixOf s then some (s.drop beginning.length) else none

/-- What stands before and after the first place of a text in another. -/
def cutAt (t : List Char) : List Char → Option (List Char × List Char)
  | [] => none
  | c :: s => match after? t (c :: s) with
    | some r => some ([], r)
    | none => (cutAt t s).map fun (l, r) => (c :: l, r)

/-- The text before an ending, if it ends so. -/
def before? (ending s : List Char) : Option (List Char) :=
  if ending.isSuffixOf s then some (s.take (s.length - ending.length)) else none

end PoolSnapshot.Text
