/-!
Decimal numbers filled up with zeros, and fractions without their last zeros.
-/
namespace PoolSnapshot.Text

def padded (width n : Nat) : List Char :=
  let ds := Nat.toDigits 10 n
  List.replicate (width - ds.length) '0' ++ ds

def trimZeros (s : List Char) : List Char := (s.reverse.dropWhile (· = '0')).reverse

/-- The part after the point of `n / 10 ^ places`, with its point, or nothing. -/
def fraction (places n : Nat) : List Char :=
  match trimZeros (padded places n) with
  | [] => []
  | ds => if n = 0 then [] else '.' :: ds

end PoolSnapshot.Text
