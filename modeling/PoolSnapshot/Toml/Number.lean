import PoolSnapshot.Hex
import PoolSnapshot.Scalar
import PoolSnapshot.Text.Numeral
import PoolSnapshot.Toml.Reader

/-!
Numbers: whole ones in 64 bits with a sign, in four bases, and others as the nearest number of 53
significant bits. A low line may stand between two digits.
-/
namespace PoolSnapshot.Toml.Number

open Reader

def group (p : Char → Bool) : List Char → List Char × List Char
  | '_' :: c :: s =>
    if p c then
      let (ds, r) := group p s
      (c :: ds, r)
    else ([], '_' :: c :: s)
  | c :: s =>
    if p c then
      let (ds, r) := group p s
      (c :: ds, r)
    else ([], c :: s)
  | [] => ([], [])

def digits (p : Char → Bool) : Reader (List Char) := do
  return (← one p) :: (← fun s => some (group p s))

def bounded (n : Int) : Reader Scalar :=
  if -Int.pow 2 63 ≤ n ∧ n < Int.pow 2 63 then return .integer n else failure

def inBase (base : Nat) : Reader Scalar := do
  let ds ← digits fun c => ((Hex.value? c).filter (· < base)).isSome
  bounded (Int.ofNat (ds.foldl (fun n c => n * base + (Hex.value? c).getD 0) 0))

def exponent? : Reader (Option Int) := do
  match ← get with
  | 'e' :: s | 'E' :: s =>
    let (negative, s) := Text.sign s
    set s
    let n := Int.ofNat (Text.digitsValue (← digits Char.isDigit))
    return some (if negative then -n else n)
  | _ => return none

def decimal (negative : Bool) : Reader Scalar := do
  let whole ← digits Char.isDigit
  if whole.length ≠ 1 && whole.head? = some '0' then failure
  let places ← if ← eat '.' then some <$> digits Char.isDigit else pure none
  match places, ← exponent? with
  | none, none =>
    let n := Int.ofNat (Text.digitsValue whole)
    bounded (if negative then -n else n)
  | places, exponent =>
    let places := places.getD []
    let n := Text.digitsValue (whole ++ places)
    match Binary64.ofDecimal negative n (exponent.getD 0 - Int.ofNat places.length) with
    | .finite b m e => return .real (.finite b m e)
    | _ => failure

def any : Reader Scalar := do
  discard (eat '+')
  match ← get with
  | '0' :: 'x' :: s => set s; inBase 16
  | '0' :: 'o' :: s => set s; inBase 8
  | '0' :: 'b' :: s => set s; inBase 2
  | _ =>
    let negative ← eat '-'
    match ← get with
    | 'i' :: 'n' :: 'f' :: s => set s; return .real (.infinite negative)
    | 'n' :: 'a' :: 'n' :: s => set s; return .real .nan
    | _ => decimal negative

end PoolSnapshot.Toml.Number
