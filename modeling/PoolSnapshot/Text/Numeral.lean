import PoolSnapshot.Binary64

/-!
Numerals in plain text: digits with an optional sign, and decimals with a point or an exponent.
-/
namespace PoolSnapshot.Text

def digitsValue (ds : List Char) : Nat := ds.foldl (fun n c => n * 10 + (c.toNat - '0'.toNat)) 0

def digits? (ds : List Char) : Option Nat :=
  if ds.isEmpty || !ds.all Char.isDigit then none else some (digitsValue ds)

def natural? : List Char → Option Nat
  | '+' :: ds => digits? ds
  | ds => digits? ds

def integer? : List Char → Option Int
  | '-' :: ds => (digits? ds).map fun n => -Int.ofNat n
  | ds => (natural? ds).map Int.ofNat

def sign : List Char → Bool × List Char
  | '-' :: s => (true, s)
  | '+' :: s => (false, s)
  | s => (false, s)

def exponent? : List Char → Option Int
  | [] => some 0
  | 'e' :: s | 'E' :: s => integer? s
  | _ => none

/-- The digits before a point, those after it, and the rest. -/
def places (s : List Char) : List Char × List Char × List Char :=
  match s.dropWhile Char.isDigit with
  | '.' :: t => (s.takeWhile Char.isDigit, t.takeWhile Char.isDigit, t.dropWhile Char.isDigit)
  | t => (s.takeWhile Char.isDigit, [], t)

/-- A digit is needed before or after the point. -/
def real? (s : List Char) : Option Binary64 :=
  let (negative, s) := sign s
  match String.ofList (s.map Char.toLower) with
  | "inf" | "infinity" => some (.infinite negative)
  | "nan" => some .nan
  | _ =>
    let (whole, part, s) := places s
    if whole.isEmpty && part.isEmpty then none
    else (exponent? s).map fun e =>
      .ofDecimal negative (digitsValue (whole ++ part)) (e - Int.ofNat part.length)

end PoolSnapshot.Text
