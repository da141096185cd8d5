import PoolSnapshot.Text.Padded

/-!
Numbers with 53 significant bits: the nearest one to a decimal, the whole number nearest to it, and
the fewest digits that read back as it.
-/
namespace PoolSnapshot

/-- A finite number is `mantissa * 2 ^ exponent`. The mantissa is below `2 ^ 53`, and not below
`2 ^ 52` unless the exponent is the least one. -/
inductive Binary64 where
  | nan
  | infinite (negative : Bool)
  | finite (negative : Bool) (mantissa : Nat) (exponent : Int)
  deriving DecidableEq

namespace Binary64

def leastExponent : Int := -1074

def greatestExponent : Int := 971

/-- The fraction `n / d` divided by `2 ^ e`. -/
def shifted (n d : Nat) (e : Int) : Nat × Nat := (n * Nat.pow 2 (-e).toNat, d * Nat.pow 2 e.toNat)

/-- The nearest whole number, of two the even one. -/
def divRound (n d : Nat) : Nat :=
  let q := n / d
  let r := 2 * (n % d)
  if r < d || (r = d && q % 2 = 0) then q else q + 1

/-- The exponent that leaves 53 bits before the point, or the least one. -/
def exponentOf (n d : Nat) : Int :=
  let e : Int := Int.ofNat n.log2 - Int.ofNat d.log2 - 52
  let (a, b) := shifted n d e
  max leastExponent (if a / b < Nat.pow 2 52 then e - 1 else e)

def ofRatio (negative : Bool) (n d : Nat) : Binary64 :=
  if n = 0 then .finite negative 0 leastExponent
  else
    let e := exponentOf n d
    let (a, b) := shifted n d e
    let m := divRound a b
    let (m, e) := if m = Nat.pow 2 53 then (Nat.pow 2 52, e + 1) else (m, e)
    if e > greatestExponent then .infinite negative else .finite negative m e

/-- The number nearest to `digits * 10 ^ exponent`. -/
def ofDecimal (negative : Bool) (digits : Nat) (exponent : Int) : Binary64 :=
  let size : Int := Int.ofNat (Nat.toDigits 10 digits).length
  if digits = 0 || size + exponent < -400 then ofRatio negative 0 1
  else if exponent > 400 then .infinite negative
  else ofRatio negative (digits * Nat.pow 10 exponent.toNat) (Nat.pow 10 (-exponent).toNat)

/-- The nearest whole number in 64 bits: halves go up, and what lies outside goes to the nearer end. -/
def toWhole : Binary64 → Nat
  | .nan => 0
  | .infinite negative => if negative then 0 else Nat.pow 2 64 - 1
  | .finite negative m e =>
    if negative then 0
    else
      let (a, b) := shifted m 1 (-e)
      min (Nat.pow 2 64 - 1) ((2 * a + b) / (2 * b))

def times : Binary64 → Binary64 → Binary64
  | .finite σ m e, .finite τ n f =>
    let (a, b) := shifted (m * n) 1 (-(e + f))
    ofRatio (σ != τ) a b
  | .finite σ m _, .infinite τ | .infinite τ, .finite σ m _ =>
    if m = 0 then .nan else .infinite (σ != τ)
  | .infinite σ, .infinite τ => .infinite (σ != τ)
  | _, _ => .nan

def dividedBy : Binary64 → Binary64 → Binary64
  | .finite σ m e, .finite τ n f =>
    if n = 0 then (if m = 0 then .nan else .infinite (σ != τ))
    else
      let (a, b) := shifted m n (f - e)
      ofRatio (σ != τ) a b
  | .infinite σ, .finite τ .. => .infinite (σ != τ)
  | .finite σ .., .infinite τ => ofRatio (σ != τ) 0 1
  | _, _ => .nan

/-- The multiple of `10 ^ p` that reads back as `m * 2 ^ e`, of two the nearer, and of two at one
distance the larger or, if `even`, the even one. The bounds of what reads back are counted in
quarters of `2 ^ e`. -/
def onGrid? (even : Bool) (m : Nat) (e p : Int) : Option Nat :=
  let low := if m = Nat.pow 2 52 && leastExponent < e then 4 * m - 1 else 4 * m - 2
  let high := 4 * m + 2
  let quarter := Nat.pow 2 (e - 2).toNat * Nat.pow 10 (-p).toNat
  let step := Nat.pow 2 (2 - e).toNat * Nat.pow 10 p.toNat
  let readsBack (c : Nat) : Bool :=
    if m % 2 = 0 then low * quarter ≤ c * step && c * step ≤ high * quarter
    else low * quarter < c * step && c * step < high * quarter
  let c := 4 * m * quarter / step
  let down := readsBack c
  let up := readsBack (c + 1)
  let rest := 2 * (4 * m * quarter - c * step)
  if down && (!up || rest < step || (even && rest = step && c % 2 = 0)) then some c
  else if up then some (c + 1)
  else none

/-- The exponents of the grids on which every number is found, the coarsest first. -/
def grids : List Int := (List.range 660).map fun i => 309 - Int.ofNat i

def shortest? (even : Bool) (m : Nat) (e : Int) : Option (Nat × Int) :=
  grids.findSome? fun p => (onGrid? even m e p).map (·, p)

/-- Writes `c * 10 ^ p` without an exponent. -/
def positional (c : Nat) (p : Int) : List Char :=
  let places := (-p).toNat
  Nat.toDigits 10 (c * Nat.pow 10 p.toNat / Nat.pow 10 places) ++
    Text.fraction places (c % Nat.pow 10 places)

def text : Binary64 → String
  | .nan => "NaN"
  | .infinite negative => if negative then "-inf" else "inf"
  | .finite negative m e =>
    let digits := match shortest? false m e with
      | some (c, p) => positional c p
      | none => ['0']
    String.ofList (if negative then '-' :: digits else digits)

def signed (n : Int) : List Char :=
  if n < 0 then (toString n).toList else '+' :: (toString n).toList

/-- Writes `c * 10 ^ p`, with an exponent unless the point is near the digits. -/
def pointed (c : Nat) (p : Int) : List Char :=
  let digits := Nat.toDigits 10 c
  let point := Int.ofNat digits.length + p
  if c = 0 then ['0', '.', '0']
  else if 0 ≤ p && point ≤ 16 then positional c p ++ ['.', '0']
  else if -5 < point && point ≤ 16 then positional c p
  else digits.take 1 ++ (if digits.length = 1 then [] else '.' :: digits.drop 1) ++
    'e' :: signed (point - 1)

def compact : Binary64 → String
  | .finite negative m e =>
    let digits := match shortest? true m e with
      | some (c, p) => pointed c p
      | none => pointed 0 0
    String.ofList (if negative then '-' :: digits else digits)
  | x => x.text

end Binary64

end PoolSnapshot
