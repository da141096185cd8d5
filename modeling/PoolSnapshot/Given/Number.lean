import PoolSnapshot.Given
import PoolSnapshot.Text.Numeral

/-!
Given numbers, from the digits they are written with. One that is not whole, or takes more than
64 bits, is read in rounded steps and need not be the one nearest to its digits.
-/
namespace PoolSnapshot.Given

/-- Appends digits to `n` while that stays below `2 ^ 64`, and counts those from there on. -/
def significand : Nat → List Char → Nat × Nat
  | n, [] => (n, 0)
  | n, c :: s =>
    let m := n * 10 + Text.digitsValue [c]
    if m < Nat.pow 2 64 then significand m s else (n, s.length + 1)

/-- Moves the point of `x` by `e` places, at most 308 of them to the left at once. -/
def scaled : Nat → Binary64 → Int → Binary64
  | n + 1, .finite σ (m + 1) f, e =>
    let x : Binary64 := .finite σ (m + 1) f
    if 0 ≤ e then x.times (.ofDecimal false 1 e)
    else if -308 ≤ e then x.dividedBy (.ofDecimal false 1 (-e))
    else scaled n (x.dividedBy (.ofDecimal false 1 308)) (e + 308)
  | _, x, _ => x

/-- Of 64 bits three steps leave nothing. -/
def real? (s : List Char) : Option Binary64 :=
  let (negative, s) := Text.sign s
  let (whole, part, s) := Text.places s
  let (n, more) := significand 0 whole
  let (n, less) := significand n part
  (Text.exponent? s).map fun e =>
    scaled 3 (.ofRatio negative n 1) (e + Int.ofNat (more + less) - Int.ofNat part.length)

/-- Zero with a sign is not whole. -/
def whole? (s : List Char) : Option Int :=
  (Text.integer? s).filter fun n => -Int.pow 2 63 ≤ n && n < Int.pow 2 64 && (n ≠ 0 || s.head? ≠ some '-')

def number? (s : List Char) : Option Given :=
  match whole? s with
  | some n => some (.scalar (.integer n))
  | none => (real? s).map fun x => .scalar (.real x)

end PoolSnapshot.Given
