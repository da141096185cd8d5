import PoolSnapshot.Text.Padded

/-!
Points in time as whole seconds since 1970, and the calendar date they fall on. Years are counted
from March, in cycles of 400 years, so that a leap day is the last day of its year.
-/
namespace PoolSnapshot

structure Date where
  year : Nat
  month : Nat
  day : Nat
  deriving DecidableEq

namespace Date

/-- Days from 1 March of year 0 to 1 January 1970. -/
def epoch : Nat := 719468

def ofDays (n : Nat) : Date :=
  let z := n + epoch
  let cycle := z / 146097
  let inCycle := z % 146097
  let century := min (inCycle / 36524) 3
  let inCentury := inCycle - 36524 * century
  let quad := inCentury / 1461
  let inQuad := inCentury % 1461
  let year := min (inQuad / 365) 3
  let inYear := inQuad - 365 * year
  let month := (5 * inYear + 2) / 153
  let year := 400 * cycle + 100 * century + 4 * quad + year
  { year := if month < 10 then year else year + 1
    month := if month < 10 then month + 3 else month - 9
    day := inYear - (153 * month + 2) / 5 + 1 }

/-- Four digits; a later year has a sign. -/
def yearText (y : Nat) : List Char :=
  if y < 10000 then Text.padded 4 y else '+' :: Text.padded 5 y

def text (d : Date) : List Char :=
  yearText d.year ++ '-' :: Text.padded 2 d.month ++ '-' :: Text.padded 2 d.day

end Date

structure Timestamp where
  seconds : Nat
  deriving DecidableEq, Inhabited

namespace Timestamp

def latest : Nat := 8210266876799

def text (t : Timestamp) : String :=
  let s := t.seconds % 86400
  String.ofList <|
    (Date.ofDays (t.seconds / 86400)).text ++ 'T' :: Text.padded 2 (s / 3600) ++
      ':' :: Text.padded 2 (s / 60 % 60) ++ ':' :: Text.padded 2 (s % 60) ++ ['Z']

end Timestamp

end PoolSnapshot
