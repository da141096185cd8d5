import PoolSnapshot.Text.Numeral
import PoolSnapshot.Toml.Reader

/-!
Dates and times, read as their usual text: a `T` between date and time, a `Z` for no offset, and no
zeros at the end of a fraction. A time of day alone has no offset.
-/
namespace PoolSnapshot.Toml.Moment

open Reader

def isWithin (lo hi : Nat) (ds : List Char) : Bool :=
  let n := Text.digitsValue ds
  lo ≤ n && n ≤ hi

def two (lo hi : Nat) : Reader (List Char) := do
  let ds ← count 2 Char.isDigit
  if isWithin lo hi ds then return ds else failure

def date : Reader (List Char) := do
  let year ← count 4 Char.isDigit
  expect '-'
  let month ← two 1 12
  expect '-'
  let day ← two 1 31
  return year ++ '-' :: month ++ '-' :: day

/-- Nine places count. -/
def fraction : Reader (List Char) := do
  if ← eat '.' then
    let ds ← span Char.isDigit
    if ds.isEmpty then failure
    match Text.trimZeros (ds.take 9) with
    | [] => return []
    | ds => return '.' :: ds
  else return []

def time : Reader (List Char) := do
  let hour ← two 0 24
  expect ':'
  let minute ← two 0 59
  expect ':'
  let second ← two 0 59
  return hour ++ ':' :: minute ++ ':' :: second ++ (← fraction)

/-- Less than an hour behind is written as ahead. -/
def offset : Reader (List Char) := do
  match ← get with
  | 'Z' :: s | 'z' :: s => set s; return ['Z']
  | '+' :: s | '-' :: s =>
    let behind := (← get).head? = some '-'
    set s
    let hours ← count 2 Char.isDigit
    expect ':'
    let minutes ← count 2 Char.isDigit
    let sign := if behind && hours ≠ ['0', '0'] then '-' else '+'
    return sign :: hours ++ ':' :: minutes
  | _ => return []

def timeFollows : List Char → Bool
  | 'T' :: _ | 't' :: _ => true
  | ' ' :: c :: _ => c.isDigit
  | _ => false

def dated : Reader (List Char) := do
  let day ← date
  if timeFollows (← get) then
    discard next
    return day ++ 'T' :: (← time) ++ (← offset)
  else return day

def any : Reader String := String.ofList <$> (dated <|> time)

/-- The moment that a whole text is. -/
def ofText? (s : String) : Option String :=
  match any s.toList with
  | some (m, []) => some m
  | _ => none

end PoolSnapshot.Toml.Moment
