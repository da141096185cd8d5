/-!
Reading from the front of a text: each reader takes what it can and leaves the rest, or fails.
-/
namespace PoolSnapshot.Toml

abbrev Reader := StateT (List Char) Option

namespace Reader

def next : Reader Char
  | [] => none
  | c :: s => some (c, s)

def one (p : Char → Bool) : Reader Char
  | [] => none
  | c :: s => if p c then some (c, s) else none

def expect (c : Char) : Reader Unit := discard (one (· = c))

def eat (c : Char) : Reader Bool
  | [] => some (false, [])
  | d :: s => some (if d = c then (true, s) else (false, d :: s))

def span (p : Char → Bool) : Reader (List Char) := fun s => some (s.span p)

def count : Nat → (Char → Bool) → Reader (List Char)
  | 0, _ => return []
  | n + 1, p => return (← one p) :: (← count n p)

def isBlank (c : Char) : Bool := c = ' ' || c = '\t'

def blanks : Reader Unit := discard (span isBlank)

/-- Comments hold any character that shows, and tabs. -/
def isRemark (c : Char) : Bool := c = '\t' || 0x20 ≤ c.toNat

/-- Skips blanks, line ends and comments. -/
def gapFrom (remark : Bool) : List Char → Option (List Char)
  | [] => some []
  | c :: s =>
    if remark then
      if c = '\n' then gapFrom false s else if isRemark c then gapFrom true s else none
    else if c = '#' then gapFrom true s
    else if isBlank c || c = '\n' then gapFrom false s
    else some (c :: s)

def gap : Reader Unit := fun s => (gapFrom false s).map ((), ·)

/-- Nothing but a comment may follow on the line. -/
def lineEnd : Reader Unit := do
  blanks
  match ← get with
  | [] | '\n' :: _ | '#' :: _ => return ()
  | _ => failure

end Reader

end PoolSnapshot.Toml
