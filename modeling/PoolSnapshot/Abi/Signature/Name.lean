import PoolSnapshot.Abi.Signature.Fault
import PoolSnapshot.Text.Blank
import PoolSnapshot.Text.Numeral
import PoolSnapshot.Text.Split

/-!
Names and sizes, as they stand at the front of what is left of a line.
-/
namespace PoolSnapshot.Abi.Signature

def isSpace (c : Char) : Bool := c = ' ' || c = '\t'

def isLetter (c : Char) : Bool := c.isAlpha || c = '_'

def isNameChar (c : Char) : Bool := isLetter c || c.isDigit

/-- A name and what follows it. -/
def takeName (s : List Char) : Except Fault (String × List Char) :=
  match s.dropWhile Text.isBlank with
  | [] => .error (.nothingToName (String.ofList s))
  | c :: t =>
    if isLetter c then .ok (String.ofList (c :: t.takeWhile isNameChar), t.dropWhile isNameChar)
    else .error (.noName (String.ofList s))

/-- What follows a keyword and begins with a space. -/
def keyword? (k : String) (line : List Char) : Option (List Char) :=
  (Text.after? k.toList line).filter (·.head? = some ' ')

/-- Sizes have 64 bits. -/
def size? (s : List Char) : Option Nat := (Text.natural? s).filter (· < Nat.pow 2 64)

end PoolSnapshot.Abi.Signature
