import PoolSnapshot.Abi.Signature.Fault
import PoolSnapshot.Text.Blank
import PoolSnapshot.Text.Initial
import PoolSnapshot.Text.Inner

/-!
Tokens that types are spelled with. Each is read only when it is asked for, so behind a type no more
than the next token has to be one. Places are counted in bytes.
-/
namespace PoolSnapshot.Abi.Signature

inductive Token where
  | word (s : List Char)
  | number (s : List Char)
  | hex (s : List Char)
  | mark (c : Char)
  deriving DecidableEq

namespace Token

def text : Token → List Char
  | .word s | .number s | .hex s => s
  | .mark c => [c]

def startsWord (c : Char) : Bool := c = '_' || Text.isInitial c

def inWord (c : Char) : Bool := c = '$' || Text.isInitial c || Text.isInner c

def isHexDigit (c : Char) : Bool := c.isDigit || ('a' ≤ c && c ≤ 'f') || ('A' ≤ c && c ≤ 'F')

def isMark (c : Char) : Bool := ['(', ')', ',', '.', ';', '[', ']'].contains c

def width (s : List Char) : Nat := s.foldl (· + ·.utf8Size) 0

/-- Some types have another name in reports. -/
def shownWord : String → String
  | "uint" => "uint256"
  | "int" => "int256"
  | "bytes1" => "byte"
  | s => s

/-- How a report writes a token. A hexadecimal has one mark more there. -/
def shown : Token → String
  | .word s => shownWord (String.ofList s)
  | .hex s => "0x" ++ String.ofList s
  | τ => String.ofList τ.text

/-- Where a report says that a token ends. For a number that is one place further. -/
def stop (start : Nat) : Token → Nat
  | .number s => start + width s + 1
  | τ => start + width τ.text

/-- The token at the front of a text, where no blank is. -/
def read (start : Nat) : List Char → Except Fault Token
  | [] => .error .ended
  | ['0', 'x'] => .error (.noDigitLeft start (start + 2))
  | '0' :: 'x' :: c :: s =>
    if isHexDigit c then
      .ok (.hex ('0' :: 'x' :: c :: s.takeWhile fun c => isHexDigit c || c = '_'))
    else .error (.noDigit start (start + 1))
  | c :: s =>
    if startsWord c then .ok (.word (c :: s.takeWhile inWord))
    else if c.isDigit then .ok (.number (c :: s.takeWhile Char.isDigit))
    else if isMark c then .ok (.mark c)
    else
      let t := c :: s.takeWhile (!Text.isBlank ·)
      .error (.misplaced start (start + width t) (String.ofList t))

end Token

/-- What is left of a text, and the place where it starts. -/
structure Rest where
  start : Nat
  text : List Char

def Rest.drop (n : Nat) (ρ : Rest) : Rest :=
  ⟨ρ.start + Token.width (ρ.text.take n), ρ.text.drop n⟩

def Rest.skip (ρ : Rest) : Rest := ρ.drop (ρ.text.takeWhile Text.isBlank).length

abbrev Lexer := StateT Rest (Except Fault)

namespace Lexer

def peek : Lexer (Option Token) := do
  modify Rest.skip
  let ρ ← get
  if ρ.text.isEmpty then return none else return some (← Token.read ρ.start ρ.text)

/-- Takes the next token, if it has a use. -/
def take {α : Type} (use : Token → Option α) : Lexer α := do
  modify Rest.skip
  let ρ ← get
  let τ ← Token.read ρ.start ρ.text
  set (ρ.drop τ.text.length)
  match use τ with
  | some a => return a
  | none => throw (.misplaced ρ.start (τ.stop ρ.start) τ.shown)

/-- Takes a certain mark. What is no token at all is reported as the lack of it. -/
def expect (c : Char) : Lexer Unit := do
  modify Rest.skip
  let ρ ← get
  match Token.read ρ.start ρ.text with
  | .ok _ => take fun τ => if τ = .mark c then some () else none
  | .error .ended => throw (.endedBefore c.toString)
  | .error (.misplaced i j _) => throw (.noToken i j c.toString)
  | .error ε => throw ε

end Lexer

end PoolSnapshot.Abi.Signature
