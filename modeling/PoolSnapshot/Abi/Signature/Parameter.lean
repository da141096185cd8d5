import PoolSnapshot.Abi.Signature.Name
import PoolSnapshot.Abi.Signature.Token
import PoolSnapshot.Abi.Ty

/-!
Types of parameters: a word or a list in parentheses, and any number of brackets.
-/
namespace PoolSnapshot.Abi.Signature.Parameter

open Lexer

/-- Widths in bits are whole bytes and spelled without zeros in front. -/
def width? (s : List Char) : Option Nat :=
  (Text.digits? s).filter fun n => n % 8 = 0 && 0 < n && n ≤ 256 && toString n = String.ofList s

def bytes? (s : List Char) : Option Nat :=
  (Text.digits? s).filter fun n => 0 < n && n ≤ 32 && toString n = String.ofList s

def word? (s : List Char) : Option Ty :=
  match String.ofList s with
  | "address" => some .address
  | "bool" => some .bool
  | "byte" => some (.fixedBytes 1)
  | "bytes" => some .bytes
  | "int" => some (.int 256)
  | "string" => some .string
  | "tuple" => some (.tuple [])
  | "uint" => some (.uint 256)
  | _ =>
    match s with
    | 'i' :: 'n' :: 't' :: n => (width? n).map .int
    | 'u' :: 'i' :: 'n' :: 't' :: n => (width? n).map .uint
    | 'b' :: 'y' :: 't' :: 'e' :: 's' :: n => (bytes? n).map .fixedBytes
    | _ => none

/-- How a type starts: with a word for it, or with a list of types. -/
def opening? : Token → Option (Option Ty)
  | .word s => (word? s).map some
  | .mark '(' => some none
  | _ => none

/-- The number of items in brackets, or nothing before they close. -/
def extent? : Token → Option (Option (List Char))
  | .number ds => some (some ds)
  | .mark ']' => some none
  | _ => none

/-- Whether a list of types goes on. -/
def more? : Token → Option Bool
  | .mark ',' => some true
  | .mark ')' => some false
  | _ => none

def brackets : Nat → Ty → Lexer Ty
  | 0, _ => throw .ended
  | n + 1, t => do
    if (← peek) = some (.mark '[') then
      expect '['
      match ← take extent? with
      | none => brackets n (.array t)
      | some ds =>
        let some k := size? ds | throw .oversized
        expect ']'
        brackets n (.vector t k)
    else return t

mutual

def ty : Nat → Lexer Ty
  | 0 => throw .ended
  | n + 1 => do
    match ← take opening? with
    | some t => brackets n t
    | none =>
      if (← peek) = some (.mark ')') then
        expect ')'
        brackets n (.tuple [])
      else brackets n (.tuple (← members n))

/-- The types up to the closing parenthesis. -/
def members : Nat → Lexer (List Ty)
  | 0 => throw .ended
  | n + 1 => do
    let t ← ty n
    if ← take more? then return t :: (← members n) else return [t]

end

def read (s : List Char) : Except Fault Ty := (ty (3 * s.length + 3)).run' ⟨0, s⟩

end PoolSnapshot.Abi.Signature.Parameter
