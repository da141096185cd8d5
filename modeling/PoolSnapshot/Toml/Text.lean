import PoolSnapshot.Hex
import PoolSnapshot.Toml.Reader

/-!
Quoted text. Between double quotes a backslash escapes; between single ones it stands for itself.
Tripled quotes hold several lines, and their first line end is dropped.
-/
namespace PoolSnapshot.Toml

open Reader

structure Quote where
  mark : Char
  long : Bool

namespace Quote

def isPlain (c : Char) : Bool := c = '\t' || (0x20 ≤ c.toNat && c.toNat ≠ 0x7F)

def escaped? : Char → Option Char
  | '"' => some '"'
  | '\\' => some '\\'
  | 'b' => some '\x08'
  | 'f' => some '\x0C'
  | 'n' => some '\n'
  | 'r' => some '\r'
  | 't' => some '\t'
  | _ => none

/-- The character of a code in so many digits; half of a pair is no character. -/
def scalar (n : Nat) : Reader Char := do
  let ds ← count n fun c => (Hex.value? c).isSome
  let v ← StateT.lift (Hex.toNat? ds)
  if v.isValidChar then return Char.ofNat v else failure

/-- In long text an escaped line end goes away with the gap around it. -/
def escape (long : Bool) : Reader (List Char) := do
  let c ← next
  if let some d := escaped? c then return [d]
  if c = 'u' then return [← scalar 4]
  if c = 'U' then return [← scalar 8]
  if !long then failure
  if isBlank c then
    blanks
    expect '\n'
  else if c ≠ '\n' then failure
  discard (span fun c => isBlank c || c = '\n')
  return []

/-- The mark before three closing ones belongs to the text, and so does the one before it. -/
def close (φ : Quote) : Reader (Option (List Char)) := fun s =>
  if !φ.long then some (some [], s)
  else match s with
    | a :: b :: s' =>
      if a = φ.mark ∧ b = φ.mark then
        let more := (s'.takeWhile (· = φ.mark)).take 2
        some (some more, s'.drop more.length)
      else some (none, s)
    | _ => some (none, s)

def body (φ : Quote) : Nat → Reader (List Char)
  | 0 => failure
  | n + 1 => do
    let c ← next
    if c = φ.mark then
      match ← φ.close with
      | some more => return more
      | none => return c :: (← φ.body n)
    else if c = '\\' && φ.mark = '"' then return (← escape φ.long) ++ (← φ.body n)
    else if isPlain c || (φ.long && c = '\n') then return c :: (← φ.body n)
    else failure

def text (φ : Quote) : Reader String := fun s =>
  (φ.body (s.length + 1) s).map fun (cs, s) => (String.ofList cs, s)

def isMark (c : Char) : Bool := c = '"' || c = '\x27'

def short : Reader String := do
  let c ← one isMark
  text ⟨c, false⟩

def any : Reader String := do
  let c ← one isMark
  match ← get with
  | a :: b :: s =>
    if a = c ∧ b = c then
      set s
      discard (eat '\n')
      text ⟨c, true⟩
    else text ⟨c, false⟩
  | _ => text ⟨c, false⟩

end Quote

end PoolSnapshot.Toml
