import PoolSnapshot.Toml.Moment
import PoolSnapshot.Toml.Node
import PoolSnapshot.Toml.Number
import PoolSnapshot.Toml.Text

/-!
Values, and the keys before them. A table in braces stays on one line; a list may spread over several.
-/
namespace PoolSnapshot.Toml

open Reader

def isKeyChar (c : Char) : Bool := c.isAlphanum || c = '_' || c = '-'

def key : Reader String := do
  match ← span isKeyChar with
  | [] => Quote.short
  | cs => return String.ofList cs

/-- Keys joined by points, with blanks around each. -/
def keys : Nat → Reader (List String)
  | 0 => failure
  | n + 1 => do
    blanks
    let k ← key
    blanks
    if ← eat '.' then return k :: (← keys n) else return [k]

def leaf : Reader Node := do
  match ← get with
  | 't' :: 'r' :: 'u' :: 'e' :: s => set s; return .leaf (.bool true)
  | 'f' :: 'a' :: 'l' :: 's' :: 'e' :: s => set s; return .leaf (.bool false)
  | c :: _ =>
    if Quote.isMark c then return .leaf (.text (← Quote.any))
    else .moment <$> Moment.any <|> .leaf <$> Number.any
  | [] => failure

mutual

def value : Nat → Reader Node
  | 0 => failure
  | n + 1 => do
    match ← get with
    | '[' :: s => set s; .list <$> items n
    | '\x7B' :: s =>
      set s
      blanks
      if ← eat '\x7D' then return .table .braced []
      .table .braced <$> pairs n []
    | _ => leaf

def items : Nat → Reader (List Node)
  | 0 => failure
  | n + 1 => do
    gap
    if ← eat ']' then return []
    let v ← value n
    gap
    if ← eat ',' then return v :: (← items n)
    expect ']'
    return [v]

def pairs : Nat → Node.Entries → Reader Node.Entries
  | 0, _ => failure
  | n + 1, es => do
    let ks ← keys (n + 1)
    expect '='
    blanks
    let es ← StateT.lift (Node.assign (← value n) ks es)
    blanks
    if ← eat ',' then pairs n es
    else
      expect '\x7D'
      return es

end

end PoolSnapshot.Toml
