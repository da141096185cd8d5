import PoolSnapshot.Abi.Function

/-!
Scripted answers: what a call is answered with, written as a plain value of the function's output
type, as raw bytes, as a failure, or as a rule on the call's last number or on the block.
-/
namespace PoolSnapshot.Peer

open Abi (Function Ty Value)

inductive Plain where
  | number (n : Nat)
  | flag (b : Bool)
  | text (s : String)

inductive Answer where
  | nothing
  | fail (data : Bytes)
  | raw (data : Bytes)
  | plain (p : Plain)
  | list (items : List Answer)
  | eras (items : List (Nat × Answer))
  | scaled (mul div : Nat)

/-- A call as the functions of a script know it. -/
structure Asked where
  target : Address
  function : Function
  args : List Value

namespace Asked

def argText : Value → String
  | .address a => a.text
  | .uint w | .int w => w.decimal
  | .bytes b | .fixedBytes b => Hex.ofBytes b
  | .string s => s
  | .bool b => if b then "true" else "false"
  | v => v.body |> Hex.ofBytes

def args? (q : Asked) : String := "(" ++ ",".intercalate (q.args.map argText) ++ ")"

def text (q : Asked) : String := s!"{q.target.text}.{q.function.name}" ++ q.args?

/-- From the most to the least particular. -/
def keys (q : Asked) : List String :=
  let m := q.function.name
  [q.text, m ++ q.args?, s!"{q.target.text}.{m}", m]

/-- The last argument that is a number. -/
def number? (q : Asked) : Option Nat :=
  q.args.reverse.findSome? fun
    | .uint w => some w.toNat
    | _ => none

end Asked

namespace Plain

def natOf : List Char → Option Nat
  | '0' :: 'x' :: ds => Hex.toNat? ds
  | ds =>
    if ds.isEmpty || !ds.all Char.isDigit then none
    else some (ds.foldl (fun n c => n * 10 + (c.toNat - '0'.toNat)) 0)

def value? : Plain → Ty → Option Value
  | .number n, .uint _ => some (.uint (BitVec.ofNat 256 n))
  | .text s, .uint _ => (natOf s.toList).map fun n => .uint (BitVec.ofNat 256 n)
  | .flag b, .bool => some (.bool b)
  | .text s, .address => (Hex.toBytes? s).map fun b => .address (Address.ofBytes b)
  | .text s, .bytes => (Hex.toBytes? s).map .bytes
  | .text s, .fixedBytes _ => (Hex.toBytes? s).map .fixedBytes
  | .text s, .string => some (.string s)
  | _, _ => none

end Plain

namespace Answer

def failure (data : Bytes) : Bool × Bytes := (false, data)

/-- The value of the last era that has begun. -/
def era (block : Nat) (items : List (Nat × Bool × Bytes)) : Bool × Bytes :=
  match (items.filter (·.1 ≤ block)).getLast? with
  | some (_, r) => r
  | none => failure []

mutual

def resolve (q : Asked) (block : Nat) : Answer → Bool × Bytes
  | .nothing => failure []
  | .fail data => failure data
  | .raw data => (true, data)
  | .plain p =>
    match q.function.outputs.head?.bind p.value? with
    | some v => (true, Abi.encode [v])
    | none => failure []
  | .scaled mul div =>
    match q.number? with
    | some n => (true, Abi.encode [.uint (BitVec.ofNat 256 (n * mul / div))])
    | none => failure []
  | .list items =>
    match q.number? with
    | some i => (resolveAll q block items).getD i (failure [])
    | none => failure []
  | .eras items => era block (resolveEras q block items)

def resolveAll (q : Asked) (block : Nat) : List Answer → List (Bool × Bytes)
  | [] => []
  | a :: as => a.resolve q block :: resolveAll q block as

def resolveEras (q : Asked) (block : Nat) : List (Nat × Answer) → List (Nat × Bool × Bytes)
  | [] => []
  | (n, a) :: as => (n, a.resolve q block) :: resolveEras q block as

end

end Answer

end PoolSnapshot.Peer
