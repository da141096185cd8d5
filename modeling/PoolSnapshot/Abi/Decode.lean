import PoolSnapshot.Abi.Value
import PoolSnapshot.Text.Lossy

/-!
Decoding of values. A reader looks at words and byte runs at offsets into the bytes it was given,
which may go on after the last byte it looks at and may be looked at twice.
-/
namespace PoolSnapshot.Abi

def bytesAt (data : Bytes) (off size : Nat) : Option Bytes :=
  let b := (data.drop off).take size
  if b.length = size then some b else none

def wordAt (data : Bytes) (off : Nat) : Option Nat :=
  (bytesAt data off 32).map Bytes.ofBigEndian

/-- An offset or a length, which has 32 bits. -/
def sizeAt (data : Bytes) (off : Nat) : Option Nat := do
  let n ← wordAt data off
  if n < Nat.pow 2 32 then some n else none

def countedAt (data : Bytes) (off : Nat) : Option Bytes := do
  let start ← sizeAt data off
  let size ← sizeAt data start
  bytesAt data (start + 32) size

/-- Reads one after another, each from the offset that the one before it ended at. -/
def many {α : Type} (f : Nat → Option (α × Nat)) : Nat → Nat → Option (List α × Nat)
  | 0, off => some ([], off)
  | n + 1, off => do
    let (v, off) ← f off
    let (vs, off) ← many f n off
    return (v :: vs, off)

/-- The bytes that hold a group: those at an offset for a dynamic one, else those at hand. -/
def group (dynamic : Bool) (data : Bytes) (off : Nat) : Option (Bytes × Nat) :=
  if dynamic then do
    let start ← sizeAt data off
    if start ≤ data.length then some (data.drop start, 0) else none
  else some (data, off)

namespace Ty

mutual

def decode : Ty → Bytes → Nat → Option (Value × Nat)
  | .address, data, off => do return (.address (BitVec.ofNat 160 (← wordAt data off)), off + 32)
  | .uint _, data, off => do return (.uint (BitVec.ofNat 256 (← wordAt data off)), off + 32)
  | .int _, data, off => do return (.int (BitVec.ofNat 256 (← wordAt data off)), off + 32)
  | .bool, data, off => do
    let n ← wordAt data off
    if n < 256 then some (.bool (n = 1), off + 32) else none
  | .fixedBytes n, data, off => do return (.fixedBytes (← bytesAt data off n), off + 32)
  | .bytes, data, off => do return (.bytes (← countedAt data off), off + 32)
  | .string, data, off => do return (.string (Text.lossy (← countedAt data off)), off + 32)
  | .array t, data, off => do
    let start ← sizeAt data off
    let n ← sizeAt data start
    let (vs, _) ← many (t.decode (data.drop (start + 32))) n 0
    return (.array vs, off + 32)
  | .vector t n, data, off => do
    let (inner, first) ← group t.dynamic data off
    let (vs, last) ← many (t.decode inner) n first
    return (.vector vs, if t.dynamic then off + 32 else last)
  | .tuple ts, data, off => do
    let (inner, first) ← group (anyDynamic ts) data off
    let (vs, last) ← decodeEach ts inner first
    return (.tuple vs, if anyDynamic ts then off + 32 else last)

def decodeEach : List Ty → Bytes → Nat → Option (List Value × Nat)
  | [], _, off => some ([], off)
  | t :: ts, data, off => do
    let (v, off) ← t.decode data off
    let (vs, off) ← decodeEach ts data off
    return (v :: vs, off)

end

end Ty

inductive DecodeError where
  | noData
  | invalid
  deriving DecidableEq

namespace DecodeError

def message : DecodeError → String
  | noData =>
    "Invalid name: please ensure the contract and method you're calling exist! " ++
    "failed to decode empty bytes. if you're using jsonrpc this is likely due to jsonrpc " ++
    "returning `0x` in case contract or method don't exist"
  | invalid => "Invalid data"

end DecodeError

def decode (ts : List Ty) (data : Bytes) : Except DecodeError (List Value) :=
  if data.isEmpty && !ts.all Ty.isVoid then .error .noData
  else match Ty.decodeEach ts data 0 with
    | some (vs, _) => .ok vs
    | none => .error .invalid

end PoolSnapshot.Abi
