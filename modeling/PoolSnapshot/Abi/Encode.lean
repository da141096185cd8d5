import PoolSnapshot.Abi.Value

/-!
Encoding of values. A sequence is written as heads followed by tails: a static value is its own
head, a dynamic one has the offset of its tail there.
-/
namespace PoolSnapshot.Abi

def word (n : Nat) : Bytes := Bytes.bigEndian 32 n

/-- Filled with zeros to a multiple of 32 bytes. -/
def padRight (b : Bytes) : Bytes := b ++ List.replicate ((32 - b.length % 32) % 32) 0

def counted (b : Bytes) : Bytes := word b.length ++ padRight b

/-- One value of a sequence: where it is stored, and its bytes. -/
structure Part where
  dynamic : Bool
  body : Bytes

namespace Part

def headSize (p : Part) : Nat := if p.dynamic then 32 else p.body.length

def heads : Nat → List Part → Bytes
  | _, [] => []
  | off, p :: ps =>
    if p.dynamic then word off ++ heads (off + p.body.length) ps else p.body ++ heads off ps

def tails : List Part → Bytes
  | [] => []
  | p :: ps => if p.dynamic then p.body ++ tails ps else tails ps

/-- Where the tails begin. -/
def headsSize : List Part → Nat
  | [] => 0
  | p :: ps => p.headSize + headsSize ps

def join (ps : List Part) : Bytes := heads (headsSize ps) ps ++ tails ps

end Part

namespace Value

mutual

def dynamic : Value → Bool
  | .bytes _ | .string _ | .array _ => true
  | .vector vs | .tuple vs => anyDynamic vs
  | _ => false

def anyDynamic : List Value → Bool
  | [] => false
  | v :: vs => v.dynamic || anyDynamic vs

end

mutual

def body : Value → Bytes
  | .address a => word a.toNat
  | .bool b => word b.toNat
  | .bytes b => counted b
  | .string s => counted (Bytes.ofText s)
  | .uint w | .int w => word w.toNat
  | .fixedBytes b => padRight b
  | .array vs => word vs.length ++ Part.join (parts vs)
  | .vector vs | .tuple vs => Part.join (parts vs)

def parts : List Value → List Part
  | [] => []
  | v :: vs => ⟨v.dynamic, v.body⟩ :: parts vs

end

end Value

def encode (vs : List Value) : Bytes := Part.join (Value.parts vs)

end PoolSnapshot.Abi
