import PoolSnapshot.Word

/-!
Keccak-256. The state is five planes of five lanes; a message is padded to whole blocks of 136 bytes
and absorbed a block at a time.
-/
namespace PoolSnapshot.Keccak

structure Plane where
  (a b c d e : UInt64)

namespace Plane

def zero : Plane := ⟨0, 0, 0, 0, 0⟩

def xor (p q : Plane) : Plane :=
  ⟨p.a ^^^ q.a, p.b ^^^ q.b, p.c ^^^ q.c, p.d ^^^ q.d, p.e ^^^ q.e⟩

def chi (p : Plane) : Plane :=
  ⟨p.a ^^^ (~~~p.b &&& p.c), p.b ^^^ (~~~p.c &&& p.d), p.c ^^^ (~~~p.d &&& p.e),
    p.d ^^^ (~~~p.e &&& p.a), p.e ^^^ (~~~p.a &&& p.b)⟩

end Plane

def rotate (w n : UInt64) : UInt64 := (w <<< n) ||| (w >>> (64 - n))

structure State where
  (p q r s t : Plane)

namespace State

def zero : State := ⟨.zero, .zero, .zero, .zero, .zero⟩

def theta (σ : State) : State :=
  let c := σ.p.xor (σ.q.xor (σ.r.xor (σ.s.xor σ.t)))
  let d : Plane :=
    ⟨c.e ^^^ rotate c.b 1, c.a ^^^ rotate c.c 1, c.b ^^^ rotate c.d 1, c.c ^^^ rotate c.e 1,
      c.d ^^^ rotate c.a 1⟩
  ⟨σ.p.xor d, σ.q.xor d, σ.r.xor d, σ.s.xor d, σ.t.xor d⟩

/-- Each lane is turned by its own amount and moved to its new place. -/
def rhoPi (σ : State) : State :=
  ⟨⟨σ.p.a, rotate σ.q.b 44, rotate σ.r.c 43, rotate σ.s.d 21, rotate σ.t.e 14⟩,
    ⟨rotate σ.p.d 28, rotate σ.q.e 20, rotate σ.r.a 3, rotate σ.s.b 45, rotate σ.t.c 61⟩,
    ⟨rotate σ.p.b 1, rotate σ.q.c 6, rotate σ.r.d 25, rotate σ.s.e 8, rotate σ.t.a 18⟩,
    ⟨rotate σ.p.e 27, rotate σ.q.a 36, rotate σ.r.b 10, rotate σ.s.c 15, rotate σ.t.d 56⟩,
    ⟨rotate σ.p.c 62, rotate σ.q.d 55, rotate σ.r.e 39, rotate σ.s.a 41, rotate σ.t.b 2⟩⟩

def chi (σ : State) : State := ⟨σ.p.chi, σ.q.chi, σ.r.chi, σ.s.chi, σ.t.chi⟩

def iota (k : UInt64) (σ : State) : State := { σ with p := { σ.p with a := σ.p.a ^^^ k } }

def roundConstants : List UInt64 :=
  [0x0000000000000001, 0x0000000000008082, 0x800000000000808a, 0x8000000080008000,
    0x000000000000808b, 0x0000000080000001, 0x8000000080008081, 0x8000000000008009,
    0x000000000000008a, 0x0000000000000088, 0x0000000080008009, 0x000000008000000a,
    0x000000008000808b, 0x800000000000008b, 0x8000000000008089, 0x8000000000008003,
    0x8000000000008002, 0x8000000000000080, 0x000000000000800a, 0x800000008000000a,
    0x8000000080008081, 0x8000000000008080, 0x0000000080000001, 0x8000000080008008]

def permute (σ : State) : State :=
  roundConstants.foldl (fun σ k => (σ.theta.rhoPi.chi).iota k) σ

end State

/-- Eight bytes, least significant first. -/
def lane : Bytes → UInt64 → UInt64
  | [], _ => 0
  | b :: bs, n => (b.toUInt64 <<< n) ||| lane bs (n + 8)

def laneBytes (w : UInt64) : Nat → Bytes
  | 0 => []
  | n + 1 => w.toUInt8 :: laneBytes (w >>> 8) n

def lanes : Nat → Bytes → List UInt64
  | 0, _ => []
  | n + 1, b => lane (b.take 8) 0 :: lanes n (b.drop 8)

def rate : Nat := 136

def absorb (σ : State) (block : Bytes) : State :=
  match lanes 17 block with
  | [a₀, a₁, a₂, a₃, a₄, b₀, b₁, b₂, b₃, b₄, c₀, c₁, c₂, c₃, c₄, d₀, d₁] =>
    State.permute
      ⟨σ.p.xor ⟨a₀, a₁, a₂, a₃, a₄⟩, σ.q.xor ⟨b₀, b₁, b₂, b₃, b₄⟩, σ.r.xor ⟨c₀, c₁, c₂, c₃, c₄⟩,
        σ.s.xor ⟨d₀, d₁, 0, 0, 0⟩, σ.t⟩
  | _ => σ

def absorbBlocks : Nat → State → Bytes → State
  | 0, σ, _ => σ
  | n + 1, σ, m => absorbBlocks n (absorb σ (m.take rate)) (m.drop rate)

/-- A first bit and a last bit around zeros, sharing one byte when there is room for one only. -/
def padding : Nat → Bytes
  | 0 => []
  | 1 => [0x81]
  | n + 2 => 0x01 :: (List.replicate n 0 ++ [0x80])

def digest (m : Bytes) : Bytes :=
  let n := m.length / rate + 1
  let σ := absorbBlocks n .zero (m ++ padding (n * rate - m.length))
  [σ.p.a, σ.p.b, σ.p.c, σ.p.d].flatMap (laneBytes · 8)

@[simp] theorem length_laneBytes (w : UInt64) (n : Nat) : (laneBytes w n).length = n := by
  induction n generalizing w with
  | zero => rfl
  | succ n ih => simp [laneBytes, ih]

@[simp] theorem length_digest (m : Bytes) : (digest m).length = 32 := by simp [digest]

def hash (m : Bytes) : Hash := Hash.ofBytes (digest m)

end PoolSnapshot.Keccak
