import PoolSnapshot.Bytes

/-!
Hexadecimal text: lower case when written, either case when read.
-/
namespace PoolSnapshot.Hex

def ofByte (b : UInt8) : List Char :=
  [Nat.digitChar (b.toNat / 16), Nat.digitChar (b.toNat % 16)]

def digits (b : Bytes) : List Char := b.flatMap ofByte

def ofBytes (b : Bytes) : String := "0x" ++ String.ofList (digits b)

/-- The fewest digits of a number, so that zero is `0x0`. -/
def quantity (n : Nat) : String := "0x" ++ String.ofList (Nat.toDigits 16 n)

def value? (c : Char) : Option Nat :=
  if '0' ≤ c ∧ c ≤ '9' then some (c.toNat - '0'.toNat)
  else if 'a' ≤ c ∧ c ≤ 'f' then some (c.toNat - 'a'.toNat + 10)
  else if 'A' ≤ c ∧ c ≤ 'F' then some (c.toNat - 'A'.toNat + 10)
  else none

def pairs? : List Char → Option Bytes
  | [] => some []
  | h :: l :: s => return UInt8.ofNat ((← value? h) * 16 + (← value? l)) :: (← pairs? s)
  | [_] => none

def unmark : List Char → List Char
  | '0' :: 'x' :: s | '0' :: 'X' :: s => s
  | s => s

/-- The mark `0x` may be missing; an odd count of digits is refused. -/
def toBytes? (s : String) : Option Bytes := pairs? (unmark s.toList)

theorem value?_digitChar {n : Nat} (h : n < 16) : value? (Nat.digitChar n) = some n := by
  have table : ∀ n : Fin 16, value? (Nat.digitChar n) = some n.val := by decide
  exact table ⟨n, h⟩

theorem pairs?_digits (b : Bytes) : pairs? (digits b) = some b := by
  induction b with
  | nil => rfl
  | cons d b ih =>
    have lt := d.toNat_lt
    have high : value? (Nat.digitChar (d.toNat / 16)) = some (d.toNat / 16) :=
      value?_digitChar (by omega)
    have low : value? (Nat.digitChar (d.toNat % 16)) = some (d.toNat % 16) :=
      value?_digitChar (by omega)
    have byte : UInt8.ofNat (d.toNat / 16 * 16 + d.toNat % 16) = d := by
      rw [Nat.div_add_mod', UInt8.ofNat_toNat]
    rw [digits] at ih ⊢
    simp only [List.flatMap_cons, ofByte, List.cons_append, List.nil_append, pairs?, high, low, ih,
      Option.bind_eq_bind, Option.bind_some, byte]
    rfl

/-- Bytes are read back from their text. -/
@[simp] theorem toBytes?_ofBytes (b : Bytes) : toBytes? (ofBytes b) = some b := by
  simp [toBytes?, ofBytes, unmark, pairs?_digits]

def toNat? (s : List Char) : Option Nat :=
  if s.isEmpty then none
  else s.foldl (fun v c => return (← v) * 16 + (← value? c)) (some 0)

end PoolSnapshot.Hex
