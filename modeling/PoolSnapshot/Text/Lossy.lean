import PoolSnapshot.Bytes

/-!
UTF-8 read without failing: the longest start of a character that cannot be completed reads as one
replacement character.
-/
namespace PoolSnapshot.Text

def replacement : Char := '\uFFFD'

def isTail (b : UInt8) : Bool := 0x80 ≤ b && b ≤ 0xBF

/-- The bytes that may follow a lead byte of three. -/
def isSecond₃ (a b : UInt8) : Bool :=
  if a = 0xE0 then 0xA0 ≤ b && b ≤ 0xBF
  else if a = 0xED then 0x80 ≤ b && b ≤ 0x9F
  else isTail b

/-- The bytes that may follow a lead byte of four. -/
def isSecond₄ (a b : UInt8) : Bool :=
  if a = 0xF0 then 0x90 ≤ b && b ≤ 0xBF
  else if a = 0xF4 then 0x80 ≤ b && b ≤ 0x8F
  else isTail b

def scalar (lead : Nat) (tail : Bytes) : Char :=
  Char.ofNat (tail.foldl (fun v b => v * 64 + b.toNat % 64) lead)

def lossyChars : Bytes → List Char
  | [] => []
  | a :: s =>
    if a < 0x80 then Char.ofNat a.toNat :: lossyChars s
    else if 0xC2 ≤ a && a ≤ 0xDF then
      match s with
      | b :: s' =>
        if isTail b then scalar (a.toNat % 32) [b] :: lossyChars s'
        else replacement :: lossyChars (b :: s')
      | [] => [replacement]
    else if 0xE0 ≤ a && a ≤ 0xEF then
      match s with
      | b :: c :: s' =>
        if isSecond₃ a b then
          if isTail c then scalar (a.toNat % 16) [b, c] :: lossyChars s'
          else replacement :: lossyChars (c :: s')
        else replacement :: lossyChars (b :: c :: s')
      | [b] => if isSecond₃ a b then [replacement] else replacement :: lossyChars [b]
      | [] => [replacement]
    else if 0xF0 ≤ a && a ≤ 0xF4 then
      match s with
      | b :: c :: d :: s' =>
        if isSecond₄ a b then
          if isTail c then
            if isTail d then scalar (a.toNat % 8) [b, c, d] :: lossyChars s'
            else replacement :: lossyChars (d :: s')
          else replacement :: lossyChars (c :: d :: s')
        else replacement :: lossyChars (b :: c :: d :: s')
      | [b, c] =>
        if isSecond₄ a b then
          if isTail c then [replacement] else replacement :: lossyChars [c]
        else replacement :: lossyChars [b, c]
      | [b] => if isSecond₄ a b then [replacement] else replacement :: lossyChars [b]
      | [] => [replacement]
    else replacement :: lossyChars s

def lossy (b : Bytes) : String := String.ofList (lossyChars b)

end PoolSnapshot.Text
