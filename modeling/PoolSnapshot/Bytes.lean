/-!
Byte strings, most significant byte first. `ofBigEndian` reads back what `bigEndian` wrote, up to
the digits that were cut off.
-/
namespace PoolSnapshot

abbrev Bytes := List UInt8

namespace Bytes

/-- The last `n` base-256 digits of a number. -/
def bigEndian : Nat → Nat → Bytes
  | 0, _ => []
  | n + 1, v => UInt8.ofNat (v / Nat.pow 256 n) :: bigEndian n v

def ofBigEndian (b : Bytes) : Nat := b.foldl (fun v d => v * 256 + d.toNat) 0

def ofText (s : String) : Bytes := s.toUTF8.toList

@[simp] theorem length_bigEndian (n v : Nat) : (bigEndian n v).length = n := by
  induction n with
  | zero => rfl
  | succ n ih => simp [bigEndian, ih]

theorem ofBigEndian_append (a b : Bytes) :
    ofBigEndian (a ++ b) = ofBigEndian a * Nat.pow 256 b.length + ofBigEndian b := by
  have go (b : Bytes) (v : Nat) :
      b.foldl (fun v d => v * 256 + d.toNat) v = v * Nat.pow 256 b.length + ofBigEndian b := by
    induction b generalizing v with
    | nil => simp [ofBigEndian]
    | cons d b ih =>
      simp only [ofBigEndian, List.foldl_cons, List.length_cons]
      rw [ih, ih (0 * 256 + d.toNat)]
      simp only [Nat.pow_eq, Nat.pow_succ, Nat.add_mul, Nat.zero_mul, Nat.zero_add]
      rw [Nat.mul_assoc v 256, Nat.mul_comm 256]
      omega
  simp only [ofBigEndian, List.foldl_append]
  exact go b _

theorem ofBigEndian_bigEndian (n v : Nat) : ofBigEndian (bigEndian n v) = v % Nat.pow 256 n := by
  induction n with
  | zero => simp [bigEndian, ofBigEndian, Nat.mod_one]
  | succ n ih =>
    have h := ofBigEndian_append [UInt8.ofNat (v / Nat.pow 256 n)] (bigEndian n v)
    simp only [List.singleton_append] at h
    rw [bigEndian, h, ih, length_bigEndian]
    have d : ofBigEndian [UInt8.ofNat (v / Nat.pow 256 n)] = v / Nat.pow 256 n % 256 := by
      simp [ofBigEndian]
    rw [d]
    simp only [Nat.pow_eq]
    rw [Nat.pow_succ, Nat.mod_mul, Nat.add_comm, Nat.mul_comm]

theorem ofBigEndian_cons (d : UInt8) (b : Bytes) :
    ofBigEndian (d :: b) = d.toNat * Nat.pow 256 b.length + ofBigEndian b := by
  have one : ofBigEndian [d] = d.toNat := by simp [ofBigEndian]
  rw [← one]
  exact ofBigEndian_append [d] b

theorem ofBigEndian_lt (b : Bytes) : ofBigEndian b < Nat.pow 256 b.length := by
  induction b with
  | nil => decide
  | cons d b ih =>
    have le := Nat.mul_le_mul_right (256 ^ b.length) (Nat.le_of_lt_succ d.toNat_lt)
    rw [ofBigEndian_cons, List.length_cons]
    simp only [Nat.pow_eq, Nat.pow_succ] at ih ⊢
    omega

/-- Digits in front of the last ones do not show. -/
theorem bigEndian_add (n k v : Nat) : bigEndian n (k * Nat.pow 256 n + v) = bigEndian n v := by
  induction n generalizing k with
  | zero => rfl
  | succ n ih =>
    have pos : 0 < 256 ^ n := Nat.pow_pos (by decide)
    have shift : k * Nat.pow 256 (n + 1) + v = k * 256 * Nat.pow 256 n + v := by
      simp only [Nat.pow_eq, Nat.pow_succ, Nat.mul_assoc, Nat.mul_comm 256]
    have digit : (k * 256 * Nat.pow 256 n + v) / Nat.pow 256 n = v / Nat.pow 256 n + 256 * k := by
      rw [Nat.pow_eq, Nat.add_comm, Nat.add_mul_div_right _ _ pos, Nat.mul_comm k]
    rw [shift, bigEndian, bigEndian, ih, digit]
    congr 1
    apply UInt8.toNat_inj.mp
    simp

/-- Writing gives back what was read, digit by digit. -/
theorem bigEndian_ofBigEndian (b : Bytes) : bigEndian b.length (ofBigEndian b) = b := by
  induction b with
  | nil => rfl
  | cons d b ih =>
    have digit : (d.toNat * Nat.pow 256 b.length + ofBigEndian b) / Nat.pow 256 b.length = d.toNat := by
      have pos : 0 < Nat.pow 256 b.length := Nat.lt_of_le_of_lt (Nat.zero_le _) (ofBigEndian_lt b)
      rw [Nat.add_comm, Nat.add_mul_div_right _ _ pos, Nat.div_eq_of_lt (ofBigEndian_lt b), Nat.zero_add]
    rw [ofBigEndian_cons, List.length_cons, bigEndian, digit, bigEndian_add, ih, UInt8.ofNat_toNat]

end Bytes

end PoolSnapshot
