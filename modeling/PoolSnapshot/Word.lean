import PoolSnapshot.Hex

/-!
The numbers a chain speaks in, each with the bytes it is packed in and the text it is shown as.
-/
namespace PoolSnapshot

abbrev Word := BitVec 256

abbrev Address := BitVec 160

structure Hash where
  word : Word
  deriving DecidableEq, Inhabited

namespace Word

def hex (w : Word) : String := Hex.quantity w.toNat

def decimal (w : Word) : String := toString w.toNat

end Word

namespace Address

def bytes (a : Address) : Bytes := Bytes.bigEndian 20 a.toNat

def text (a : Address) : String := Hex.ofBytes a.bytes

def ofBytes (b : Bytes) : Address := BitVec.ofNat 160 (Bytes.ofBigEndian b)

@[simp] theorem length_bytes (a : Address) : a.bytes.length = 20 := by simp [bytes]

@[simp] theorem ofBytes_bytes (a : Address) : ofBytes a.bytes = a := by
  apply BitVec.eq_of_toNat_eq
  have h := a.isLt
  simp only [ofBytes, bytes, Bytes.ofBigEndian_bigEndian, BitVec.toNat_ofNat, Nat.pow_eq]
  omega

end Address

namespace Hash

def bytes (h : Hash) : Bytes := Bytes.bigEndian 32 h.word.toNat

def text (h : Hash) : String := Hex.ofBytes h.bytes

def ofBytes (b : Bytes) : Hash := ⟨BitVec.ofNat 256 (Bytes.ofBigEndian b)⟩

@[simp] theorem length_bytes (h : Hash) : h.bytes.length = 32 := by simp [bytes]

@[simp] theorem ofBytes_bytes (h : Hash) : ofBytes h.bytes = h := by
  have e : BitVec.ofNat 256 (Bytes.ofBigEndian h.bytes) = h.word := by
    apply BitVec.eq_of_toNat_eq
    have l := h.word.isLt
    simp only [bytes, Bytes.ofBigEndian_bigEndian, BitVec.toNat_ofNat, Nat.pow_eq]
    omega
  simp [ofBytes, e]

theorem bytes_ofBytes {b : Bytes} (h : b.length = 32) : (ofBytes b).bytes = b := by
  have lt := Bytes.ofBigEndian_lt b
  rw [h, Nat.pow_eq] at lt
  rw [bytes, ofBytes, BitVec.toNat_ofNat, Nat.mod_eq_of_lt (by omega), ← h, Bytes.bigEndian_ofBigEndian]

end Hash

end PoolSnapshot
