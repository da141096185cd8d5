import PoolSnapshot.Abi.Encode
import PoolSnapshot.Abi.Decode
import Mathlib.Algebra.Group.Nat.Defs

/-!
Where encoded values are found: bytes at an offset, and a part of a sequence in place or behind the
offset that stands for it. A sequence that was written is found part by part.
-/
namespace PoolSnapshot.Abi

/-- From an offset on the data begins with `b`. -/
def Holds (data : Bytes) (off : Nat) (b : Bytes) : Prop := b <+: data.drop off

theorem holds_append_left (a b : Bytes) : Holds (a ++ b) 0 a := List.prefix_append a b

theorem holds_append_right (a b : Bytes) : Holds (a ++ b) a.length b :=
  ⟨[], by rw [List.append_nil, List.drop_left]⟩

namespace Holds

theorem append {data b : Bytes} (h : Holds data off b) (s : Bytes) : Holds (data ++ s) off b := by
  rw [Holds, List.drop_append]
  exact List.IsPrefix.trans h (List.prefix_append _ _)

theorem left {data a b : Bytes} (h : Holds data off (a ++ b)) : Holds data off a :=
  (List.prefix_append a b).trans h

theorem right {data a b : Bytes} (h : Holds data off (a ++ b)) : Holds data (off + a.length) b := by
  obtain ⟨r, e⟩ := h
  refine ⟨r, ?_⟩
  rw [← List.drop_drop, ← e, List.append_assoc, List.drop_left]

end Holds

theorem bytesAt_eq_some {data b : Bytes} :
    bytesAt data off size = some b ↔ Holds data off b ∧ b.length = size := by
  simp only [bytesAt]
  constructor
  · intro h
    split at h
    case isTrue l =>
      cases h
      exact ⟨List.take_prefix _ _, l⟩
    case isFalse => contradiction
  · rintro ⟨p, rfl⟩
    rw [← List.prefix_iff_eq_take.mp p]
    simp

@[simp] theorem length_word (n : Nat) : (word n).length = 32 := Bytes.length_bigEndian 32 n

theorem wordAt_of_holds {data : Bytes} (h : Holds data off (word n)) (small : n < 2 ^ 256) :
    wordAt data off = some n := by
  have b : bytesAt data off 32 = some (word n) := bytesAt_eq_some.mpr ⟨h, length_word n⟩
  rw [wordAt, b, Option.map_some, word, Bytes.ofBigEndian_bigEndian, Nat.mod_eq_of_lt]
  exact small

theorem sizeAt_of_holds {data : Bytes} (h : Holds data off (word n)) (small : n < 2 ^ 32) :
    sizeAt data off = some n := by
  rw [sizeAt, wordAt_of_holds h (by omega)]
  exact if_pos small

namespace Part

/-- A part of fewer than `2 ^ 32` bytes is found at an offset: in place, or, if it is dynamic, where
the offset that is there leads to. -/
def At (data : Bytes) (off : Nat) (p : Part) : Prop :=
  p.body.length < 2 ^ 32 ∧
    if p.dynamic then
      ∃ start, sizeAt data off = some start ∧ start ≤ data.length ∧ Holds data start p.body
    else Holds data off p.body

def AllAt (data : Bytes) : Nat → List Part → Prop
  | _, [] => True
  | off, p :: ps => p.At data off ∧ AllAt data (off + p.headSize) ps

@[simp] theorem headSize_dynamic (b : Bytes) : headSize ⟨true, b⟩ = 32 := rfl

@[simp] theorem headSize_word (n : Nat) : headSize ⟨false, word n⟩ = 32 := length_word n

theorem length_heads (off : Nat) (ps : List Part) :
    (heads off ps).length = headsSize ps := by
  induction ps generalizing off with
  | nil => rfl
  | cons p ps ih =>
    simp only [heads, headsSize, headSize]
    split
    · rw [List.length_append, ih, length_word]
    · rw [List.length_append, ih]

theorem allAt_of_holds {data : Bytes} (tail : Nat) (ps : List Part)
    (h : Holds data off (heads tail ps)) (t : Holds data tail (tails ps))
    (fits : tail + (tails ps).length ≤ data.length) (hs : (heads tail ps).length < 2 ^ 32)
    (ts : tail + (tails ps).length < 2 ^ 32) : AllAt data off ps := by
  induction ps generalizing off tail with
  | nil => trivial
  | cons p ps ih =>
    cases d : p.dynamic with
    | true =>
      simp only [heads, tails, d, if_true, List.length_append] at h t fits hs ts
      refine ⟨⟨by omega, ?_⟩, ?_⟩
      · rw [d, if_pos rfl]
        exact ⟨tail, sizeAt_of_holds h.left (by omega), by omega, t.left⟩
      · have hd := h.right
        rw [length_word] at hd
        rw [headSize, d, if_pos rfl]
        exact ih _ hd t.right (by omega) (by omega) (by omega)
    | false =>
      simp only [heads, tails, d, Bool.false_eq_true, if_false, List.length_append] at h t fits hs ts
      refine ⟨⟨by omega, ?_⟩, ?_⟩
      · rw [d, if_neg Bool.false_ne_true]
        exact h.left
      · rw [headSize, d, if_neg Bool.false_ne_true]
        exact ih tail h.right t fits (by omega) ts

/-- A sequence that was written is found from its first byte on, whatever comes after it. -/
theorem allAt_join {ps : List Part} (small : (join ps).length < 2 ^ 32) (rest : Bytes) :
    AllAt (join ps ++ rest) 0 ps := by
  have l := length_heads (headsSize ps) ps
  rw [join, List.length_append] at small
  apply allAt_of_holds (headsSize ps)
  · exact (holds_append_left _ _).append rest
  · have t := holds_append_right (heads (headsSize ps) ps) (tails ps)
    rw [l] at t
    exact t.append rest
  · simp only [join, List.length_append]
    omega
  · omega
  · omega

theorem join_of_static {ps : List Part} (d : ∀ p ∈ ps, p.dynamic = false) :
    join ps = ps.flatMap body := by
  have go (off : Nat) : heads off ps ++ tails ps = ps.flatMap body := by
    induction ps with
    | nil => rfl
    | cons p ps ih =>
      have h := d p List.mem_cons_self
      simp only [heads, tails, h, Bool.false_eq_true, if_false, List.flatMap_cons, List.append_assoc]
      rw [ih fun q m => d q (List.mem_cons_of_mem p m)]
  exact go _

theorem headsSize_of_static {ps : List Part} (d : ∀ p ∈ ps, p.dynamic = false) :
    headsSize ps = (ps.flatMap body).length := by
  induction ps with
  | nil => rfl
  | cons p ps ih =>
    rw [headsSize, headSize, d p List.mem_cons_self, if_neg Bool.false_ne_true,
      ih fun q m => d q (List.mem_cons_of_mem p m), List.flatMap_cons, List.length_append]

theorem allAt_of_static {data : Bytes} {ps : List Part} (d : ∀ p ∈ ps, p.dynamic = false)
    (small : (ps.flatMap body).length < 2 ^ 32) (h : Holds data off (ps.flatMap body)) :
    AllAt data off ps := by
  induction ps generalizing off with
  | nil => trivial
  | cons p ps ih =>
    have e := d p List.mem_cons_self
    simp only [List.flatMap_cons, List.length_append] at h small
    refine ⟨⟨by omega, ?_⟩, ?_⟩
    · rw [e, if_neg Bool.false_ne_true]
      exact h.left
    · rw [headSize, e, if_neg Bool.false_ne_true]
      exact ih (fun q m => d q (List.mem_cons_of_mem p m)) (by omega) h.right

end Part

end PoolSnapshot.Abi
