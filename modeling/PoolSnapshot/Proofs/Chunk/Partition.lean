import PoolSnapshot.Chunk
import Mathlib.Data.List.Forall2

/-!
The ranges of a length share out its positions, and the slices of a list are what it has at these
ranges.
-/
namespace PoolSnapshot

namespace Range

def shift (n : Nat) (r : Range) : Range := ⟨r.start + n, r.stop + n⟩

theorem part_shift (n : Nat) (r : Range) (xs : List α) : (r.shift n).part xs = r.part (xs.drop n) := by
  simp only [part, shift, List.drop_drop]
  congr 1
  · omega
  · rw [Nat.add_comm]

theorem part_replicate (r : Range) (xs : List α) (y : β) :
    r.part (List.replicate xs.length y) = List.replicate (r.part xs).length y := by
  simp only [part, List.drop_replicate, List.take_replicate, List.length_take, List.length_drop]

theorem part_map (r : Range) (f : α → β) (xs : List α) : r.part (xs.map f) = (r.part xs).map f := by
  rw [part, part, ← List.map_drop, ← List.map_take]

theorem part_subset (r : Range) (xs : List α) : r.part xs ⊆ xs :=
  fun _ m => List.mem_of_mem_drop (List.mem_of_mem_take m)

theorem getElem?_part (r : Range) (xs : List α) (i : Nat) :
    (r.part xs)[i]? = if i < r.stop - r.start then xs[r.start + i]? else none := by
  rw [part, List.getElem?_take, List.getElem?_drop]

theorem flatMap_part_congr {xs : List α} {ys : List β} {f : α → List γ} {g : β → List γ}
    (h : List.Forall₂ (fun x y => f x = g y) xs ys) (r : Range) :
    (r.part xs).flatMap f = (r.part ys).flatMap g := by
  have same : xs.map f = ys.map g := by
    rw [← List.forall₂_eq_eq_eq, List.forall₂_map_left_iff, List.forall₂_map_right_iff]
    exact h
  simp only [part, List.flatMap_def, List.map_take, List.map_drop, same]

end Range

namespace Chunk

theorem lt_count_iff (size : Nat) : k < count len size ↔ k * step size < len := by
  have pos := step_pos size
  rw [count, ← Nat.succ_le_iff, Nat.le_div_iff_mul_le pos, Nat.succ_mul]
  omega

theorem length_ranges (len size : Nat) : (ranges len size).length = count len size := by
  rw [ranges, List.length_map, List.length_range]

theorem count_zero (size : Nat) : count 0 size = 0 := by
  by_contra h
  have := (lt_count_iff size).mp (Nat.pos_of_ne_zero h)
  omega

theorem count_pos (size : Nat) (h : 0 < len) : count len size = count (len - step size) size + 1 := by
  have pos := step_pos size
  simp only [count]
  by_cases l : step size ≤ len
  · rw [← Nat.add_div_right _ pos]
    congr 1
    omega
  · rw [Nat.div_eq_of_lt_le (k := 1) (by omega) (by omega), Nat.div_eq_of_lt (by omega)]

theorem mem_range_iff (size : Nat) (h : i < len) :
    (range len size k).start ≤ i ∧ i < (range len size k).stop ↔ k = i / step size := by
  have pos := step_pos size
  rw [eq_comm, Nat.div_eq_iff pos]
  simp only [range, Nat.succ_mul]
  omega

theorem div_lt_count (size : Nat) (h : i < len) : i / step size < count len size :=
  (lt_count_iff size).mpr (Nat.lt_of_le_of_lt (Nat.div_mul_le_self i _) h)

/-- No position is left out and none is shared. -/
theorem existsUnique_range (size : Nat) (h : i < len) :
    ∃! k : Nat, ∃ r, (ranges len size)[k]? = some r ∧ r.start ≤ i ∧ i < r.stop := by
  refine ⟨i / step size, ⟨range len size (i / step size), ?_, ?_⟩, ?_⟩
  · rw [ranges, List.getElem?_map, List.getElem?_range (div_lt_count size h)]
    rfl
  · exact (mem_range_iff size h).mpr rfl
  · rintro k ⟨r, e, inside⟩
    simp only [ranges, List.getElem?_map, Option.map_eq_some_iff] at e
    obtain ⟨k', e, rfl⟩ := e
    obtain ⟨_, rfl⟩ := List.getElem?_eq_some_iff.mp e
    rw [List.getElem_range] at inside
    exact (mem_range_iff size h).mp inside

theorem length_part {xs : List α} {r : Range} (m : r ∈ ranges xs.length size) :
    (r.part xs).length = r.stop - r.start := by
  obtain ⟨k, -, rfl⟩ := List.mem_map.mp m
  simp only [Range.part, range, List.length_take, List.length_drop]
  omega

theorem part_ne_nil {xs : List α} {r : Range} (m : r ∈ ranges xs.length size) : r.part xs ≠ [] := by
  have length := length_part m
  obtain ⟨k, inside, rfl⟩ := List.mem_map.mp m
  have start := (lt_count_iff size).mp (List.mem_range.mp inside)
  have pos := step_pos size
  rw [← List.length_pos_iff_ne_nil, length]
  simp only [range, Nat.succ_mul]
  omega

theorem ranges_zero (size : Nat) : ranges 0 size = [] := by
  rw [ranges, count_zero]
  rfl

theorem ranges_pos (size : Nat) (h : 0 < len) :
    ranges len size =
      ⟨0, min (step size) len⟩ :: (ranges (len - step size) size).map (Range.shift (step size)) := by
  rw [ranges, count_pos size h, List.range_succ_eq_map, List.map_cons, List.map_map, ranges,
    List.map_map]
  congr 1
  · simp [range]
  · apply List.map_congr_left
    intro k m
    have l := (lt_count_iff size).mp (List.mem_range.mp m)
    simp only [Function.comp_apply, range, Range.shift, Range.mk.injEq, Nat.succ_mul,
      true_and]
    omega

/-- Both ways of cutting agree. -/
theorem slices_eq (size : Nat) (xs : List α) :
    slices size xs = (ranges xs.length size).map (·.part xs) := by
  induction xs using slices.induct size with
  | case1 => simp [slices, ranges_zero]
  | case2 x xs ih =>
    rw [slices, ranges_pos size (by simp), List.map_cons, List.map_map, ih, List.length_drop]
    congr 1
    · simp [Range.part]
    · apply List.map_congr_left
      intro r m
      exact (Range.part_shift _ r _).symm

theorem getElem?_slices (size : Nat) {xs : List α} (h : i < xs.length) :
    xs[i]? = (slices size xs)[i / step size]?.bind (·[i % step size]?) := by
  have k := div_lt_count size h
  have here := (mem_range_iff size h).mpr rfl
  have split := Nat.div_add_mod' i (step size)
  simp only [range] at here
  rw [slices_eq, List.getElem?_map, ranges, List.getElem?_map, List.getElem?_range k]
  simp only [Option.map_some, Option.bind_some, Range.part, range]
  rw [List.getElem?_take_of_lt (by omega), List.getElem?_drop, split]

theorem flatten_slices (size : Nat) (xs : List α) : (slices size xs).flatten = xs := by
  induction xs using slices.induct size with
  | case1 => simp [slices]
  | case2 x xs ih => rw [slices, List.flatten_cons, ih, List.take_append_drop]

/-- No item is lost or moved by going through the ranges in order. -/
theorem flatMap_part (size : Nat) (xs : List α) (f : α → List β) :
    ((ranges xs.length size).flatMap fun r => (r.part xs).flatMap f) = xs.flatMap f := by
  have whole : (ranges xs.length size).flatMap (·.part xs) = xs := by
    rw [List.flatMap_def, ← slices_eq, flatten_slices]
  rw [← List.flatMap_assoc, whole]

theorem exists_part (size : Nat) {xs : List α} (m : x ∈ xs) : ∃ r ∈ ranges xs.length size, x ∈ r.part xs := by
  rw [← flatten_slices size xs, slices_eq] at m
  obtain ⟨_, n, m⟩ := List.mem_flatten.mp m
  obtain ⟨r, inside, rfl⟩ := List.mem_map.mp n
  exact ⟨r, inside, m⟩

theorem length_slices (size : Nat) (xs : List α) : (slices size xs).length = count xs.length size := by
  rw [slices_eq, List.length_map, length_ranges]

theorem mem_slices {xs : List α} (m : b ∈ slices size xs) : b ≠ [] ∧ b.length ≤ step size := by
  rw [slices_eq] at m
  obtain ⟨r, n, rfl⟩ := List.mem_map.mp m
  refine ⟨part_ne_nil n, ?_⟩
  rw [length_part n]
  obtain ⟨k, -, rfl⟩ := List.mem_map.mp n
  simp only [range, Nat.succ_mul]
  omega

theorem eq_slices {xs : List α} {bs : List (List β)}
    (h : bs.map List.length = (slices size xs).map List.length) :
    bs = slices size bs.flatten := by
  have same : bs.flatten.length = xs.length := by
    rw [List.length_flatten, h, ← List.length_flatten, flatten_slices]
  rw [List.eq_iff_flatten_eq, flatten_slices, h]
  refine ⟨rfl, ?_⟩
  simp only [slices_eq, List.map_map, same]
  apply List.map_congr_left
  intro r _
  simp [Range.part, same]

/-- Lists as long as the slices are the slices of one list. -/
theorem exists_parts {xs : List α} {bs : List (List β)}
    (h : List.Forall₂ (fun r b => b.length = (r.part xs).length) (ranges xs.length size) bs) :
    ∃ ys : List β, ys.length = xs.length ∧ bs = (ranges xs.length size).map (·.part ys) := by
  have lengths : bs.map List.length = (slices size xs).map List.length := by
    rw [slices_eq, List.map_map, ← List.forall₂_eq_eq_eq, List.forall₂_map_left_iff,
      List.forall₂_map_right_iff]
    exact h.flip
  have whole : bs.flatten.length = xs.length := by
    rw [List.length_flatten, lengths, ← List.length_flatten, flatten_slices]
  refine ⟨bs.flatten, whole, ?_⟩
  rw [← whole, ← slices_eq]
  exact eq_slices lengths

end Chunk

end PoolSnapshot
