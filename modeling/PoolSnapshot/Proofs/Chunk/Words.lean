import Mathlib.Algebra.Order.Floor.Div
import Mathlib.Data.Int.GCD
import PoolSnapshot.Proofs.Chunk.Partition

/-!
Ranges found by stepping with machine words. Every step but the last stays within the words, as it ends before
the length does. The last one is cut at the length only after the sum is formed, so that the sum may have lost
what is beyond the words; of a length up to the middle of the words it never has. Then the steps go back and
go on, and some never get past the length.
-/
namespace PoolSnapshot

/-- The positions of a range, in order. -/
def Range.positions (r : Range) : List Nat := List.range' r.start (r.stop - r.start)

namespace Chunk

/-- Ranges up to `len`, each beginning where the one before it ended, with one position at least and no more
than `size`. -/
inductive Tiles (size len : Nat) : Nat → List Range → Prop
  | nil : Tiles size len len []
  | cons {r : Range} (nonempty : r.start < r.stop) (short : r.stop ≤ r.start + size)
      (rest : Tiles size len r.stop rs) : Tiles size len r.start (r :: rs)

theorem Tiles.le {start : Nat} (h : Tiles size len start rs) : start ≤ len := by
  induction h with
  | nil => exact Nat.le_refl _
  | cons nonempty _ _ ih => exact Nat.le_trans (Nat.le_of_lt nonempty) ih

/-- Laid one after another, they have every position once. -/
theorem Tiles.positions {start : Nat} (h : Tiles size len start rs) :
    rs.flatMap Range.positions = List.range' start (len - start) := by
  induction h with
  | nil => simp
  | @cons rs r nonempty short rest ih =>
    have within := rest.le
    rw [List.flatMap_cons, ih, Range.positions]
    have join := List.range'_append_1 (s := r.start) (m := r.stop - r.start) (n := len - r.stop)
    rw [Nat.add_sub_cancel' (Nat.le_of_lt nonempty)] at join
    rw [join]
    congr 1
    omega

theorem count_eq_ceilDiv (len size : Nat) : count len size = len ⌈/⌉ step size := rfl

theorem step_step (size : Nat) : step (step size) = step size := Nat.max_eq_right (step_pos size)

theorem count_step (len size : Nat) : count len (step size) = count len size := by rw [count, count, step_step]

theorem ranges_step (len size : Nat) : ranges len (step size) = ranges len size := by
  have each : range len (step size) = range len size := funext fun k => by rw [range, range, step_step]
  rw [ranges, ranges, each, count_step]

/-- What is left of the ranges from the `k`-th on. -/
theorem tiles_from (len size : Nat) (left : k + m = count len size) :
    Tiles (step size) len (min (k * step size) len) ((List.range' k m).map (range len size)) := by
  induction m generalizing k with
  | zero =>
    have past : len ≤ k * step size := by
      rw [← Nat.not_lt, ← lt_count_iff]
      omega
    rw [Nat.min_eq_right past]
    exact .nil
  | succ m ih =>
    have inside := (lt_count_iff size).mp (by omega : k < count len size)
    have pos := step_pos size
    rw [Nat.min_eq_left (Nat.le_of_lt inside), List.range'_succ, List.map_cons]
    refine Tiles.cons (r := range len size k) ?nonempty ?short (ih (by omega))
    all_goals
      simp only [range, Nat.succ_mul]
      omega

theorem tiles_ranges (len size : Nat) : Tiles (step size) len 0 (ranges len size) := by
  have all := tiles_from (k := 0) len size (Nat.zero_add _)
  rw [Nat.zero_mul, Nat.zero_min, ← List.range_eq_range'] at all
  exact all

/-- A range as stepping finds it: what the sum has beyond the words is lost before its end is cut at the length. -/
def found (len size : Nat) (r : Range) : Range := ⟨r.start, min ((r.start + step size) % 2 ^ 64) len⟩

theorem found_step (len size : Nat) : found len (step size) = found len size :=
  funext fun r => by rw [found, found, step_step]

section

variable {len size : Nat} (lenWord : len < 2 ^ 64) (stepWord : step size < 2 ^ 64)

include lenWord stepWord

/-- A sum beyond the words ends its range before the range begins. -/
theorem found_range_iff (inside : k < count len size) :
    found len size (range len size k) = range len size k ↔ (k + 1) * step size < 2 ^ 64 := by
  have before := (lt_count_iff size).mp inside
  simp only [found, range, Range.mk.injEq, true_and, Nat.succ_mul]
  by_cases fits : k * step size + step size < 2 ^ 64
  · rw [Nat.mod_eq_of_lt fits]
    exact iff_of_true rfl fits
  · rw [Nat.mod_eq_sub_mod (by omega), Nat.mod_eq_of_lt (by omega)]
    refine iff_of_false ?_ fits
    omega

theorem found_eq_iff :
    (∀ r ∈ ranges len size, found len size r = r) ↔ count len size * step size < 2 ^ 64 := by
  simp only [ranges, List.forall_mem_map, List.mem_range]
  constructor
  · intro each
    cases all : count len size with
    | zero => omega
    | succ k => exact (found_range_iff lenWord stepWord (by omega)).mp (each k (by omega))
  · intro fits k inside
    have most := Nat.mul_le_mul_right (step size) (by omega : k + 1 ≤ count len size)
    exact (found_range_iff lenWord stepWord inside).mpr (by omega)

end

/-- Up to the middle of the words there is room for one range more. -/
theorem count_mul_lt (half : len ≤ 2 ^ 63) (word : step size < 2 ^ 64) : count len size * step size < 2 ^ 64 := by
  cases count : count len size with
  | zero => omega
  | succ k =>
    have inside : k * step size < len := (lt_count_iff size).mp (by omega)
    rw [Nat.succ_mul]
    cases k with
    | zero => omega
    | succ k =>
      rw [Nat.succ_mul] at inside ⊢
      omega

/-- The largest multiple of `c` modulo `w` falls short of `w` by their greatest common divisor. -/
theorem exists_multiple_iff {c w n : Nat} (pos : 0 < c) (small : c < w) :
    (∃ k, n ≤ (k * c) % w) ↔ n + Nat.gcd c w ≤ w := by
  obtain ⟨b, top⟩ := Nat.gcd_dvd_right c w
  constructor
  · rintro ⟨k, le⟩
    obtain ⟨a, here⟩ : Nat.gcd c w ∣ (k * c) % w :=
      (Nat.dvd_mod_iff (Nat.gcd_dvd_right c w)).mpr (Nat.dvd_mul_left_of_dvd (Nat.gcd_dvd_left c w) k)
    have below : (k * c) % w < w := Nat.mod_lt _ (by omega)
    have fewer : a < b := by
      rw [here] at below
      exact Nat.lt_of_mul_lt_mul_left (Nat.lt_of_lt_of_eq below top)
    have most := Nat.mul_le_mul_left (Nat.gcd c w) (Nat.succ_le_of_lt fewer)
    rw [Nat.mul_succ] at most
    omega
  · intro le
    have least : Nat.gcd c w < w := Nat.lt_of_le_of_lt (Nat.gcd_le_left w pos) small
    have positive := Nat.gcd_pos_of_pos_left w pos
    obtain ⟨m, -, one⟩ := Nat.exists_mul_mod_eq_gcd least
    have last : Nat.gcd c w * (b - 1) = w - Nat.gcd c w := by
      rw [Nat.mul_sub_one, ← top]
    have here : m * (b - 1) * c % w = w - Nat.gcd c w := by
      rw [Nat.mul_comm, ← Nat.mul_assoc, ← Nat.mod_mul_mod, one, last, Nat.mod_eq_of_lt (by omega)]
    exact ⟨m * (b - 1), by omega⟩

/-- The steps from `start` on get past the length, after these ranges. -/
inductive Walks (len size : UInt64) : UInt64 → List Range → Prop
  | past {start : UInt64} (past : ¬start < len) : Walks len size start []
  | next {start : UInt64} (inside : start < len) (rest : Walks len size (stop len size start) rs) :
      Walks len size start (⟨start.toNat, (stop len size start).toNat⟩ :: rs)

variable {len size start : UInt64}

theorem toNat_stop (len size start : UInt64) :
    (stop len size start).toNat = min ((start.toNat + size.toNat) % 2 ^ 64) len.toNat := by
  have cut : stop len size start = if start + size ≤ len then start + size else len := rfl
  rw [cut, ← UInt64.toNat_add]
  split
  · next le => exact (Nat.min_eq_left (UInt64.le_iff_toNat_le.mp le)).symm
  · next gt =>
    rw [UInt64.le_iff_toNat_le] at gt
    exact (Nat.min_eq_right (Nat.le_of_not_le gt)).symm

/-- The multiples from the next word on are those from this one on, but for the first. -/
theorem stop_add_multiple (below : (start.toNat + size.toNat) % 2 ^ 64 < len.toNat) (k : Nat) :
    ((stop len size start).toNat + k * size.toNat) % 2 ^ 64 = (start.toNat + (k + 1) * size.toNat) % 2 ^ 64 := by
  rw [toNat_stop, Nat.min_eq_left (Nat.le_of_lt below), Nat.mod_add_mod, Nat.add_assoc, Nat.add_comm size.toNat,
    ← Nat.add_one_mul]

theorem Walks.unique (walks : Walks len size start rs) (walks' : Walks len size start rs') : rs = rs' := by
  induction walks generalizing rs' with
  | past past =>
    cases walks' with
    | past => rfl
    | next inside => exact absurd inside past
  | next inside _ ih =>
    cases walks' with
    | past past => exact absurd inside past
    | next _ rest => rw [ih rest]

theorem walks_of_walkWithin (walked : walkWithin len size n start = some rs) : Walks len size start rs := by
  induction n generalizing start rs with
  | zero => cases walked
  | succ n ih =>
    rw [walkWithin] at walked
    split at walked
    · next inside =>
      obtain ⟨rest, later, ⟨⟩⟩ := Option.bind_eq_some_iff.mp walked
      exact .next inside (ih later)
    · next past =>
      cases walked
      exact .past past

/-- The words met on the way are multiples of the size modulo the words. The first that is not below the length
ends it. -/
theorem Walks.exists_multiple (walks : Walks len size start rs) :
    ∃ k, len.toNat ≤ (start.toNat + k * size.toNat) % 2 ^ 64 := by
  induction walks with
  | @past start past =>
    refine ⟨0, ?_⟩
    rw [Nat.zero_mul, Nat.add_zero, Nat.mod_eq_of_lt start.toNat_lt]
    exact Nat.not_lt.mp (mt UInt64.lt_iff_toNat_lt.mpr past)
  | @next rs start inside _ ih =>
    obtain ⟨k, beyond⟩ := ih
    by_cases below : (start.toNat + size.toNat) % 2 ^ 64 < len.toNat
    · rw [stop_add_multiple below] at beyond
      exact ⟨k + 1, beyond⟩
    · refine ⟨1, ?_⟩
      rw [Nat.one_mul]
      exact Nat.not_lt.mp below

theorem exists_walkWithin (beyond : len.toNat ≤ (start.toNat + k * size.toNat) % 2 ^ 64) (steps : k < n) :
    ∃ rs, walkWithin len size n start = some rs := by
  induction k generalizing start n with
  | zero =>
    obtain ⟨n, rfl⟩ := Nat.exists_eq_add_one.mpr steps
    rw [Nat.zero_mul, Nat.add_zero, Nat.mod_eq_of_lt start.toNat_lt] at beyond
    exact ⟨[], if_neg (mt UInt64.lt_iff_toNat_lt.mp (Nat.not_lt.mpr beyond))⟩
  | succ k ih =>
    obtain ⟨n, rfl⟩ := Nat.exists_eq_add_one.mpr (Nat.zero_lt_of_lt steps)
    by_cases inside : start < len
    · obtain ⟨rs, rest⟩ : ∃ rs, walkWithin len size n (stop len size start) = some rs := by
        by_cases below : (start.toNat + size.toNat) % 2 ^ 64 < len.toNat
        · rw [← stop_add_multiple below] at beyond
          exact ih beyond (Nat.lt_of_succ_lt_succ steps)
        · have value := toNat_stop len size start
          rw [Nat.min_eq_right (Nat.not_lt.mp below)] at value
          obtain ⟨n, rfl⟩ := Nat.exists_eq_add_one.mpr (by omega : 0 < n)
          exact ⟨[], if_neg (by rw [UInt64.lt_iff_toNat_lt, value]; exact Nat.lt_irrefl _)⟩
      exact ⟨_, (if_pos inside).trans (Option.bind_eq_some_iff.mpr ⟨rs, rest, rfl⟩)⟩
    · exact ⟨[], if_neg inside⟩

/-- In as many steps as there are words, every multiple of the size modulo the words has come. -/
theorem exists_walkFrom_eq_some_iff :
    (∃ rs, walkFrom len size start = some rs) ↔ ∃ k, len.toNat ≤ (start.toNat + k * size.toNat) % 2 ^ 64 := by
  constructor
  · rintro ⟨rs, walked⟩
    exact (walks_of_walkWithin walked).exists_multiple
  · rintro ⟨k, beyond⟩
    have word : k % 2 ^ 64 < UInt64.size := Nat.mod_lt k (by decide)
    refine exists_walkWithin ?_ word
    rwa [Nat.add_mod, Nat.mod_mul_mod, ← Nat.add_mod]

theorem walkFrom_eq_some : walkFrom len size start = some rs ↔ Walks len size start rs := by
  refine ⟨walks_of_walkWithin, fun walks => ?_⟩
  obtain ⟨rs', walked⟩ := exists_walkFrom_eq_some_iff.mpr walks.exists_multiple
  rw [walks.unique (walks_of_walkWithin walked), walked]

section

variable (pos : 0 < size.toNat)

include pos

theorem step_of_pos : step size.toNat = size.toNat := Nat.max_eq_right pos

theorem inside_iff : k < count len.toNat size.toNat ↔ k * size.toNat < len.toNat := by
  rw [lt_count_iff, step_of_pos pos]

theorem Walks.getElem? (walks : Walks len size start rs) (here : start.toNat = k * size.toNat)
    (inside : k + j < count len.toNat size.toNat) :
    rs[j]? = some (found len.toNat size.toNat (range len.toNat size.toNat (k + j))) := by
  induction walks generalizing k j with
  | @past start past =>
    have first := (inside_iff pos).mp (by omega : k < count len.toNat size.toNat)
    rw [← here, ← UInt64.lt_iff_toNat_lt] at first
    exact absurd first past
  | @next rs start _ _ ih =>
    have value := toNat_stop len size start
    rw [here, ← Nat.add_one_mul] at value
    cases j with
    | zero =>
      rw [Nat.add_zero, found, range, step_of_pos pos, here, value, Nat.add_one_mul]
      rfl
    | succ j =>
      have short := (inside_iff pos).mp (by omega : k + 1 < count len.toNat size.toNat)
      have word := len.toNat_lt
      rw [Nat.mod_eq_of_lt (by omega), Nat.min_eq_left (Nat.le_of_lt short)] at value
      rw [List.getElem?_cons_succ, ih value (by omega), Nat.add_right_comm, Nat.add_assoc]

/-- However the steps go on, the first ranges are those of the length as far as the words allow. -/
theorem Walks.take_eq (walks : Walks len size 0 rs) :
    rs.take (count len.toNat size.toNat) =
      (ranges len.toNat size.toNat).map (found len.toNat size.toNat) := by
  refine List.ext_getElem? fun k => ?_
  rw [ranges, List.map_map, List.getElem?_map, List.getElem?_take]
  split
  · next inside =>
    have here := walks.getElem? pos (k := 0) (j := k) (by simp) (by omega)
    rw [here, List.getElem?_range inside, Nat.zero_add]
    rfl
  · next past => rw [List.getElem?_eq_none (by simpa using past), Option.map_none]

/-- Stepping from the `k`-th range on finds what is left of the ranges. -/
theorem walks_of_fits (fits : count len.toNat size.toNat * size.toNat < 2 ^ 64)
    (left : k + m = count len.toNat size.toNat) (here : start.toNat = min (k * size.toNat) len.toNat) :
    Walks len size start ((List.range' k m).map (range len.toNat size.toNat)) := by
  induction m generalizing k start with
  | zero =>
    have past : ¬k * size.toNat < len.toNat := by
      rw [← inside_iff pos]
      omega
    refine .past ?_
    rw [UInt64.lt_iff_toNat_lt, here]
    omega
  | succ m ih =>
    have inside := (inside_iff pos).mp (by omega : k < count len.toNat size.toNat)
    have most := Nat.mul_le_mul_right size.toNat (by omega : k + 1 ≤ count len.toNat size.toNat)
    have value := toNat_stop len size start
    rw [Nat.min_eq_left (Nat.le_of_lt inside)] at here
    rw [here, ← Nat.add_one_mul, Nat.mod_eq_of_lt (by omega)] at value
    have rest := Walks.next (UInt64.lt_iff_toNat_lt.mpr (by omega)) (ih (by omega) value)
    rw [List.range'_succ, List.map_cons, range, step_of_pos pos, ← here, ← value]
    exact rest

theorem walkFrom_eq_ranges_iff : walkFrom len size 0 = some (ranges len.toNat size.toNat) ↔
    count len.toNat size.toNat * size.toNat < 2 ^ 64 := by
  constructor
  · intro walked
    have first := (walkFrom_eq_some.mp walked).take_eq pos
    rw [List.take_of_length_le (Nat.le_of_eq (length_ranges _ _))] at first
    have each : ∀ r ∈ ranges len.toNat size.toNat, found len.toNat size.toNat r = id r := by
      rw [← List.map_inj_left, ← first, List.map_id]
    have fits := (found_eq_iff len.toNat_lt (by rw [step_of_pos pos]; exact size.toNat_lt)).mp each
    rwa [step_of_pos pos] at fits
  · intro fits
    have all : Walks len size 0 _ := walks_of_fits pos fits (Nat.zero_add _) (by simp)
    rw [← List.range_eq_range'] at all
    exact walkFrom_eq_some.mpr all

theorem exists_walkFrom_iff :
    (∃ rs, walkFrom len size 0 = some rs) ↔ len.toNat + Nat.gcd size.toNat (2 ^ 64) ≤ 2 ^ 64 := by
  have zero : (0 : UInt64).toNat = 0 := rfl
  rw [exists_walkFrom_eq_some_iff, ← exists_multiple_iff pos size.toNat_lt]
  simp only [zero, Nat.zero_add]

end

section

variable (len size : UInt64)

theorem toNat_max_one : (max 1 size).toNat = step size.toNat := by
  have larger : max 1 size = if 1 ≤ size then size else 1 := rfl
  have one : (1 : UInt64).toNat = 1 := rfl
  rw [larger, step]
  split
  · next le =>
    rw [UInt64.le_iff_toNat_le, one] at le
    exact (Nat.max_eq_right le).symm
  · next gt =>
    rw [UInt64.le_iff_toNat_le, one] at gt
    rw [one]
    omega

theorem max_one_pos : 0 < (max 1 size).toNat := toNat_max_one size ▸ step_pos size.toNat

theorem step_lt : step size.toNat < 2 ^ 64 := toNat_max_one size ▸ (max 1 size).toNat_lt

theorem walkFrom_max_one_iff : walkFrom len (max 1 size) 0 = some (ranges len.toNat size.toNat) ↔
    count len.toNat size.toNat * step size.toNat < 2 ^ 64 := by
  have whole : walkFrom len (max 1 size) 0 = _ ↔ _ := walkFrom_eq_ranges_iff (max_one_pos size)
  rwa [toNat_max_one, ranges_step, count_step] at whole

theorem exists_walkFrom_max_one_iff : (∃ rs, walkFrom len (max 1 size) 0 = some rs) ↔
    len.toNat + Nat.gcd (step size.toNat) (2 ^ 64) ≤ 2 ^ 64 := by
  rw [exists_walkFrom_iff (max_one_pos size), toNat_max_one]

theorem walk_eq_ranges_iff : walk len size = some (ranges len.toNat size.toNat) ↔
    count len.toNat size.toNat * step size.toNat < 2 ^ 64 ∧ 16 * count len.toNat size.toNat < 2 ^ 63 := by
  have room : fits (count len.toNat (max 1 size).toNat) = true ↔ 16 * count len.toNat size.toNat < 2 ^ 63 := by
    rw [fits, decide_eq_true_eq, Nat.pow_eq, toNat_max_one, count_step]
  rw [walk, ← walkFrom_max_one_iff]
  split
  · next memory => exact (and_iff_left (room.mp memory)).symm
  · next none => exact iff_of_false nofun fun h => none (room.mpr h.2)

variable {len size}

theorem take_of_walkFrom (walked : walkFrom len (max 1 size) 0 = some rs) :
    rs.take (count len.toNat size.toNat) = (ranges len.toNat size.toNat).map (found len.toNat size.toNat) := by
  have first := (walkFrom_eq_some.mp walked).take_eq (max_one_pos size)
  rwa [toNat_max_one, ranges_step, count_step, found_step] at first

theorem walkFrom_of_walk (walked : walk len size = some rs) : walkFrom len (max 1 size) 0 = some rs := by
  rw [walk] at walked
  split at walked
  · exact walked
  · cases walked

end

/-- The ranges of a length share out its positions, and stepping by words finds them exactly if the sum for the
last one is a word. If not, the steps go on, and they end exactly if a multiple of the size modulo the words gets
past the length; the first ranges are still those of the length, but for the end of the last. -/
theorem walk_partition (len size : UInt64) :
    (ranges len.toNat size.toNat).length = len.toNat ⌈/⌉ step size.toNat ∧
      (∀ k < len.toNat ⌈/⌉ step size.toNat, (ranges len.toNat size.toNat)[k]? =
        some ⟨k * step size.toNat, min ((k + 1) * step size.toNat) len.toNat⟩) ∧
      Tiles (step size.toNat) len.toNat 0 (ranges len.toNat size.toNat) ∧
      (ranges len.toNat size.toNat).flatMap Range.positions = List.range len.toNat ∧
      (walkFrom len (max 1 size) 0 = some (ranges len.toNat size.toNat) ↔
        (len.toNat ⌈/⌉ step size.toNat) * step size.toNat < 2 ^ 64) ∧
      ((∃ rs, walkFrom len (max 1 size) 0 = some rs) ↔
        len.toNat + Nat.gcd (step size.toNat) (2 ^ 64) ≤ 2 ^ 64) ∧
      (∀ rs, walkFrom len (max 1 size) 0 = some rs → rs.take (len.toNat ⌈/⌉ step size.toNat) =
        (ranges len.toNat size.toNat).map (found len.toNat size.toNat)) ∧
      (walk len size = some (ranges len.toNat size.toNat) ↔
        (len.toNat ⌈/⌉ step size.toNat) * step size.toNat < 2 ^ 64 ∧
          16 * (len.toNat ⌈/⌉ step size.toNat) < 2 ^ 63) ∧
      (len.toNat ≤ 2 ^ 63 → (len.toNat ⌈/⌉ step size.toNat) * step size.toNat < 2 ^ 64) := by
  have tiles := tiles_ranges len.toNat size.toNat
  simp only [← count_eq_ceilDiv]
  refine ⟨length_ranges _ _, ?each, tiles, ?positions, walkFrom_max_one_iff len size,
    exists_walkFrom_max_one_iff len size, fun _ => take_of_walkFrom, walk_eq_ranges_iff len size,
    fun half => count_mul_lt half (step_lt size)⟩
  case each =>
    intro k within
    rw [ranges, List.getElem?_map, List.getElem?_range within, Option.map_some, range]
  case positions => rw [tiles.positions, Nat.sub_zero, ← List.range_eq_range']

/-- The sum for the second of two ranges loses what is beyond the words, and a third range gets to the end. -/
theorem walk_back : walk 13835058055282163713 11529215046068469760 =
    some [⟨0, 11529215046068469760⟩, ⟨11529215046068469760, 4611686018427387904⟩,
      ⟨4611686018427387904, 13835058055282163713⟩] := by
  have walks : Walks 13835058055282163713 11529215046068469760 0 _ :=
    .next (by decide) (.next (by decide +kernel) (.next (by decide +kernel) (.past (by decide +kernel))))
  exact walkFrom_eq_some.mpr walks

/-- The sum for the second of two ranges is the beginning again, for ever. -/
theorem walk_ever : walk 18446744073709551615 9223372036854775808 = none := by
  have never : ¬∃ rs, walkFrom 18446744073709551615 9223372036854775808 0 = some rs :=
    mt (exists_walkFrom_iff (by decide)).mp (by decide +kernel)
  rw [walk]
  split
  · exact Option.eq_none_iff_forall_ne_some.mpr fun rs walked => never ⟨rs, walked⟩
  · rfl

/-- Two ranges would do for either length. -/
theorem walk_leaves_words :
    walk 13835058055282163713 11529215046068469760 =
        some [⟨0, 11529215046068469760⟩, ⟨11529215046068469760, 4611686018427387904⟩,
          ⟨4611686018427387904, 13835058055282163713⟩] ∧
      ranges 13835058055282163713 11529215046068469760 =
        [⟨0, 11529215046068469760⟩, ⟨11529215046068469760, 13835058055282163713⟩] ∧
      walk 18446744073709551615 9223372036854775808 = none ∧
      ranges 18446744073709551615 9223372036854775808 =
        [⟨0, 9223372036854775808⟩, ⟨9223372036854775808, 18446744073709551615⟩] :=
  ⟨walk_back, by decide +kernel, walk_ever, by decide +kernel⟩

end Chunk

end PoolSnapshot
