import PoolSnapshot.Proofs.Chunk.Partition
import PoolSnapshot.Schedule.Step

/-!
Records change where they stand. Workers that write to their slices without resizing them always hold
what the records have at their ranges, and one move changes one range.
-/
namespace PoolSnapshot

variable {Q A ε R : Type}

/-- A move that writes to a slice and does not resize it. -/
def Move.InPlace : Move Q A ε R → Prop
  | .change f => ∀ rs, (f rs).1.length = rs.length
  | .ask _ f => ∀ a rs, (f a rs).1.length = rs.length

namespace Cell

def InPlace : Cell Q A ε R → Prop
  | .running _ ω => ∀ m ∈ ω, m.InPlace
  | .finished _ | .failed _ _ => True

theorem Step.inPlace {c c' : Cell Q A ε R} (m : c.Step l c') (h : c.InPlace) :
    c'.InPlace ∧ c'.records.length = c.records.length := by
  cases m with
  | @ask rs q f ω a =>
    obtain ⟨now, later⟩ := List.forall_mem_cons.mp h
    exact ⟨List.forall_mem_cons.mpr ⟨now a, later⟩, rfl⟩
  | @change f rs' rs ω e =>
    obtain ⟨now, later⟩ := List.forall_mem_cons.mp h
    have same := now rs
    rw [e] at same
    exact ⟨later, same⟩
  | @fail f rs' err rs ω e =>
    obtain ⟨now, later⟩ := List.forall_mem_cons.mp h
    have same := now rs
    rw [e] at same
    exact ⟨trivial, same⟩
  | finish => exact ⟨trivial, rfl⟩

end Cell

namespace Progress

def blocks (π : Progress Q A ε R) : List (List R) :=
  π.cells.map Cell.records ++ π.waiting.map Task.records

structure InPlace (π : Progress Q A ε R) : Prop where
  cells : ∀ c ∈ π.cells, c.InPlace
  waiting : ∀ τ ∈ π.waiting, ∀ m ∈ τ.worker, m.InPlace

variable {π π' : Progress Q A ε R}

theorem flatten_blocks (π : Progress Q A ε R) : π.blocks.flatten = π.records := by
  simp only [blocks, records, List.flatten_append, List.flatMap_def]

theorem Step.inPlace (h : π.Step limit l π') (p : π.InPlace) : π'.InPlace := by
  cases h with
  | @start τ τs cs ok room =>
    obtain ⟨now, later⟩ := List.forall_mem_cons.mp p.waiting
    exact ⟨List.forall_mem_append.mpr ⟨p.cells, List.forall_mem_singleton.mpr now⟩, later⟩
  | @move c τs l c' cs ds ok m =>
    obtain ⟨before, here, after⟩ := List.forall_mem_append.mp p.cells |>.imp_right List.forall_mem_cons.mp
    have cells := List.forall_mem_append.mpr
      ⟨before, List.forall_mem_cons.mpr ⟨(m.inPlace here).1, after⟩⟩
    exact ⟨cells, p.waiting⟩

theorem getElem?_replace {pre post : List α} {b b' : α} (h : k ≠ pre.length) :
    (pre ++ b' :: post)[k]? = (pre ++ b :: post)[k]? := by
  rcases Nat.lt_or_gt_of_ne h with l | g
  · rw [List.getElem?_append_left l, List.getElem?_append_left l]
  · obtain ⟨j, rfl⟩ := Nat.exists_eq_add_of_lt g
    simp [List.getElem?_append, Nat.add_assoc]

theorem getElem?_snoc {as : List α} (a : α) (h : k ≠ as.length) : (as ++ [a])[k]? = as[k]? := by
  rw [List.getElem?_append]
  split
  · rfl
  · rw [List.getElem?_eq_none (by simp only [List.length_singleton]; omega),
      List.getElem?_eq_none (by omega)]

theorem Step.blocks (h : π.Step limit l π') (p : π.InPlace) :
    ∃ pre b b' post, π.blocks = pre ++ b :: post ∧ π'.blocks = pre ++ b' :: post ∧
      b'.length = b.length ∧ ∀ k, k ≠ pre.length → π'.cells[k]? = π.cells[k]? := by
  cases h with
  | @start τ τs cs ok room =>
    refine ⟨cs.map Cell.records, τ.records, τ.records, τs.map Task.records, rfl, ?_, rfl, ?_⟩
    · simp [Progress.blocks, Cell.records]
    · intro k other
      rw [List.length_map] at other
      exact getElem?_snoc _ other
  | @move c τs l c' cs ds ok m =>
    have e := (m.inPlace (p.cells c (by simp))).2
    refine ⟨cs.map Cell.records, c.records, c'.records,
      ds.map Cell.records ++ τs.map Task.records, ?_, ?_, e, ?_⟩
    · simp [Progress.blocks]
    · simp [Progress.blocks]
    · intro k other
      rw [List.length_map] at other
      exact getElem?_replace other

theorem Step.length_blocks (h : π.Step limit l π') (p : π.InPlace) :
    π'.blocks.map List.length = π.blocks.map List.length := by
  obtain ⟨pre, b, b', post, e, e', same, _⟩ := h.blocks p
  rw [e, e']
  simp [same]

theorem Reaches.inPlace (h : π.Reaches limit asked π') (p : π.InPlace) :
    π'.InPlace ∧ π'.blocks.map List.length = π.blocks.map List.length := by
  induction h with
  | refl => exact ⟨p, rfl⟩
  | step s _ ih =>
    obtain ⟨p', same⟩ := ih (s.inPlace p)
    exact ⟨p', same.trans (s.length_blocks p)⟩

/-- A move is of one worker and changes what is in its range. -/
theorem Step.frame (h : π.Step limit l π')
    (e : π.blocks = Chunk.slices size π.records) (e' : π'.blocks = Chunk.slices size π'.records)
    (p : π.InPlace) :
    ∃ (k : Nat) (r : Range), (Chunk.ranges π.records.length size)[k]? = some r ∧
      (∀ j, j ≠ k → π'.cells[j]? = π.cells[j]?) ∧
      ∀ i, ¬(r.start ≤ i ∧ i < r.stop) → π'.records[i]? = π.records[i]? := by
  obtain ⟨pre, b, b', post, x, x', same, others⟩ := h.blocks p
  have length : π'.records.length = π.records.length := by
    rw [← flatten_blocks, ← flatten_blocks, x, x']
    simp [same]
  have k : pre.length < Chunk.count π.records.length size := by
    have n := congrArg List.length e
    rw [x, Chunk.slices_eq] at n
    simp only [List.length_append, List.length_cons, List.length_map, Chunk.ranges,
      List.length_range] at n
    omega
  refine ⟨pre.length, Chunk.range π.records.length size pre.length, ?_, others, ?_⟩
  · rw [Chunk.ranges, List.getElem?_map, List.getElem?_range k]
    rfl
  · intro i out
    by_cases i_lt : i < π.records.length
    -- Outside the range `i` is in another slice, and that one stayed.
    · have other : i / Chunk.step size ≠ pre.length := by
        intro eq
        exact out ((Chunk.mem_range_iff size i_lt).mpr eq.symm)
      rw [Chunk.getElem?_slices size i_lt, Chunk.getElem?_slices size (length ▸ i_lt), ← e, ← e', x,
        x', getElem?_replace other]
    · rw [List.getElem?_eq_none (by omega), List.getElem?_eq_none (by omega)]

end Progress

end PoolSnapshot
