import PoolSnapshot.Proofs.Schedule.Ownership
import PoolSnapshot.Proofs.Schedule.Termination

/-!
Chunks side by side. Each worker has the slice of records at its range and no other worker has any of
it; in whatever order they move, they leave what they would have left one after another.
-/
namespace PoolSnapshot

open Chunk (ranges slices)

variable {Q A ε R : Type} {limit : Nat} {size : Nat} {records : List R}
  {worker : Range → List R → Worker Q A ε R}

namespace Task

theorem chunked_eq (size : Nat) (records : List R) (worker : Range → List R → Worker Q A ε R) :
    chunked size records worker =
      (ranges records.length size).map fun r => ⟨r.part records, worker r (r.part records)⟩ := by
  rw [chunked, assign, Chunk.slices_eq, List.map_zip_eq_zipWith, List.zipWith_map_right, List.zipWith_self]
  rfl

theorem map_records_chunked (size : Nat) (records : List R)
    (worker : Range → List R → Worker Q A ε R) :
    (chunked size records worker).map Task.records = slices size records := by
  rw [chunked_eq, Chunk.slices_eq, List.map_map]
  rfl

end Task

namespace Progress

theorem Reaches.waiting {π π' : Progress Q A ε R} {τs : List (Task Q A ε R)} (h : π.Reaches limit asked π')
    (e : π.waiting = τs.drop π.cells.length) : π'.waiting = τs.drop π'.cells.length := by
  induction h with
  | refl => exact e
  | step s _ ih =>
    apply ih
    cases s with
    | start ok room =>
      rw [List.length_append, ← List.drop_drop, ← e]
      rfl
    | move ok m => simpa using e

theorem Reaches.chunked (inPlace : ∀ r, ∀ m ∈ worker r (r.part records), m.InPlace)
    (h : (start (Task.chunked size records worker)).Reaches limit asked π) :
    π.InPlace ∧ π.records.length = records.length ∧ π.blocks = slices size π.records := by
  have begin : (start (Task.chunked size records worker)).InPlace := by
    refine ⟨by simp [start], ?_⟩
    rw [Task.chunked_eq]
    exact List.forall_mem_map.mpr fun r _ => inPlace r
  have blocks : (start (Task.chunked size records worker)).blocks = slices size records :=
    Task.map_records_chunked size records worker
  obtain ⟨p, same⟩ := h.inPlace begin
  rw [blocks] at same
  refine ⟨p, ?_, ?_⟩
  · rw [← flatten_blocks, List.length_flatten, same, ← List.length_flatten, Chunk.flatten_slices]
  · rw [← flatten_blocks]
    exact Chunk.eq_slices same

/-- A move is of one slice, and changes nothing outside it. -/
theorem Reaches.frame (inPlace : ∀ r, ∀ m ∈ worker r (r.part records), m.InPlace)
    (h : (start (Task.chunked size records worker)).Reaches limit asked π) (s : π.Step limit l π') :
    ∃ (k : Nat) (r : Range), (ranges records.length size)[k]? = some r ∧
      (∀ j, j ≠ k → π'.cells[j]? = π.cells[j]?) ∧
      ∀ i, ¬(r.start ≤ i ∧ i < r.stop) → π'.records[i]? = π.records[i]? := by
  obtain ⟨p, length, blocks⟩ := h.chunked inPlace
  obtain ⟨_, _, blocks'⟩ := (h.trans (.step s (.refl π'))).chunked inPlace
  obtain ⟨k, r, here, others, frame⟩ := s.frame blocks blocks' p
  rw [length] at here
  exact ⟨k, r, here, others, frame⟩

variable {asked : List (Q × A)} {π : Progress Q A ε R} {τs : List (Task Q A ε R)} {answer : Q → A}
  (h : (start τs).Reaches limit asked π) (answered : Answered answer asked)

include h answered

/-- Whatever moves when, tasks come to what they come to one after another. -/
theorem Reaches.runAll_eq (e : π.Ends (.ok out)) : Task.runAll answer τs = .ok out :=
  ((h.tracks answered (tracks_start τs)).ends e out).mp rfl

theorem Reaches.unfailed (alone : ∀ τ ∈ τs, (τ.alone answer).2 = none) : π.failure? = none := by
  cases failed : π.failure? with
  | none => rfl
  | some e =>
    obtain ⟨τ, m, f⟩ := (h.tracks answered (tracks_start τs)).fails failed
    cases (alone τ m).symm.trans f

/-- Tasks that do not fail alone do not fail together. -/
theorem Reaches.exists_ok (alone : ∀ τ ∈ τs, (τ.alone answer).2 = none) :
    ∃ asked' π' out, π.Reaches limit asked' π' ∧ Answered answer asked' ∧ π'.Ends (.ok out) := by
  obtain ⟨asked', π', o, later, now, ends⟩ := exists_end answer limit π
  cases ends with
  | ok rss => exact ⟨asked', _, _, later, now, .ok rss⟩
  | error failed =>
    have fine := (h.trans later).unfailed (Answered.append_iff.mpr ⟨answered, now⟩) alone
    cases failed.symm.trans fine

end Progress

end PoolSnapshot
