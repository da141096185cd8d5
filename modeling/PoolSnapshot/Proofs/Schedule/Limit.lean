import PoolSnapshot.Proofs.Schedule.Chunked
import PoolSnapshot.Proofs.Schedule.Turn

/-!
Never more workers than the limit, and no chunk out of turn. In whatever order they move, chunks start in
their own order, each once, and what belongs to a chunk that has not started is as it was.
-/
namespace PoolSnapshot

open Chunk (ranges slices)

variable {Q A ε R : Type}

theorem Cell.Step.was_running {c c' : Cell Q A ε R} (m : c.Step l c') : c.isRunning = true := by
  cases m <;> rfl

namespace Progress

/-- The step to `π'` starts the task: its worker is a new one, and it waits no longer. -/
structure Starts (π : Progress Q A ε R) (τ : Task Q A ε R) (π' : Progress Q A ε R) : Prop where
  cells : π'.cells = π.cells ++ [.running τ.records τ.worker]
  waiting : π.waiting = τ :: π'.waiting

/-- Many steps, with the tasks that they start, in order. -/
inductive Launches (limit : Nat) : Progress Q A ε R → List (Task Q A ε R) → Progress Q A ε R → Prop
  | refl (π : Progress Q A ε R) : Launches limit π [] π
  | start (s : Step limit π l π') (new : π.Starts τ π') (t : Launches limit π' started π'') :
      Launches limit π (τ :: started) π''
  | move (s : Step limit π l π') (old : ∀ τ, ¬π.Starts τ π') (t : Launches limit π' started π'') :
      Launches limit π started π''

variable {limit : Nat} {π π' : Progress Q A ε R} {τs started : List (Task Q A ε R)}

theorem Step.running_le (s : π.Step limit l π') (h : π.running ≤ max 1 limit) :
    π'.running ≤ max 1 limit := by
  cases s with
  | start ok room =>
    rw [running, List.countP_append, List.countP_singleton, Cell.isRunning, if_pos rfl]
    exact room
  | @move c τs l c' cs ds ok m =>
    -- A worker that moves was running, whether or not it still is.
    have le : (if c'.isRunning then 1 else 0) ≤ if c.isRunning then 1 else 0 := by
      rw [m.was_running]
      split <;> decide
    simp only [running, List.countP_append, List.countP_cons] at h ⊢
    omega

theorem Reaches.running_le (h : π.Reaches limit asked π') (start : π.running ≤ max 1 limit) :
    π'.running ≤ max 1 limit := by
  induction h with
  | refl => exact start
  | step s _ ih => exact ih (s.running_le start)

theorem Step.starts_or (s : π.Step limit l π') :
    (∃ τ, π.Starts τ π') ∨
      (∀ τ, ¬π.Starts τ π') ∧ π'.waiting = π.waiting ∧ π'.cells.length = π.cells.length := by
  cases s with
  | start ok room => exact .inl ⟨_, rfl, rfl⟩
  | move ok m =>
    refine .inr ⟨?_, rfl, by simp⟩
    rintro τ ⟨-, waiting⟩
    simp at waiting

theorem Reaches.exists_launches (h : π.Reaches limit asked π') : ∃ started, π.Launches limit started π' := by
  induction h with
  | refl => exact ⟨[], .refl _⟩
  | step s _ ih =>
    obtain ⟨started, t⟩ := ih
    rcases s.starts_or with ⟨τ, new⟩ | ⟨old, -⟩
    · exact ⟨τ :: started, .start s new t⟩
    · exact ⟨started, .move s old t⟩

/-- Tasks leave the queue of those that wait at its head, and each of them becomes a cell. -/
theorem Launches.queue (h : π.Launches limit started π') :
    π.waiting = started ++ π'.waiting ∧ π'.cells.length = π.cells.length + started.length := by
  induction h with
  | refl => exact ⟨rfl, rfl⟩
  | start s new _ ih =>
    rw [new.waiting, ih.1, ih.2, new.cells, List.length_append, List.length_singleton, List.length_cons]
    exact ⟨rfl, by omega⟩
  | move s old _ ih =>
    rcases s.starts_or with ⟨τ, new⟩ | ⟨-, waiting, length⟩
    · exact absurd new (old τ)
    · rwa [waiting, length] at ih

theorem Launches.eq_take (h : (Progress.start τs).Launches limit started π) :
    started = τs.take π.cells.length := by
  obtain ⟨queue, length⟩ := h.queue
  have queue : τs = started ++ π.waiting := queue
  have length : π.cells.length = started.length := length.trans (Nat.zero_add _)
  rw [queue, length, List.take_left]

/-- A chunk that waits has the records that it was given. -/
theorem Reaches.getElem?_records {size : Nat} {records : List R} {worker : Range → List R → Worker Q A ε R}
    (h : (Progress.start (Task.chunked size records worker)).Reaches limit asked π)
    (inPlace : ∀ r, ∀ m ∈ worker r (r.part records), m.InPlace) (inside : i < records.length)
    (waits : ∀ r ∈ (ranges records.length size).take π.cells.length, ¬(r.start ≤ i ∧ i < r.stop)) :
    π.records[i]? = records[i]? := by
  obtain ⟨-, length, blocks⟩ := h.chunked inPlace
  have here := Chunk.div_lt_count size inside
  have later : π.cells.length ≤ i / Chunk.step size := by
    by_contra started
    have own : ((ranges records.length size).take π.cells.length)[i / Chunk.step size]? =
        some (Chunk.range records.length size (i / Chunk.step size)) := by
      rw [List.getElem?_take_of_lt (Nat.lt_of_not_le started), ranges, List.getElem?_map,
        List.getElem?_range here]
      rfl
    exact waits _ (List.mem_of_getElem? own) ((Chunk.mem_range_iff size inside).mpr rfl)
  have waiting : π.waiting = (Task.chunked size records worker).drop π.cells.length := h.waiting rfl
  have block : π.blocks[i / Chunk.step size]? = (slices size records)[i / Chunk.step size]? := by
    rw [Progress.blocks, List.getElem?_append_right (by rwa [List.length_map]), List.length_map, waiting,
      List.map_drop, List.getElem?_drop, Nat.add_sub_cancel' later, Task.map_records_chunked]
  rw [Chunk.getElem?_slices size (length ▸ inside), ← blocks, block, ← Chunk.getElem?_slices size inside]

end Progress

theorem Chunk.nodup_ranges (len size : Nat) : (ranges len size).Nodup := by
  refine List.pairwise_map.mpr (List.nodup_range.imp ?_)
  intro k k' ne same
  exact ne (Nat.mul_right_cancel (step_pos size) (congrArg Range.start same))

/-- At no time more chunks than the limit are running, those that started are the first ones, and there is a
result only once all are done. -/
theorem Task.chunked_within_limit (size limit : Nat) (records : List R)
    (worker : Range → List R → Worker Q A ε R) :
    let rs := ranges records.length size
    let τs := chunked size records worker
    let task (r : Range) : Task Q A ε R := ⟨r.part records, worker r (r.part records)⟩
    let chunks := (records.length + max 1 size - 1) / max 1 size
    rs.Nodup ∧ rs.length = chunks ∧
    ∀ asked π, (Progress.start τs).Reaches limit asked π →
      π.running ≤ max 1 limit ∧
      (∃ started, (Progress.start τs).Launches limit started π) ∧
      (∀ started, (Progress.start τs).Launches limit started π →
        started = (rs.take π.cells.length).map task) ∧
      (∃ turns : List (Turn Q A ε R), turns.map Turn.task = (rs.take π.cells.length).map task ∧
        turns.map Turn.cell = π.cells) ∧
      ((∀ r, ∀ m ∈ worker r (r.part records), m.InPlace) →
        ∀ i < records.length, (∀ r ∈ rs.take π.cells.length, ¬(r.start ≤ i ∧ i < r.stop)) →
          π.records[i]? = records[i]?) ∧
      ∀ out, π.Ends (.ok out) →
        π.cells.length = chunks ∧ π.waiting = [] ∧ ∀ c ∈ π.cells, ∃ rs, c = .finished rs := by
  intro rs τs task chunks
  have all : τs = rs.map task := chunked_eq size records worker
  have length : rs.length = chunks := (List.length_map _).trans List.length_range
  refine ⟨Chunk.nodup_ranges _ _, length, fun asked π h => ?_⟩
  obtain ⟨turns, a⟩ := h.accounts (Progress.accounts_start τs)
  have queue := a.tasks
  have cells : π.cells.length = turns.length := a.cells ▸ List.length_map _
  refine ⟨h.running_le (Nat.zero_le _), h.exists_launches, ?launches, ⟨turns, ?turns, a.cells⟩, ?waits, ?ends⟩
  case launches =>
    intro started t
    rw [t.eq_take, all, List.map_take]
  case turns => rw [List.map_take, ← all, ← queue, cells, List.take_left' (List.length_map _)]
  case waits => exact fun inPlace i inside => h.getElem?_records inPlace inside
  case ends =>
    rintro out ⟨rss⟩
    rw [List.append_nil] at queue
    refine ⟨?_, rfl, List.forall_mem_map.mpr fun rs _ => ⟨rs, rfl⟩⟩
    have tasks : (rs.map task).length = rs.length := List.length_map _
    rw [cells, ← length, ← tasks, ← all, ← queue, List.length_map]

/-- Sizes of zero: one chunk for each record, and the second one waits until the first is done. -/
theorem Task.chunked_within_limit_zero :
    let worker (_ : Range) (_ : List Nat) : Worker Unit Unit Unit Nat :=
      [.change fun rs => (rs.map (· + 7), none)]
    let τs := chunked 0 [1, 2] worker
    ∃ π π', (Progress.start τs).Reaches 0 [] π ∧ π.running ≤ 1 ∧ π.records[0]? = some 8 ∧
      π.records[1]? = some 2 ∧ π.Reaches 0 [] π' ∧ π'.Ends (.ok [8, 9]) ∧ π'.cells.length = 2 := by
  intro worker τs
  let ω : Worker Unit Unit Unit Nat := worker ⟨0, 0⟩ []
  have e : τs = [⟨[1], ω⟩, ⟨[2], ω⟩] := chunked_eq 0 [1, 2] worker
  let π : Progress Unit Unit Unit Nat := ⟨[.running [8] []], [⟨[2], ω⟩]⟩
  let π' : Progress Unit Unit Unit Nat := ⟨[.finished [8], .finished [9]], []⟩
  have move (pre : List (Cell Unit Unit Unit Nat)) (τs : List (Task Unit Unit Unit Nat))
      {c c' : Cell Unit Unit Unit Nat} (ok : Progress.failure? ⟨pre ++ [c], τs⟩ = none) (m : c.Step none c') :
      Progress.Step 0 ⟨pre ++ [c], τs⟩ none ⟨pre ++ [c'], τs⟩ := .move ok m
  have first : (Progress.start τs).Reaches 0 [] π := by
    rw [e]
    exact .step (.start rfl (by decide)) (.step (move [] [⟨[2], ω⟩] rfl (.change rfl)) (.refl π))
  have rest : π.Reaches 0 [] π' := by
    refine .step (move [] [⟨[2], ω⟩] rfl .finish) (.step (.start rfl (by decide)) ?_)
    refine .step (move [.finished [8]] [] rfl (.change rfl)) ?_
    exact .step (move [.finished [8]] [] rfl .finish) (.refl π')
  have ends : π'.Ends (.ok [8, 9]) := .ok [[8], [9]]
  have inPlace : ∀ r, ∀ m ∈ worker r (r.part [1, 2]), m.InPlace := by
    intro r
    exact List.forall_mem_singleton.mpr fun rs => List.length_map _
  obtain ⟨-, -, within⟩ := chunked_within_limit 0 0 [1, 2] worker
  obtain ⟨running, -, -, -, waits, -⟩ := within [] π first
  obtain ⟨-, -, -, -, -, done⟩ := within [] π' (first.trans rest)
  refine ⟨π, π', first, running, rfl, ?_, rest, ends, (done _ ends).1⟩
  exact waits inPlace 1 (by decide) (by decide)

end PoolSnapshot
