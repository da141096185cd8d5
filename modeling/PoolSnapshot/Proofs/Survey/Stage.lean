import PoolSnapshot.Proofs.Batch.Pointwise
import PoolSnapshot.Proofs.Program.Returns
import PoolSnapshot.Proofs.Schedule.Chunked
import PoolSnapshot.Survey.Basic

/-!
Stages of a survey. Where a worker treats the records of its chunk one by one, a stage treats all
records one by one, and no chunk shows in what it leaves.
-/
namespace PoolSnapshot

variable {Q A ε R S T : Type} {f : Call → Outcome} {reason : Request → String}

def Task.result (answer : Q → A) (τ : Task Q A ε R) : Option (List R) :=
  τ.worker.result answer τ.records

theorem Task.toOption_runAll (answer : Q → A) (τs : List (Task Q A ε R)) :
    (runAll answer τs).toOption = (τs.mapM (result answer)).map List.flatten := by
  induction τs with
  | nil => rfl
  | cons τ τs ih =>
    rw [List.mapM_cons, runAll, result, Worker.result]
    cases τ.worker.run answer τ.records with
    | mk rs o =>
      cases o with
      | some e => rfl
      | none =>
        simp only [Traverse.toOption_map, ih]
        cases τs.mapM (result answer) <;> rfl

theorem Task.toOption_runAll_chunked {answer : Q → A} {size : Nat} {records : List R}
    {worker : Range → List R → Worker Q A ε R} {items : List T} {g : T → Option R}
    (length : items.length = records.length)
    (each : ∀ r ∈ Chunk.ranges records.length size,
      (worker r (r.part records)).result answer (r.part records) = (r.part items).mapM g) :
    (runAll answer (chunked size records worker)).toOption = items.mapM g := by
  have slices := Traverse.mapM_congr each
  have whole := Traverse.mapM_flatten g (Chunk.slices size items)
  rw [Chunk.flatten_slices, Chunk.slices_eq, List.mapM_map, length] at whole
  rw [toOption_runAll, chunked_eq, List.mapM_map, ← whole]
  exact congrArg (Option.map List.flatten) slices

theorem Survey.toOption_inChunks (ς : Survey) {answer : Request → Reply} {size : Nat}
    {records : List R} {worker : Range → List R → Surveyor R} {items : List T} {g : T → Option R}
    (length : items.length = records.length)
    (each : ∀ r ∈ Chunk.ranges records.length size,
      (worker r (r.part records)).result answer (r.part records) = (r.part items).mapM g) :
    ((ς.inChunks size records worker).eval answer).toOption = items.mapM g := by
  rw [inChunks, Program.eval_together, Task.toOption_runAll_chunked length each]

theorem Read.result_readEach {reads : Nat → S → List (Read R)} (placed : Placed reads) {as : List S}
    {rs : List R} (h : as.length = rs.length) (block : Nat) (report : BatchError → ε) :
    (worker (readEach as reads) block report).result (pointwise f reason) rs =
      (as.zip rs).mapM fun (a, x) => apply f x (reads 0 a) := by
  rw [result_worker, readEach]
  refine (foldlM_readEach placed [] h).trans ?_
  simp

theorem readEach_map (make : T → S) (items : List T) (reads : Nat → S → List (Read R)) :
    readEach (items.map make) reads = readEach items fun slot a => reads slot (make a) := by
  rw [readEach, List.zipIdx_map, List.flatMap_map]
  rfl

/-- Records made of items, each with the reads for its own item. -/
theorem Survey.toOption_readers (ς : Survey) (s : Stage) {size : Nat} {items : List S} {make : S → R}
    {reads : Nat → S → List (Read R)} {worker : Range → List R → Surveyor R} (placed : Placed reads)
    (each : ∀ r ∈ Chunk.ranges items.length size,
      worker r ((r.part items).map make) = ς.reader s (readEach (r.part items) reads)) :
    ((ς.inChunks size (items.map make) worker).eval (pointwise f reason)).toOption =
      items.mapM fun a => Read.apply f (make a) (reads 0 a) := by
  refine ς.toOption_inChunks (List.length_map _).symm fun r m => ?_
  rw [List.length_map] at m
  rw [r.part_map, each r m]
  refine (Read.result_readEach placed (List.length_map _).symm _ _).trans ?_
  exact Traverse.mapM_zip_map _ _ _

/-- A record by itself, all reads its own. -/
theorem Survey.toOption_alone (ς : Survey) (s : Stage) {ρs : List (Read R)} (own : ∀ ρ ∈ ρs, ρ.slot = 0)
    (x : R) :
    ((Program.alone [x] (ς.reader s ρs)).eval (pointwise f reason)).toOption =
      (Read.apply f x ρs).map ([·]) := by
  have placed : ρs.map (Read.inSlot 0) = ρs := by
    refine (List.map_congr_left fun ρ m => ?_).trans (List.map_id ρs)
    have slot := own ρ m
    cases ρ
    cases slot
    rfl
  have result : Task.result (pointwise f reason) ⟨[x], ς.reader s ρs⟩ = (Read.apply f x ρs).map ([·]) := by
    refine (Read.result_worker f reason ρs _ _ _).trans ?_
    have fold := Read.foldlM_write f [] [] x ρs
    rwa [List.length_nil, placed] at fold
  rw [Program.alone, Program.eval_together, Task.toOption_runAll, List.mapM_cons, result]
  cases Read.apply f x ρs <;> rfl

theorem Read.toOption_ofReads (read : S → Read R) (as : List S) (k : Nat) :
    (Batch.ofReads ((as.zipIdx k).map fun p => (read p.1).inSlot p.2)).toOption =
      (as.mapM fun a => (read a).entry.toOption).map fun es =>
        (es.zipIdx k).map fun p => p.1.inSlot p.2 := by
  rw [Batch.ofReads, Traverse.toOption_mapM]
  induction as generalizing k with
  | nil => rfl
  | cons a as ih =>
    rw [List.zipIdx_cons, List.map_cons, List.mapM_cons, List.mapM_cons, entry_inSlot,
      Traverse.toOption_map, ih]
    cases (read a).entry.toOption with
    | none => rfl
    | some e => cases as.mapM fun a => (read a).entry.toOption <;> rfl

/-- One read for each record of a chunk that may fail. -/
theorem Read.result_probe (read : S → Read R) {finish : List Bool → List R → List R}
    (nothing : finish [] [] = []) {as : List S} {rs : List R} (h : as.length = rs.length)
    (block : Nat) (report : BatchError → ε) :
    (workerWith (readEach as fun slot a => [(read a).inSlot slot]) .lenient block report
        finish).result (pointwise f reason) rs =
      (as.mapM fun a => (read a).entry.toOption).map fun es =>
        finish (es.map fun e => (e.change? (f e.call)).isSome)
          (List.zipWith (fun e x => (e.change? (f e.call)).elim x (· x)) es rs) := by
  have reads : (readEach as fun slot a => [(read a).inSlot slot]) =
      as.zipIdx.map fun p => (read p.1).inSlot p.2 := List.map_eq_flatMap.symm
  have entries := toOption_ofReads read as 0
  rw [reads, workerWith]
  cases g : as.mapM fun a => (read a).entry.toOption with
  | none =>
    rw [g] at entries
    cases e : Batch.ofReads (as.zipIdx.map fun p => (read p.1).inSlot p.2) with
    | ok b => rw [e] at entries; cases entries
    | error err => rfl
  | some es =>
    rw [g] at entries
    have length : es.length = rs.length := (Traverse.mapM_eq_some.mp g).length_eq.symm.trans h
    rw [Traverse.toOption_eq_some.mp entries]
    cases es with
    | nil =>
      rw [List.eq_nil_of_length_eq_zero length.symm]
      exact congrArg some nothing.symm
    | cons e es =>
      simp only [Batch.result_worker (b := ((e :: es).zipIdx 0).map fun p => p.1.inSlot p.2) rfl,
        Batch.settle_lenient f reason block length]
      rfl

end PoolSnapshot
