import PoolSnapshot.Proofs.Minipool.Reads
import PoolSnapshot.Proofs.Program.Course
import PoolSnapshot.Proofs.Schedule.Chunked

/-!
What a stage asks for and what its end says about the replies. A stage that goes through had all its
requests accepted; one that fails was refused by the reply to one of them, or never asked.
-/
namespace PoolSnapshot

open Minipool (Raw Shares)

/-- The reads that one request of a stage stands for. -/
inductive Asks (ν : Network) : Stage → CallMode → {R : Type} → List (Read R) → Prop
  | count (κ : Collection) : Asks ν .count .strict [κ.countRead ν]
  | addresses (κ : Collection) (r : Range) :
      Asks ν .addresses .strict
        ((List.range (r.stop - r.start)).map fun i => κ.addressRead ν i (r.start + i))
  | versions (as : List Address) :
      Asks ν .versions .lenient (readEach as fun slot a => [Minipool.versionRead ν slot a])
  | details (rs : List Raw) : Asks ν .details .strict (readEach rs (Raw.reads ν))
  | shares (ps : List (Raw × Int)) :
      Asks ν .shares .strict (readEach ps fun slot (r, amount) => Shares.reads ν slot r amount)

/-- Only probes may fail. -/
theorem Asks.strict {ν : Network} {R : Type} {ρs : List (Read R)} (h : Asks ν s mode ρs)
    (other : s ≠ .versions) : mode = .strict := by
  cases h with
  | versions => exact absurd rfl other
  | count | addresses | details | shares => rfl

namespace Survey

/-- A request of a stage, with the batch that it carries. -/
structure Query (ς : Survey) (s : Stage) (q : Request) where
  Record : Type
  mode : CallMode
  reads : List (Read Record)
  batch : Batch Record
  asks : Asks ς.network s mode reads
  queued : Batch.ofReads reads = .ok batch
  request : q = batch.request mode ς.block

namespace Query

variable {ς : Survey} {s : Stage} {q : Request} (κ : ς.Query s q) (reply : Reply)

def Accepts : Prop := κ.batch.Accepts κ.mode reply

def Refuses (err : BatchError) : Prop := κ.batch.Refuses κ.mode reply err

/-- The reply brings a value without meaning. -/
def Improper : Prop :=
  ∃ os, reply = .ok os ∧ ∃ e o v, (e, o) ∈ κ.batch.zip os ∧ e.Brings o v ∧
    PoolSnapshot.Improper e.function.name v

theorem strict (κ : ς.Query s q) (other : s ≠ .versions) : ¬q.allowFailure := by
  rw [κ.request, Batch.request, κ.asks.strict other]
  exact Bool.false_ne_true

end Query

variable {R : Type} {ς : Survey} {s : Stage} {F : R → Prop} {n : Nat} {rs : List R}
  {heard due : List (Request × Reply)} {c : Cell Request Reply SnapshotError R}

/-- What the way of a worker says about the replies that it took in. Shares alone can fail for another
reason than a reply. -/
structure Told (ς : Survey) (s : Stage) (F : R → Prop) (heard due : List (Request × Reply))
    (c : Cell Request Reply SnapshotError R) : Prop where
  pending : ∀ x ∈ due, Nonempty (ς.Query s x.1)
  taken : ∀ x ∈ heard, ∃ κ : ς.Query s x.1,
    (κ.Accepts x.2 ∧ ∀ out, c = .finished out → κ.Improper x.2 → ∃ y ∈ out, F y) ∨
      ∃ err, κ.Refuses x.2 err ∧ c.failure? = some (.batch s err)
  failed : ∀ e, c.failure? = some e →
    (∃ err, e = .batch s err ∧ ∃ x ∈ heard, ∃ κ : ς.Query s x.1, κ.Refuses x.2 err) ∨
      s = .shares ∧ ∀ s' err, e ≠ .batch s' err

theorem told_quiet (quiet : c.failure? = none) : Told ς s F [] [] c where
  pending := List.forall_mem_nil _
  taken := List.forall_mem_nil _
  failed := by
    intro e h
    rw [quiet] at h
    cases h

theorem told_worker {ρs : List (Read R)} {b : Batch R} {finish : List Bool → List R → List R}
    (asks : Asks ς.network s mode ρs) (queued : Batch.ofReads ρs = .ok b) (within : b.Within rs.length)
    (ends : ∀ os rs' flags, os.length = b.length → Batch.Passes mode (b.zip os) rs rs' flags →
      ∀ e o v, (e, o) ∈ b.zip os → e.Brings o v → Improper e.function.name v →
        ∃ y ∈ finish flags rs', F y)
    (g : (b.worker mode ς.block (.batch s) finish).Goes rs heard due c) : Told ς s F heard due c := by
  let κ : ς.Query s (b.request mode ς.block) := ⟨R, mode, ρs, b, asks, queued, rfl⟩
  rw [Batch.worker] at g
  split at g
  · cases g <;> exact told_quiet rfl
  · rcases g.of_ask with ⟨rfl, rfl, rfl⟩ | ⟨a, rfl, rfl, rfl⟩ | ⟨a, rs', rfl, rfl, h, end'⟩ |
      ⟨a, rs', e, rfl, rfl, h, rfl⟩
    · exact told_quiet rfl
    · refine ⟨List.forall_mem_singleton.mpr ⟨κ⟩, List.forall_mem_nil _, ?_⟩
      intro e h
      cases h
    · cases settled : b.settle mode a rs with
      | mk rs'' r =>
        rw [settled] at h
        cases r <;> cases h
        obtain ⟨os, rfl, count, p⟩ := Batch.passes_of_settle settled
        have accepts : κ.Accepts (.ok os) := Batch.accepts_of_settle settled
        refine ⟨List.forall_mem_nil _, List.forall_mem_singleton.mpr ⟨κ, .inl ⟨accepts, ?_⟩⟩, ?_⟩
        · rintro out rfl ⟨_, ⟨⟩, e, o, v, m, brings, im⟩
          rcases end' with h | h <;> cases h
          exact ends os rs'' _ count p e o v m brings im
        · intro e h
          rcases end' with rfl | rfl <;> cases h
    · cases settled : b.settle mode a rs with
      | mk rs'' r =>
        rw [settled] at h
        cases r <;> cases h
        have refuses : κ.Refuses _ _ := Batch.refuses_of_settle within settled
        refine ⟨List.forall_mem_nil _, List.forall_mem_singleton.mpr ⟨κ, .inr ⟨_, refuses, rfl⟩⟩, ?_⟩
        rintro _ ⟨⟩
        exact .inl ⟨_, rfl, _, List.mem_singleton_self _, κ, refuses⟩

theorem told_reader {ρs : List (Read R)} (asks : Asks ς.network s .strict ρs)
    (ready : Read.Ready rs.length F ρs) (g : (ς.reader s ρs).Goes rs heard due c) :
    Told ς s F heard due c := by
  obtain ⟨b, queued, fine, -⟩ := ready.exists_batch
  rw [reader, Read.worker, Read.workerWith, queued] at g
  refine told_worker asks queued fine.within ?_ g
  intro os rs' flags count p e o v m brings im
  obtain ⟨y, here, bad⟩ := fine.flawed count p m brings im
  exact ⟨y, List.mem_of_getElem? here, bad⟩

/-- A change beforehand says nothing about replies. -/
theorem told_change {f : List R → List R} {ω : Surveyor R}
    (rest : ∀ heard due c, ω.Goes (f rs) heard due c → Told ς s F heard due c)
    (g : Worker.Goes (.change (fun rs => (f rs, none)) :: ω) rs heard due c) :
    Told ς s F heard due c := by
  cases g with
  | here => exact told_quiet rfl
  | change h g =>
    cases h
    exact rest _ _ _ g
  | fail h => cases h

theorem told_fail (other : ∀ s err, e ≠ .batch s err) (g : (Worker.fail e).Goes rs heard due c) :
    Told ς .shares F heard due c := by
  cases g with
  | here => exact told_quiet rfl
  | change h => cases h
  | fail h =>
    cases h
    refine ⟨List.forall_mem_nil _, List.forall_mem_nil _, ?_⟩
    rintro _ ⟨⟩
    exact .inr ⟨rfl, other⟩

/-- Every way of every task says so. -/
def Tells (ς : Survey) (s : Stage) (F : R → Prop) (τs : List (Task Request Reply SnapshotError R)) : Prop :=
  ∀ τ ∈ τs, ∀ heard due c, τ.worker.Goes τ.records heard due c → Told ς s F heard due c

theorem tells_chunked {size : Nat} {records : List R} {worker : Range → List R → Surveyor R}
    (each : ∀ r ∈ Chunk.ranges records.length size, ∀ heard due c,
      (worker r (r.part records)).Goes (r.part records) heard due c → Told ς s F heard due c) :
    Tells ς s F (Task.chunked size records worker) := by
  intro τ m
  rw [Task.chunked_eq] at m
  obtain ⟨r, n, rfl⟩ := List.mem_map.mp m
  exact each r n

end Survey

namespace Round

open Survey

variable {R : Type} {ς : Survey} {s : Stage} {F : R → Prop}
  {τs : List (Task Request Reply SnapshotError R)} {part : Part Request Reply}

theorem accepted (round : Round τs part (.ok out)) (told : Tells ς s F τs) :
    ∀ x ∈ part.asked, ∃ κ : ς.Query s x.1, κ.Accepts x.2 ∧ (κ.Improper x.2 → ∃ y ∈ out, F y) := by
  cases round with
  | @ok turns rss tasks cells of =>
    intro x m
    obtain ⟨t, here, n⟩ := List.mem_flatMap.mp (of.asked.mem_iff.mp m)
    have cell := List.mem_map_of_mem (f := Turn.cell) here
    rw [cells] at cell
    obtain ⟨rs, inside, finished⟩ := List.mem_map.mp cell
    have task : t.task ∈ τs := tasks ▸ List.mem_map_of_mem here
    have done := (finished ▸ t.goes).questions_of_finished
    rw [Turn.asked, done.1, List.append_nil] at n
    obtain ⟨κ, ⟨accepts, shows⟩ | ⟨err, -, failed⟩⟩ := (told _ task _ _ _ t.goes).taken x n
    · refine ⟨κ, accepts, ?_⟩
      intro im
      obtain ⟨y, k, bad⟩ := shows rs finished.symm im
      exact ⟨y, List.mem_flatten.mpr ⟨rs, inside, k⟩, bad⟩
    · rw [← finished] at failed
      cases failed

theorem refused (round : Round τs part (.error e)) (told : Tells ς s F τs) :
    (∀ x ∈ part.asked, ∃ κ : ς.Query s x.1,
      x ∈ part.heard → κ.Accepts x.2 ∨ ∃ err, κ.Refuses x.2 err ∧ e = .batch s err) ∧
    ((∃ err, e = .batch s err ∧ ∃ x ∈ part.heard, ∃ κ : ς.Query s x.1, κ.Refuses x.2 err) ∨
      s = .shares ∧ ∀ s' err, e ≠ .batch s' err) := by
  cases round with
  | @error _ turns tasks fails of =>
    have told : ∀ t ∈ turns, Told ς s F t.heard t.due t.cell := fun t m =>
      told _ (tasks.subset (List.mem_map_of_mem m)) _ _ _ t.goes
    have only : ∀ t ∈ turns, ∀ e', t.failure? = some e' → e' = e := by
      intro t m e' h
      have one : e' ∈ turns.filterMap Turn.failure? := List.mem_filterMap.mpr ⟨t, m, h⟩
      rw [fails] at one
      exact List.eq_of_mem_singleton one
    have heard : ∀ t ∈ turns, ∀ x ∈ t.heard, x ∈ part.heard := by
      intro t m x n
      rw [of.heard]
      exact List.mem_flatMap.mpr ⟨t, m, n⟩
    constructor
    · intro x m
      -- Where one worker took the reply in and another was yet to, the first one knows it.
      by_cases h : x ∈ part.heard
      · rw [of.heard] at h
        obtain ⟨t, here, n⟩ := List.mem_flatMap.mp h
        obtain ⟨κ, ⟨accepts, -⟩ | ⟨err, refuses, failed⟩⟩ := (told t here).taken x n
        · exact ⟨κ, fun _ => .inl accepts⟩
        · exact ⟨κ, fun _ => .inr ⟨err, refuses, (only t here _ failed).symm⟩⟩
      · obtain ⟨t, here, n⟩ := List.mem_flatMap.mp (of.asked.mem_iff.mp m)
        rcases List.mem_append.mp n with n | n
        · exact absurd (heard t here x n) h
        · obtain ⟨κ⟩ := (told t here).pending x n
          exact ⟨κ, fun n => absurd n h⟩
    · have some : e ∈ turns.filterMap Turn.failure? := fails ▸ List.mem_singleton_self e
      obtain ⟨t, here, failed⟩ := List.mem_filterMap.mp some
      rcases (told t here).failed e failed with ⟨err, rfl, x, n, refuses⟩ | other
      · exact .inl ⟨err, rfl, x, heard t here x n, refuses⟩
      · exact .inr other

theorem strict {r : Except SnapshotError (List R)} (round : Round τs part r) (told : Tells ς s F τs)
    (other : s ≠ .versions) : ∀ x ∈ part.asked, ¬x.1.allowFailure := by
  intro x m
  cases r with
  | ok out =>
    obtain ⟨κ, -⟩ := round.accepted told x m
    exact κ.strict other
  | error e =>
    obtain ⟨κ, -⟩ := (round.refused told).1 x m
    exact κ.strict other

end Round

end PoolSnapshot
