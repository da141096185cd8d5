import PoolSnapshot.Proofs.Batch.Declared
import PoolSnapshot.Proofs.Program.Course
import PoolSnapshot.Proofs.Schedule.Chunked

/-!
What a stage that went through leaves, whatever was answered: what each worker keeps true of the
records of its chunk is true of all records in the end.
-/
namespace PoolSnapshot

variable {Q A ε R S : Type}

theorem Cell.Follows.congr {c : Cell Q A ε R} {τ τ' : Task Q A ε R} (h : c.Follows answer τ)
    (same : τ'.alone answer = τ.alone answer) : c.Follows answer τ' := by
  cases c with
  | running => exact Eq.trans h same.symm
  | finished | failed => exact same.trans h

/-- By the answers that it always gets, a worker goes to where it comes to alone. -/
theorem Worker.Goes.follows {ω : Worker Q A ε R} (g : ω.Goes rs heard due c)
    (a : Answered answer (heard ++ due)) : c.Follows answer ⟨rs, ω⟩ := by
  induction g with
  | here | finish => rfl
  | change h _ ih =>
    refine (ih a).congr ?_
    simp only [Task.alone, run, Move.effect, h]
  | fail h => simp only [Cell.Follows, Task.alone, run, Move.effect, h]
  | asked a' =>
    have now := a _ List.mem_cons_self
    simp only at now
    subst now
    rfl
  | took h _ ih =>
    obtain ⟨now, later⟩ := List.forall_mem_cons.mp a
    simp only at now
    subst now
    refine (ih later).congr ?_
    simp only [Task.alone, run, Move.effect, h]
  | refused h =>
    have now := a _ List.mem_cons_self
    simp only at now
    subst now
    simp only [Cell.Follows, Task.alone, run, Move.effect, h]

/-- A worker with nothing to read asks nothing. -/
theorem Batch.questions_worker (b : Batch R) (mode : CallMode) (block : Nat) (report : BatchError → ε)
    (finish : List Bool → List R → List R) :
    (b.worker mode block report finish).questions = if b = [] then [] else [b.request mode block] := by
  cases b <;> rfl

theorem Batch.mem_questions {b : Batch R} {report : BatchError → ε} {finish : List Bool → List R → List R}
    (m : q ∈ (b.worker mode block report finish).questions) : b ≠ [] ∧ q = b.request mode block := by
  rw [questions_worker] at m
  split at m
  · cases m
  · next some => exact ⟨some, List.eq_of_mem_singleton m⟩

theorem Batch.finished_worker {b : Batch R} {report : BatchError → ε} {finish : List Bool → List R → List R}
    (g : (b.worker mode block report finish).Goes rs heard due (.finished out)) :
    (b = [] ∧ out = rs) ∨ ∃ os rs' flags, heard = [(b.request mode block, .ok os)] ∧
      b.settle mode (.ok os) rs = (rs', .ok flags) ∧ out = finish flags rs' := by
  rw [worker] at g
  split at g
  · next none =>
    cases g
    exact .inl ⟨List.isEmpty_iff.mp none, rfl⟩
  · rcases g.of_ask with ⟨-, -, h⟩ | ⟨a, -, -, h⟩ | ⟨a, rs', rfl, -, h, end'⟩ | ⟨a, rs', e, -, -, -, h⟩
    · cases h
    · cases h
    · cases settled : b.settle mode a rs with
      | mk rs'' r =>
        rw [settled] at h
        cases r <;> cases h
        obtain ⟨os, rfl, -, -⟩ := passes_of_settle settled
        rcases end' with h | h <;> cases h
        exact .inr ⟨os, rs'', _, rfl, settled, rfl⟩
    · cases h

/-- A worker fails by the one reply that it gets. -/
theorem Batch.failed_worker {b : Batch R} {report : BatchError → ε} {finish : List Bool → List R → List R}
    (g : (b.worker mode block report finish).Goes rs heard due c) (failed : c.failure? = some e) :
    ∃ reply rs' err, heard = [(b.request mode block, reply)] ∧
      b.settle mode reply rs = (rs', .error err) ∧ e = report err := by
  rw [worker] at g
  split at g
  · cases g <;> cases failed
  · rcases g.of_ask with ⟨-, -, rfl⟩ | ⟨a, -, -, rfl⟩ | ⟨a, rs', -, -, -, rfl | rfl⟩ |
      ⟨a, rs', e', rfl, -, h, rfl⟩
    · cases failed
    · cases failed
    · cases failed
    · cases failed
    · cases failed
      cases settled : b.settle mode a rs with
      | mk rs'' r =>
        rw [settled] at h
        cases r <;> cases h
        exact ⟨a, _, _, rfl, settled, rfl⟩

namespace Read

variable {ρs : List (Read R)} {report : BatchError → ε} {P : S → R → Prop} {items : List S}
  {reads : Nat → S → List (Read R)}

theorem finished_worker (g : (worker ρs block report).Goes rs heard due (.finished out)) :
    ∃ b es flags, Batch.ofReads ρs = .ok b ∧ (∀ q ∈ es, q.1 ∈ b) ∧
      Batch.Passes .strict es rs out flags := by
  rw [worker, workerWith] at g
  cases made : Batch.ofReads ρs with
  | error e =>
    rw [made] at g
    cases g with
    | change h => cases h
  | ok b =>
    rw [made] at g
    rcases Batch.finished_worker g with ⟨-, rfl⟩ | ⟨_, rs', flags, -, settled, rfl⟩
    · exact ⟨b, [], [], rfl, List.forall_mem_nil _, .done⟩
    · obtain ⟨os, -, -, p⟩ := Batch.passes_of_settle settled
      exact ⟨b, b.zip os, flags, rfl, fun q m => (List.of_mem_zip m).1, p⟩

/-- What each item's own reads keep of its record. -/
theorem forall₂_of_finished
    (keeps : ∀ slot x, ∀ ρ ∈ reads slot x, ρ.slot = slot ∧
      ∀ g, Store.Changes ρ.store g → ∀ y, P x y → P x (g y))
    (h : List.Forall₂ P items rs)
    (g : (worker (readEach items reads) block report).Goes rs heard due (.finished out)) :
    List.Forall₂ P items out := by
  obtain ⟨b, es, flags, made, own, p⟩ := finished_worker g
  obtain ⟨length, each⟩ := Traverse.forall₂_iff_getElem?.mp h
  have kept := p.keeps (I := fun k y => ∀ x, items[k]? = some x → P x y) ?keeps
    fun k y here x there => each k x y there here
  case keeps =>
    intro q m f c y fixed x here
    obtain ⟨ρ, n, made⟩ := Traverse.exists_left (Traverse.mapM_eq_ok.mp made) (own q m)
    obtain ⟨slot, x', here', n⟩ := mem_readEach.mp n
    obtain ⟨rfl, keep⟩ := keeps slot x' ρ n
    rw [slot_entry made] at here fixed
    rw [store_entry made] at c
    cases here.symm.trans here'
    exact keep f c y (fixed x here)
  exact Traverse.forall₂_iff_getElem?.mpr
    ⟨p.length_eq.trans length, fun k x y there here => kept k y here x there⟩

end Read

/-- A stage of one task goes the way of that task. -/
theorem Round.exists_way {τ : Task Q A ε R} (round : Round [τ] part r) :
    ∃ heard due c, τ.worker.Goes τ.records heard due c ∧ part.asked.Perm (heard ++ due) ∧
      ((∃ out, r = .ok out ∧ c = .finished out) ∨ ∃ e, r = .error e ∧ c.failure? = some e) := by
  cases round with
  | @ok turns rss tasks cells of =>
    obtain ⟨t, rfl, rfl⟩ := List.map_eq_singleton_iff.mp tasks
    obtain ⟨rs, rfl, finished⟩ := List.map_eq_singleton_iff.mp cells.symm
    refine ⟨t.heard, t.due, t.cell, t.goes, ?_, .inl ⟨rs, ?_, finished.symm⟩⟩
    · simpa [Turn.asked] using of.asked
    · rw [List.flatten_singleton]
  | @error e turns tasks fails of =>
    have one : e ∈ turns.filterMap Turn.failure? := fails ▸ List.mem_singleton_self e
    obtain ⟨t, m, failed⟩ := List.mem_filterMap.mp one
    have alone : turns.length = 1 := by
      have some := List.length_pos_of_mem m
      have most := tasks.length_le
      rw [List.length_map, List.length_singleton] at most
      omega
    obtain ⟨t', rfl⟩ := List.length_eq_one_iff.mp alone
    cases List.eq_of_mem_singleton m
    obtain rfl : t.task = τ := by simpa using tasks
    refine ⟨t.heard, t.due, t.cell, t.goes, ?_, .inr ⟨e, rfl, failed⟩⟩
    simpa [Turn.asked] using of.asked

theorem Round.of_single {τ : Task Q A ε R} (round : Round [τ] part (.ok out)) :
    ∃ heard due, τ.worker.Goes τ.records heard due (.finished out) := by
  obtain ⟨heard, due, c, goes, -, ⟨_, ⟨⟩, rfl⟩ | ⟨_, ⟨⟩, -⟩⟩ := round.exists_way
  exact ⟨heard, due, goes⟩

/-- One task leaves its answers no choice, not even in how it fails. -/
theorem Round.eq_runAll {τ : Task Q A ε R} (round : Round [τ] part r)
    (a : Answered answer part.asked) : r = Task.runAll answer [τ] := by
  obtain ⟨heard, due, c, goes, asked, ends⟩ := round.exists_way
  have alone := goes.follows fun x m => a x (asked.mem_iff.mpr m)
  rcases ends with ⟨out, rfl, rfl⟩ | ⟨e, rfl, failed⟩
  · have alone : τ.worker.run answer τ.records = (out, none) := alone
    rw [Task.runAll, alone]
    exact congrArg Except.ok (List.append_nil out).symm
  · cases c with
    | running | finished => cases failed
    | failed rs e =>
      cases failed
      have alone : τ.worker.run answer τ.records = (rs, some e) := alone
      rw [Task.runAll, alone]

/-- A stage of one batch makes one request and comes to what the batch makes of the reply. -/
theorem Round.of_batch {b : Batch R} {report : BatchError → ε} {finish : List Bool → List R → List R}
    (full : b ≠ []) (round : Round [⟨rs, b.worker mode block report finish⟩] part r) :
    ∃ reply, part.asked = [(b.request mode block, reply)] ∧
      r = match b.settle mode reply rs with
        | (rs', .ok flags) => .ok (finish flags rs')
        | (_, .error err) => .error (report err) := by
  obtain ⟨heard, due, c, goes, asked, ⟨out, rfl, rfl⟩ | ⟨e, rfl, failed⟩⟩ := round.exists_way
  · rcases Batch.finished_worker goes with ⟨none, -⟩ | ⟨os, rs', flags, rfl, settled, rfl⟩
    · exact absurd none full
    · obtain ⟨rfl, -⟩ := goes.questions_of_finished
      refine ⟨.ok os, List.perm_singleton.mp asked, ?_⟩
      rw [settled]
  · obtain ⟨reply, rs', err, rfl, settled, rfl⟩ := Batch.failed_worker goes failed
    have most := goes.questions_prefix.length_le
    rw [Batch.questions_worker, if_neg full, List.length_map, List.length_append, List.length_singleton,
      List.length_singleton] at most
    obtain rfl : due = [] := List.eq_nil_of_length_eq_zero (by omega)
    refine ⟨reply, List.perm_singleton.mp asked, ?_⟩
    rw [settled]

/-- What follows a stage of one batch follows from the one reply. -/
theorem Program.Course.of_batch_bind {b : Batch R} {report : BatchError → ε}
    {finish : List Bool → List R → List R} {k : List R → Program Request Reply ε α} {r : Except ε α}
    (full : b ≠ []) (h : (Program.alone rs (b.worker mode block report finish) >>= k).Course parts r) :
    ∃ reply part rest, parts = part :: rest ∧ part.asked = [(b.request mode block, reply)] ∧
      match b.settle mode reply rs with
      | (rs', .ok flags) => (k (finish flags rs')).Course rest r
      | (_, .error err) => rest = [] ∧ r = .error (report err) := by
  rcases of_together_bind h with ⟨part, rest, found, rfl, first, later⟩ | ⟨part, e, rfl, first, rfl⟩
  · obtain ⟨_, ⟨⟩, round⟩ := of_together first
    obtain ⟨reply, asked, ends⟩ := round.of_batch full
    refine ⟨reply, part, rest, rfl, asked, ?_⟩
    split at ends <;> cases ends
    exact later
  · obtain ⟨_, ⟨⟩, round⟩ := of_together first
    obtain ⟨reply, asked, ends⟩ := round.of_batch full
    refine ⟨reply, part, [], rfl, asked, ?_⟩
    split at ends <;> cases ends
    exact ⟨rfl, rfl⟩

/-- The ways of the workers of a stage that went through, chunk by chunk. -/
theorem Round.exists_ways {size : Nat} {records : List R} {worker : Range → List R → Worker Q A ε R}
    (round : Round (Task.chunked size records worker) part (.ok out)) :
    ∃ ways : List (List (Q × A) × List R),
      List.Forall₂ (fun r way =>
        (worker r (r.part records)).Goes (r.part records) way.1 [] (.finished way.2))
        (Chunk.ranges records.length size) ways ∧
      part.asked.Perm (ways.flatMap (·.1)) ∧ out = ways.flatMap (·.2) := by
  cases round with
  | @ok turns rss tasks cells of =>
    have finished : ∀ t ∈ turns, t.asked = t.heard ∧
        t.task.worker.Goes t.task.records t.heard [] (.finished t.cell.records) := by
      intro t m
      have cell := List.mem_map_of_mem (f := Turn.cell) m
      rw [cells] at cell
      obtain ⟨rs, -, cell⟩ := List.mem_map.mp cell
      have goes := t.goes
      rw [← cell] at goes ⊢
      obtain ⟨none, -⟩ := goes.questions_of_finished
      rw [none] at goes
      rw [Turn.asked, none, List.append_nil]
      exact ⟨rfl, goes⟩
    refine ⟨turns.map fun t => (t.heard, t.cell.records), ?ways, ?asked, ?out⟩
    case ways =>
      rw [Task.chunked_eq, ← List.forall₂_eq_eq_eq, List.forall₂_map_left_iff,
        List.forall₂_map_right_iff] at tasks
      refine List.forall₂_map_right_iff.mpr ?_
      refine ((List.forall₂_and_left _ _).mpr ⟨finished, tasks⟩).flip.imp ?_
      rintro r t ⟨⟨-, goes⟩, task⟩
      rw [task] at goes
      exact goes
    case asked =>
      rw [List.flatMap_map]
      refine of.asked.trans (.of_eq (List.flatMap_congr ?_))
      exact fun t m => (finished t m).1
    case out =>
      have records := congrArg (List.map Cell.records) cells
      simp only [List.map_map] at records
      rw [List.flatMap_map, List.flatMap_def]
      refine congrArg List.flatten (Eq.trans ?_ records.symm)
      exact (List.map_id rss).symm

/-- What holds chunk by chunk, by what was asked, holds of the whole. -/
theorem Round.forall₂_of_asked_chunks {size : Nat} {records : List R} {items : List S} {P : S → R → Prop}
    {worker : Range → List R → Worker Q A ε R} (length : items.length = records.length)
    (round : Round (Task.chunked size records worker) part (.ok out))
    (each : ∀ r ∈ Chunk.ranges records.length size, ∀ heard out, heard ⊆ part.asked →
      (worker r (r.part records)).Goes (r.part records) heard [] (.finished out) →
        List.Forall₂ P (r.part items) out) : List.Forall₂ P items out := by
  obtain ⟨ways, went, asked, rfl⟩ := round.exists_ways
  have slices : Chunk.slices size items = (Chunk.ranges records.length size).map (·.part items) :=
    length ▸ Chunk.slices_eq size items
  have own : ∀ way ∈ ways, way.1 ⊆ part.asked := fun way m x n =>
    asked.mem_iff.mpr (List.mem_flatMap.mpr ⟨way, m, n⟩)
  rw [← Chunk.flatten_slices size items, slices, List.flatMap_def]
  refine List.rel_flatten (List.forall₂_map_left_iff.mpr (List.forall₂_map_right_iff.mpr ?_))
  have here := ((List.forall₂_and_left _ _).mpr ⟨fun _ => id, went⟩).flip
  refine ((List.forall₂_and_left _ _).mpr ⟨own, here⟩).flip.imp ?_
  rintro r way ⟨heard, m, goes⟩
  exact each r m _ _ heard goes

/-- What holds chunk by chunk holds of the whole. -/
theorem Round.forall₂_of_chunks {size : Nat} {records : List R} {items : List S} {P : S → R → Prop}
    {worker : Range → List R → Worker Q A ε R} (length : items.length = records.length)
    (round : Round (Task.chunked size records worker) part (.ok out))
    (each : ∀ r ∈ Chunk.ranges records.length size, ∀ heard due out,
      (worker r (r.part records)).Goes (r.part records) heard due (.finished out) →
        List.Forall₂ P (r.part items) out) : List.Forall₂ P items out :=
  round.forall₂_of_asked_chunks length fun r m heard out _ goes => each r m heard [] out goes

end PoolSnapshot
