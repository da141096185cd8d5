import PoolSnapshot.Proofs.Schedule.Clock
import PoolSnapshot.Proofs.Schedule.Limit
import PoolSnapshot.Proofs.Traverse

/-!
The first failure ends everything. A history says what each step did; a failure in it comes last, chunks
that had not started by then are as they were, and of chunks one at a time it is the first that fails.
-/
namespace PoolSnapshot

open Chunk (ranges)

variable {σ Q A ε R : Type}

/-- What a step does: the next worker starts, or one that started moves on, is done or fails. -/
inductive Event (ε : Type) where
  | start (k : Nat)
  | move (k : Nat)
  | finish (k : Nat)
  | fail (k : Nat) (e : ε)

def Event.started? : Event ε → Option Nat
  | .start k => some k
  | _ => none

theorem Event.mem_started {ηs : List (Event ε)} : k ∈ ηs.filterMap started? ↔ .start k ∈ ηs := by
  rw [List.mem_filterMap]
  refine ⟨fun ⟨η, m, same⟩ => ?_, fun m => ⟨_, m, rfl⟩⟩
  cases η <;> cases same
  exact m

namespace Cell

variable {c : Cell Q A ε R}

/-- What worker `k` does when it comes to this cell. -/
def event (k : Nat) : Cell Q A ε R → Event ε
  | .running .. => .move k
  | .finished _ => .finish k
  | .failed _ e => .fail k e

theorem event_eq_fail : c.event k = .fail j e ↔ k = j ∧ ∃ rs, c = .failed rs e := by
  cases c <;> simp [event]

theorem started?_event (k : Nat) (c : Cell Q A ε R) : (c.event k).started? = none := by
  cases c <;> rfl

theorem failure?_eq_some : c.failure? = some e ↔ ∃ rs, c = .failed rs e := by
  cases c <;> simp [failure?]

end Cell

namespace Progress

inductive Does (limit : Nat) :
    Progress Q A ε R → Option (Q × A) → Event ε → Progress Q A ε R → Prop
  | start (s : Step limit π l π') (new : π.Starts τ π') : Does limit π l (.start π.cells.length) π'
  | move {cs ds : List (Cell Q A ε R)} (s : Step limit ⟨cs ++ c :: ds, τs⟩ l ⟨cs ++ c' :: ds, τs⟩)
      (m : c.Step l c') (same : c'.event cs.length = η) :
      Does limit ⟨cs ++ c :: ds, τs⟩ l η ⟨cs ++ c' :: ds, τs⟩

/-- Many steps, with all that was asked and all that they did, in order. -/
inductive History (limit : Nat) :
    Progress Q A ε R → List (Q × A) → List (Event ε) → Progress Q A ε R → Prop
  | refl (π : Progress Q A ε R) : History limit π [] [] π
  | step (d : Does limit π l η π') (t : History limit π' asked ηs π'') :
      History limit π (l.toList ++ asked) (η :: ηs) π''

variable {limit : Nat} {π π' : Progress Q A ε R} {τs : List (Task Q A ε R)} {asked : List (Q × A)}
  {ηs : List (Event ε)}

theorem Step.exists_does (s : π.Step limit l π') : ∃ η, π.Does limit l η π' := by
  cases s with
  | start ok room => exact ⟨_, .start (.start ok room) ⟨rfl, rfl⟩⟩
  | move ok m => exact ⟨_, .move (.move ok m) m rfl⟩

theorem Step.fine (s : π.Step limit l π') : π.failure? = none := by
  cases s <;> assumption

theorem failure?_others {cs ds : List (Cell Q A ε R)} {c : Cell Q A ε R}
    (fine : failure? ⟨cs ++ c :: ds, τs⟩ = none) : failure? ⟨cs ++ ds, τs⟩ = none := by
  simp only [failure?, List.findSome?_append, List.findSome?_cons, Option.or_eq_none_iff] at fine ⊢
  refine fine.imp_right fun rest => ?_
  cases own : c.failure? <;> simp_all

theorem reaches_iff_history : π.Reaches limit asked π' ↔ ∃ ηs, π.History limit asked ηs π' := by
  constructor
  · intro h
    induction h with
    | refl => exact ⟨[], .refl _⟩
    | step s _ ih =>
      obtain ⟨η, d⟩ := s.exists_does
      obtain ⟨ηs, t⟩ := ih
      exact ⟨η :: ηs, .step d t⟩
  · rintro ⟨ηs, h⟩
    induction h with
    | refl => exact .refl _
    | step d _ ih =>
      cases d with
      | start s _ | move s _ _ => exact .step s ih

namespace Does

variable {η : Event ε}

theorem step (d : π.Does limit l η π') : π.Step limit l π' := by
  cases d <;> assumption

theorem failed (d : π.Does limit l (.fail k e) π') : ∃ rs, π'.cells[k]? = some (.failed rs e) := by
  cases d with
  | move s m same =>
    obtain ⟨rfl, rs, rfl⟩ := Cell.event_eq_fail.mp same
    exact ⟨rs, by simp⟩

theorem failure?_iff (d : π.Does limit l η π') : π'.failure? = some e ↔ ∃ k, η = .fail k e := by
  cases d with
  | @start π l π' τ s new =>
    have fine : failure? ⟨π.cells ++ [], π.waiting⟩ = none := (List.append_nil π.cells).symm ▸ s.fine
    have none : π'.failure? = none := by
      rw [failure?, new.cells]
      exact failure?_at fine _
    simp [none]
  | @move c τs l c' η cs ds s m same =>
    rw [failure?_at (failure?_others s.fine), Cell.failure?_eq_some, ← same]
    simp [Cell.event_eq_fail]

theorem starts (d : π.Does limit l η π') :
    (η = .start π.cells.length ∧ π'.cells.length = π.cells.length + 1) ∨
      (η.started? = none ∧ π'.cells.length = π.cells.length) := by
  cases d with
  | start s new =>
    rw [new.cells]
    exact .inl ⟨rfl, List.length_append⟩
  | move s m same => exact .inr ⟨same ▸ Cell.started?_event _ _, by simp⟩

/-- A worker that is done was done before, or this is when it was. -/
theorem finishes (d : π.Does limit l η π') (done : π'.cells[j]? = some (.finished rs)) :
    η = .finish j ∨ π.cells[j]? = some (.finished rs) := by
  cases d with
  | @start π l π' τ s new =>
    rw [new.cells] at done
    by_cases last : j = π.cells.length
    · subst last
      simp at done
    · exact .inr (getElem?_snoc _ last ▸ done)
  | @move c τs l c' η cs ds s m same =>
    by_cases here : j = cs.length
    · subst here
      obtain rfl : c' = .finished rs := by simpa using done
      exact .inl same.symm
    · exact .inr (getElem?_replace here ▸ done)

end Does

namespace History

/-- After a failure nothing starts and nothing moves. -/
theorem stuck (h : π.History limit asked ηs π') (failed : π.failure? = some e) :
    asked = [] ∧ ηs = [] ∧ π' = π := by
  cases h with
  | refl => exact ⟨rfl, rfl, rfl⟩
  | step d _ =>
    rw [d.step.fine] at failed
    cases failed

theorem of_fail (h : π.History limit asked ηs π') (m : .fail k e ∈ ηs) :
    (∃ rs, π'.cells[k]? = some (.failed rs e)) ∧ π'.failure? = some e ∧
      ∃ before, ηs = before ++ [.fail k e] ∧ ∀ j e', .fail j e' ∉ before := by
  induction h with
  | refl => cases m
  | @step π l η π' asked ηs π'' d t ih =>
    rcases List.mem_cons.mp m with rfl | later
    · have now := d.failure?_iff.mpr ⟨k, rfl⟩
      obtain ⟨-, rfl, rfl⟩ := t.stuck now
      exact ⟨d.failed, now, [], rfl, nofun⟩
    · obtain ⟨cell, failed, before, rfl, none⟩ := ih later
      refine ⟨cell, failed, η :: before, rfl, fun j e' here => ?_⟩
      rcases List.mem_cons.mp here with rfl | here
      -- Had this step failed, there would have been none after it.
      · obtain ⟨-, nothing, -⟩ := t.stuck (d.failure?_iff.mpr ⟨j, rfl⟩)
        simp at nothing
      · exact none j e' here

theorem failure?_iff (h : π.History limit asked ηs π') (fine : π.failure? = none) :
    π'.failure? = some e ↔ ∃ k, .fail k e ∈ ηs := by
  refine ⟨fun failed => ?_, fun ⟨k, m⟩ => (h.of_fail m).2.1⟩
  induction h with
  | refl =>
    rw [fine] at failed
    cases failed
  | @step π l η π' asked ηs π'' d t ih =>
    cases now : π'.failure? with
    | none =>
      obtain ⟨k, m⟩ := ih now failed
      exact ⟨k, List.mem_cons_of_mem _ m⟩
    | some e' =>
      obtain ⟨-, rfl, rfl⟩ := t.stuck now
      obtain ⟨k, rfl⟩ := d.failure?_iff.mp failed
      exact ⟨k, List.mem_cons_self⟩

/-- Workers start in the order of their chunks, each once. -/
theorem starts (h : π.History limit asked ηs π') :
    ∃ n, π'.cells.length = π.cells.length + n ∧
      ηs.filterMap Event.started? = List.range' π.cells.length n := by
  induction h with
  | refl => exact ⟨0, rfl, rfl⟩
  | step d _ ih =>
    obtain ⟨n, length, started⟩ := ih
    rcases d.starts with ⟨rfl, one⟩ | ⟨none, same⟩
    · refine ⟨n + 1, by omega, ?_⟩
      simp only [List.filterMap_cons, Event.started?, started, one, List.range'_succ]
    · refine ⟨n, by omega, ?_⟩
      rw [List.filterMap_cons_none none, started, same]

theorem finishes (h : π.History limit asked ηs π') (done : π'.cells[j]? = some (.finished rs)) :
    .finish j ∈ ηs ∨ π.cells[j]? = some (.finished rs) := by
  induction h with
  | refl => exact .inr done
  | step d _ ih =>
    rcases ih done with m | done
    · exact .inl (List.mem_cons_of_mem _ m)
    · rcases d.finishes done with rfl | before
      · exact .inl List.mem_cons_self
      · exact .inr before

end History

theorem ends_iff_of_failed {r : Except ε (List R)} (failed : π.failure? = some e) :
    π.Ends r ↔ r = .error e := by
  refine ⟨fun ends => ?_, fun same => same ▸ .error failed⟩
  cases ends with
  | ok rss =>
    have fine := failure?_finished (Q := Q) (A := A) (ε := ε) rss []
    rw [List.append_nil] at fine
    rw [fine] at failed
    cases failed
  | error other =>
    rw [failed] at other
    cases other
    rfl

/-- Of the workers that started all but the last are done. -/
def OneByOne (π : Progress Q A ε R) : Prop := ∃ rss : List (List R), π.cells.dropLast = rss.map .finished

theorem Step.oneByOne (s : π.Step limit l π') (one : limit ≤ 1) (h : π.OneByOne) : π'.OneByOne := by
  cases s with
  | start ok room =>
    rcases finished_or_running ok with ⟨rss, done⟩ | ⟨pre, rs, ω, post, same⟩
    · exact ⟨rss, List.dropLast_concat.trans done⟩
    -- One that is running would leave no room.
    · obtain rfl := same
      simp only [running, List.countP_append, List.countP_cons, Cell.isRunning, if_true] at room
      omega
  | @move c τs l c' cs ds ok m =>
    obtain ⟨rss, done⟩ := h
    cases ds with
    | nil => exact ⟨rss, List.dropLast_concat.trans (List.dropLast_concat.symm.trans done)⟩
    | cons d ds =>
      have inside : c ∈ (cs ++ c :: d :: ds).dropLast := by simp
      obtain ⟨rs, -, rfl⟩ := List.mem_map.mp (done ▸ inside)
      cases m

theorem Reaches.oneByOne (h : π.Reaches limit asked π') (one : limit ≤ 1) (start : π.OneByOne) :
    π'.OneByOne := by
  induction h with
  | refl => exact start
  | step s _ ih => exact ih (s.oneByOne one start)

/-- One at a time, the worker that fails is the last that started. -/
theorem OneByOne.of_failed (h : π.OneByOne) (failed : π.cells[k]? = some (.failed rs e)) :
    π.cells.length = k + 1 ∧ ∀ j < k, ∃ rs, π.cells[j]? = some (.finished rs) := by
  obtain ⟨rss, done⟩ := h
  have length := congrArg List.length done
  rw [List.length_dropLast, List.length_map] at length
  have before {j : Nat} (lt : j < rss.length) : π.cells[j]? = some (.finished rss[j]) := by
    have here := congrArg (·[j]?) done
    simp only [List.getElem?_dropLast] at here
    rw [if_pos (by omega)] at here
    simpa [lt] using here
  have last : ¬k < rss.length := by
    intro lt
    rw [before lt] at failed
    cases failed
  obtain ⟨inside, -⟩ := List.getElem?_eq_some_iff.mp failed
  exact ⟨by omega, fun j lt => ⟨_, before (j := j) (by omega)⟩⟩

theorem Tracks.follows_at {answer : Q → A} {c : Cell Q A ε R} {j : Nat} (t : Tracks answer τs π)
    (here : π.cells[j]? = some c) :
    ∃ τ, τs[j]? = some τ ∧ c.Follows answer τ := by
  obtain ⟨started, rfl, follows⟩ := t
  obtain ⟨τ, there, f⟩ := Traverse.exists_getElem? follows here
  obtain ⟨inside, -⟩ := List.getElem?_eq_some_iff.mp there
  exact ⟨τ, (List.getElem?_append_left inside).trans there, f⟩

end Progress

/-- One task after another, the first that fails alone decides. -/
theorem Task.runAll_eq_error {answer : Q → A} {τs : List (Task Q A ε R)} {τ : Task Q A ε R} {k : Nat}
    (before : ∀ j < k, ∃ τ rs, τs[j]? = some τ ∧ τ.alone answer = (rs, none)) (here : τs[k]? = some τ)
    (failed : τ.alone answer = (rs, some e)) : runAll answer τs = .error e := by
  induction τs generalizing k with
  | nil => cases here
  | cons σ τs ih =>
    cases k with
    | zero =>
      cases here
      simp only [alone] at failed
      rw [runAll, failed]
    | succ k =>
      obtain ⟨_, rs', same, fine⟩ := before 0 (Nat.succ_pos k)
      cases same
      have rest := ih (fun j lt => before (j + 1) (Nat.succ_lt_succ lt)) here
      simp only [alone] at fine
      rw [runAll, fine, rest]
      rfl

/-- The first worker to fail decides what comes out, and with it everything stops. Of chunks that go one at a
time it is the first that fails. -/
theorem Task.chunked_first_failure (size limit : Nat) (records : List R)
    (worker : Range → List R → Worker Q A ε R) (peer : Clock.Peer σ Q A) (now : Nat) (s : σ) :
    let rs := ranges records.length size
    let τs := chunked size records worker
    (∀ asked π, (Progress.start τs).Reaches limit asked π ↔
      ∃ ηs, (Progress.start τs).History limit asked ηs π) ∧
    (∀ asked ηs π, (Progress.start τs).History limit asked ηs π →
      (∀ e, π.Ends (.error e) ↔ ∃ k, .fail k e ∈ ηs) ∧
      ∀ k e, .fail k e ∈ ηs →
        ∃ before, ηs = before ++ [.fail k e] ∧ (∀ j e', .fail j e' ∉ before) ∧
          (∀ r, π.Ends r ↔ r = .error e) ∧
          (∀ asked' ηs' π', π.History limit asked' ηs' π' → asked' = [] ∧ ηs' = [] ∧ π' = π) ∧
          before.filterMap Event.started? = List.range π.cells.length ∧
          π.waiting = τs.drop π.cells.length ∧ (∃ rs, π.cells[k]? = some (.failed rs e)) ∧
          ((∀ r, ∀ m ∈ worker r (r.part records), m.InPlace) →
            ∀ i < records.length, (∀ j r, .start j ∈ before → rs[j]? = some r → ¬(r.start ≤ i ∧ i < r.stop)) →
              π.records[i]? = records[i]?) ∧
          (limit ≤ 1 → π.cells.length = k + 1 ∧ (∀ j < k, .finish j ∈ before) ∧
            ∀ answer, Answered answer asked → runAll answer τs = .error e ∧
              (∀ j < k, ∃ τ rs, τs[j]? = some τ ∧ τ.alone answer = (rs, none)) ∧
              ∃ τ rs, τs[k]? = some τ ∧ τ.alone answer = (rs, some e))) ∧
    let (φ, o) := Clock.run peer limit τs now s
    ∃ asked ηs π, (Progress.start τs).History limit asked ηs π ∧
      Clock.Serves peer now s asked φ.now φ.peer ∧ φ.records = π.blocks ∧ π.Ends (φ.result o) ∧
      ∀ e, o = some e ↔ ∃ k, .fail k e ∈ ηs := by
  intro rs τs
  have ends {asked : List (Q × A)} {ηs : List (Event ε)} {π : Progress Q A ε R}
      (h : (Progress.start τs).History limit asked ηs π) (e : ε) :
      π.Ends (.error e) ↔ ∃ k, .fail k e ∈ ηs := by
    rw [← h.failure?_iff rfl]
    exact ⟨fun ends => by cases ends; assumption, .error⟩
  refine ⟨fun asked π => Progress.reaches_iff_history, fun asked ηs π h => ⟨ends h, ?stop⟩, ?clock⟩
  case stop =>
    intro k e m
    obtain ⟨⟨left, cell⟩, failed, before, rfl, first⟩ := h.of_fail m
    have reaches := Progress.reaches_iff_history.mpr ⟨_, h⟩
    obtain ⟨n, length, started⟩ := h.starts
    obtain rfl : n = π.cells.length := (length.trans (Nat.zero_add n)).symm
    have started : before.filterMap Event.started? = List.range π.cells.length := by
      simp only [List.filterMap_append, List.filterMap_cons, Event.started?, List.filterMap_nil,
        List.append_nil] at started
      exact started.trans List.range_eq_range'.symm
    refine ⟨before, rfl, first, fun r => Progress.ends_iff_of_failed failed, ?stuck, started, reaches.waiting rfl,
      ⟨left, cell⟩, ?waits, ?first⟩
    case stuck => exact fun asked' ηs' π' t => t.stuck failed
    case waits =>
      intro inPlace i inside others
      refine reaches.getElem?_records inPlace inside fun r m => ?_
      obtain ⟨j, lt, here⟩ := Traverse.exists_of_mem_take m
      have mem : j ∈ before.filterMap Event.started? := started ▸ List.mem_range.mpr lt
      exact others j r (Event.mem_started.mp mem) here
    case first =>
      intro one
      obtain ⟨length, done⟩ := (reaches.oneByOne one ⟨[], rfl⟩).of_failed cell
      refine ⟨length, fun j lt => ?_, fun answer a => ?_⟩
      · obtain ⟨rs, done⟩ := done j lt
        have m := (h.finishes done).resolve_right nofun
        exact (List.mem_append.mp m).resolve_right (by simp)
      · have t := reaches.tracks a (Progress.tracks_start τs)
        obtain ⟨τ, here, failed⟩ := t.follows_at cell
        have before : ∀ j < k, ∃ τ rs, τs[j]? = some τ ∧ τ.alone answer = (rs, none) := by
          intro j lt
          obtain ⟨rs, done⟩ := done j lt
          obtain ⟨τ, here, fine⟩ := t.follows_at done
          exact ⟨τ, rs, here, fine⟩
        exact ⟨runAll_eq_error before here failed, before, τ, left, here, failed⟩
  case clock =>
    cases run : Clock.run peer limit τs now s with
    | mk φ o =>
      obtain ⟨asked, π, reaches, serves, records, result⟩ := Clock.run_reaches peer limit τs now s run
      obtain ⟨ηs, h⟩ := Progress.reaches_iff_history.mp reaches
      refine ⟨asked, ηs, π, h, serves, records, result, fun e => ?_⟩
      rw [← ends h e]
      constructor
      · rintro rfl
        exact result
      · intro failed
        cases failed with
        | error failed =>
          have same := (Progress.ends_iff_of_failed failed).mp result
          cases o <;> cases same
          rfl

/-- The second of three chunks fails: with two at a time while the first waits for an answer, and with one at a
time after the first is done. The third never starts. -/
theorem Task.chunked_first_failure_second :
    let worker (r : Range) (_ : List Nat) : Worker Unit Nat String Nat :=
      if r.start = 1 then [.change fun rs => (rs, some "late")] else [.ask () fun a rs => (rs.map (· + a), none)]
    let τs := chunked 1 [1, 2, 3] worker
    ∃ π π', (Progress.start τs).History 2 [((), 7)] [.start 0, .start 1, .move 0, .fail 1 "late"] π ∧
      π.Ends (.error "late") ∧ π.records[2]? = some 3 ∧
      (Progress.start τs).History 0 [((), 7)]
        [.start 0, .move 0, .move 0, .finish 0, .start 1, .fail 1 "late"] π' ∧
      π'.Ends (.error "late") ∧ π'.cells.length = 2 ∧ runAll (fun _ => 7) τs = .error "late" := by
  intro worker τs
  let add (a : Nat) : Effect String Nat := fun rs => (rs.map (· + a), none)
  let asks : Worker Unit Nat String Nat := [.ask () add]
  let fails : Worker Unit Nat String Nat := [.change fun rs => (rs, some "late")]
  have e : τs = [⟨[1], asks⟩, ⟨[2], fails⟩, ⟨[3], asks⟩] := chunked_eq 1 [1, 2, 3] worker
  let π : Progress Unit Nat String Nat := ⟨[.running [1] [.change (add 7)], .failed [2] "late"], [⟨[3], asks⟩]⟩
  let π' : Progress Unit Nat String Nat := ⟨[.finished [8], .failed [2] "late"], [⟨[3], asks⟩]⟩
  have start (limit : Nat) (cs : List (Cell Unit Nat String Nat)) (τ : Task Unit Nat String Nat)
      (rest : List (Task Unit Nat String Nat)) (ok : Progress.failure? ⟨cs, τ :: rest⟩ = none)
      (room : Progress.running ⟨cs, τ :: rest⟩ < max 1 limit) :
      Progress.Does limit ⟨cs, τ :: rest⟩ none (.start cs.length) ⟨cs ++ [.running τ.records τ.worker], rest⟩ :=
    .start (.start ok room) ⟨rfl, rfl⟩
  have move (limit : Nat) (cs ds : List (Cell Unit Nat String Nat)) (rest : List (Task Unit Nat String Nat))
      {c c' : Cell Unit Nat String Nat} {l : Option (Unit × Nat)}
      (ok : Progress.failure? ⟨cs ++ c :: ds, rest⟩ = none) (m : c.Step l c') :
      Progress.Does limit ⟨cs ++ c :: ds, rest⟩ l (c'.event cs.length) ⟨cs ++ c' :: ds, rest⟩ :=
    .move (.move ok m) m rfl
  have two : (Progress.start τs).History 2 [((), 7)] [.start 0, .start 1, .move 0, .fail 1 "late"] π := by
    rw [e]
    refine .step (start 2 [] _ _ rfl (by decide)) (.step (start 2 [_] _ _ rfl (by decide)) ?_)
    refine .step (move 2 [] [_] _ rfl (.ask 7)) ?_
    exact .step (move 2 [_] [] _ rfl (.fail rfl)) (.refl π)
  have one : (Progress.start τs).History 0 [((), 7)]
      [.start 0, .move 0, .move 0, .finish 0, .start 1, .fail 1 "late"] π' := by
    rw [e]
    refine .step (start 0 [] _ _ rfl (by decide)) (.step (move 0 [] [] _ rfl (.ask 7)) ?_)
    refine .step (move 0 [] [] _ rfl (.change rfl)) (.step (move 0 [] [] _ rfl .finish) ?_)
    refine .step (start 0 [_] _ _ rfl (by decide)) ?_
    exact .step (move 0 [_] [] _ rfl (.fail rfl)) (.refl π')
  have inPlace : ∀ r, ∀ m ∈ worker r (r.part [1, 2, 3]), m.InPlace := by
    intro r m mem
    dsimp only [worker] at mem
    split at mem <;> obtain rfl := List.mem_singleton.mp mem
    · exact fun rs => rfl
    · exact fun a rs => List.length_map _
  let peer : Clock.Peer Unit Unit Nat := fun _ _ s => (s, 7, 5)
  obtain ⟨-, together, -⟩ := chunked_first_failure 1 2 [1, 2, 3] worker peer 0 ()
  obtain ⟨-, after⟩ := together _ _ π two
  obtain ⟨before, -, -, ends, -, started, -, -, waits, -⟩ := after 1 "late" (by simp)
  obtain ⟨-, lined, -⟩ := chunked_first_failure 1 0 [1, 2, 3] worker peer 0 ()
  obtain ⟨-, after⟩ := lined _ _ π' one
  obtain ⟨_, -, -, ends', -, -, -, -, -, first⟩ := after 1 "late" (by simp)
  obtain ⟨length, -, ordered⟩ := first (Nat.zero_le 1)
  refine ⟨π, π', two, (ends _).mpr rfl, waits inPlace 2 (by decide) ?_, one, (ends' _).mpr rfl, length, ?_⟩
  · intro j r m here
    have lt : j < 2 := List.mem_range.mp (started ▸ Event.mem_started.mpr m)
    obtain rfl | rfl : j = 0 ∨ j = 1 := by omega
    · cases here
      decide
    · cases here
      decide
  · exact (ordered (fun _ => 7) (List.forall_mem_singleton.mpr rfl)).1

end PoolSnapshot
