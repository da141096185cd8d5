import PoolSnapshot.Program.Run
import PoolSnapshot.Proofs.Schedule.Turn

/-!
Runs stage by stage, whatever is answered and in whatever order tasks move. A stage ends with all its
tasks finished or with one that failed, and only the first opens the next stage.
-/
namespace PoolSnapshot

variable {Q A ε α β : Type}

/-- What a stage asked, in order, and the answers that its workers took in. An answer is left out where
another worker failed first. -/
structure Part (Q A : Type) where
  asked : List (Q × A)
  heard : List (Q × A)

structure Part.Of {R : Type} (part : Part Q A) (turns : List (Turn Q A ε R)) : Prop where
  asked : part.asked.Perm (turns.flatMap Turn.asked)
  heard : part.heard = turns.flatMap Turn.heard

/-- How the tasks of a stage went. -/
inductive Round {R : Type} (τs : List (Task Q A ε R)) (part : Part Q A) : Except ε (List R) → Prop
  | ok {turns : List (Turn Q A ε R)} {rss : List (List R)} (tasks : turns.map Turn.task = τs)
      (cells : turns.map Turn.cell = rss.map .finished) (of : part.Of turns) :
      Round τs part (.ok rss.flatten)
  | error {turns : List (Turn Q A ε R)} (tasks : turns.map Turn.task <+: τs)
      (fails : turns.filterMap Turn.failure? = [e]) (of : part.Of turns) : Round τs part (.error e)

/-- A stage that goes through asked what its tasks ask, in some order. -/
theorem Round.questions {R : Type} {τs : List (Task Q A ε R)} {out : List R}
    (round : Round τs part (.ok out)) :
    (part.asked.map (·.1)).Perm (τs.flatMap (·.worker.questions)) := by
  cases round with
  | @ok turns rss tasks cells of =>
    have each : ∀ t ∈ turns, t.asked.map (·.1) = t.task.worker.questions := by
      intro t m
      have cell := List.mem_map_of_mem (f := Turn.cell) m
      rw [cells] at cell
      obtain ⟨rs, -, finished⟩ := List.mem_map.mp cell
      have goes := t.goes
      rw [← finished] at goes
      obtain ⟨none, same⟩ := goes.questions_of_finished
      rw [Turn.asked, none, List.append_nil, same]
    refine (of.asked.map _).trans ?_
    rw [List.map_flatMap, List.flatMap_congr each, ← tasks, List.flatMap_map]

/-- Nothing is asked that no task asks. -/
theorem Round.mem_questions {R : Type} {τs : List (Task Q A ε R)} {r : Except ε (List R)}
    (round : Round τs part r) (m : x ∈ part.asked) : ∃ τ ∈ τs, x.1 ∈ τ.worker.questions := by
  have each {turns : List (Turn Q A ε R)} (of : part.Of turns) (tasks : turns.map Turn.task ⊆ τs) :
      ∃ τ ∈ τs, x.1 ∈ τ.worker.questions := by
    obtain ⟨t, here, n⟩ := List.mem_flatMap.mp (of.asked.mem_iff.mp m)
    refine ⟨t.task, tasks (List.mem_map_of_mem here), ?_⟩
    exact t.goes.questions_prefix.subset (List.mem_map_of_mem n)
  cases round with
  | ok tasks _ of => exact each of (tasks ▸ List.Subset.refl _)
  | error tasks _ of => exact each of tasks.subset

/-- One task failed, by answers that it got. -/
theorem Round.exists_failed {R : Type} {τs : List (Task Q A ε R)} (round : Round τs part (.error e)) :
    ∃ τ ∈ τs, ∃ heard due c, τ.worker.Goes τ.records heard due c ∧ c.failure? = some e ∧
      heard ++ due ⊆ part.asked := by
  cases round with
  | @error _ turns tasks fails of =>
    have one : e ∈ turns.filterMap Turn.failure? := fails ▸ List.mem_singleton_self e
    obtain ⟨t, here, failed⟩ := List.mem_filterMap.mp one
    refine ⟨t.task, tasks.subset (List.mem_map_of_mem here), t.heard, t.due, t.cell, t.goes, failed, ?_⟩
    intro x n
    exact of.asked.mem_iff.mpr (List.mem_flatMap.mpr ⟨t, here, n⟩)

theorem Progress.round {R : Type} {τs : List (Task Q A ε R)} {π : Progress Q A ε R} {r : Except ε (List R)}
    (h : (start τs).Reaches limit asked π) (e : π.Ends r) :
    ∃ part, Round τs part r ∧ part.asked = asked := by
  obtain ⟨turns, a⟩ := h.accounts (accounts_start τs)
  refine ⟨⟨asked, turns.flatMap Turn.heard⟩, ?_, rfl⟩
  have tasks := a.tasks
  cases e with
  | ok rss =>
    rw [List.append_nil] at tasks
    exact .ok tasks a.cells ⟨a.log, rfl⟩
  | @error _ e failed =>
    rw [a.failure?] at failed
    obtain ⟨pre, t, post, rfl, here, _⟩ := List.findSome?_eq_some_iff.mp failed
    have one := a.failures
    have some : e ∈ (pre ++ t :: post).filterMap Turn.failure? :=
      List.mem_filterMap.mpr ⟨t, by simp, here⟩
    have exactly := Nat.le_antisymm one (List.length_pos_of_mem some)
    obtain ⟨e', single⟩ := List.length_eq_one_iff.mp exactly
    rw [single] at some
    rw [List.eq_of_mem_singleton some]
    exact .error ⟨_, tasks⟩ single ⟨a.log, rfl⟩

namespace Program

inductive Course : Program Q A ε α → List (Part Q A) → Except ε α → Prop
  | done (r : Except ε α) : Course (.done r) [] r
  | next {τs : List (Task Q A ε R)} {rs : List R} (now : Round τs part (.ok rs)) (later : Course (next rs) parts r) :
      Course (.stage limit τs next) (part :: parts) r
  | stop {τs : List (Task Q A ε R)} (now : Round τs part (.error e)) :
      Course (.stage limit τs next) [part] (.error e)

theorem Run.course {P : Program Q A ε α} (h : P.Run asked r) :
    ∃ parts, P.Course parts r ∧ parts.flatMap Part.asked = asked := by
  induction h with
  | done r => exact ⟨[], .done r, rfl⟩
  | next h e _ ih =>
    obtain ⟨part, now, rfl⟩ := Progress.round h e
    obtain ⟨parts, later, rfl⟩ := ih
    exact ⟨part :: parts, .next now later, rfl⟩
  | stop h e =>
    obtain ⟨part, now, rfl⟩ := Progress.round h e
    exact ⟨[part], .stop now, List.append_nil _⟩

namespace Course

variable {P : Program Q A ε α} {k : α → Program Q A ε β}

theorem of_bind {r : Except ε β} (h : (P >>= k).Course parts r) :
    (∃ a parts₁ parts₂, parts = parts₁ ++ parts₂ ∧ P.Course parts₁ (.ok a) ∧ (k a).Course parts₂ r) ∨
      ∃ e, P.Course parts (.error e) ∧ r = .error e := by
  change (P.bind k).Course parts r at h
  induction P generalizing parts with
  | done s =>
    cases s with
    | ok a => exact .inl ⟨a, [], parts, rfl, .done _, h⟩
    | error e =>
      cases h
      exact .inr ⟨e, .done _, rfl⟩
  | stage limit τs next ih =>
    cases h with
    | stop now => exact .inr ⟨_, .stop now, rfl⟩
    | @next _ part _ parts _ _ _ rs now later =>
      rcases ih rs later with ⟨a, parts₁, parts₂, rfl, first, rest⟩ | ⟨e, first, rfl⟩
      · exact .inl ⟨a, part :: parts₁, parts₂, rfl, .next now first, rest⟩
      · exact .inr ⟨e, .next now first, rfl⟩

theorem of_together {R : Type} {τs : List (Task Q A ε R)} {r : Except ε (List R)}
    (h : (together limit τs).Course parts r) : ∃ part, parts = [part] ∧ Round τs part r := by
  cases h with
  | stop now => exact ⟨_, rfl, now⟩
  | next now later =>
    cases later
    exact ⟨_, rfl, now⟩

theorem of_done {s r : Except ε α} (h : (Program.done s).Course parts r) : parts = [] ∧ r = s := by
  cases h
  exact ⟨rfl, rfl⟩

theorem of_together_bind {R : Type} {τs : List (Task Q A ε R)} {k : List R → Program Q A ε β}
    {r : Except ε β} (h : (together limit τs >>= k).Course parts r) :
    (∃ part rest rs, parts = part :: rest ∧ (together limit τs).Course [part] (.ok rs) ∧
      (k rs).Course rest r) ∨
    ∃ part e, parts = [part] ∧ (together limit τs).Course [part] (.error e) ∧ r = .error e := by
  rcases of_bind h with ⟨rs, parts₁, parts₂, rfl, first, rest⟩ | ⟨e, first, rfl⟩
  · obtain ⟨part, rfl, -⟩ := of_together first
    exact .inl ⟨part, parts₂, rs, rfl, first, rest⟩
  · obtain ⟨part, rfl, -⟩ := of_together first
    exact .inr ⟨part, e, rfl, first, rfl⟩

theorem of_lift_bind {x : Except ε α} {r : Except ε β}
    (h : ((liftM x : Program Q A ε α) >>= k).Course parts r) :
    (∃ a, x = .ok a ∧ (k a).Course parts r) ∨ ∃ e, x = .error e ∧ parts = [] ∧ r = .error e := by
  rcases of_bind h with ⟨a, parts₁, parts₂, rfl, first, rest⟩ | ⟨e, first, rfl⟩
  · obtain ⟨rfl, e⟩ := of_done first
    exact .inl ⟨a, e.symm, rest⟩
  · obtain ⟨rfl, e'⟩ := of_done first
    exact .inr ⟨e, e'.symm, rfl, rfl⟩

end Course

end Program

end PoolSnapshot
