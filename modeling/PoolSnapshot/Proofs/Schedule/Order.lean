import PoolSnapshot.Proofs.Chunk.Partition
import PoolSnapshot.Schedule.Step
import Mathlib.Data.List.Forall2

/-!
The order of moves does not matter. Every worker comes to what it comes to alone, every order of moves
comes to an end, and without a failure that end is what the tasks come to one after another.
-/
namespace PoolSnapshot

variable {Q A ε R : Type} {answer : Q → A}

/-- Every question got the answer that it always gets. -/
def Answered (answer : Q → A) (asked : List (Q × A)) : Prop := ∀ p ∈ asked, p.2 = answer p.1

namespace Answered

theorem nil : Answered answer [] := by
  intro p m
  contradiction

theorem append_iff {asked asked' : List (Q × A)} :
    Answered answer (asked ++ asked') ↔ Answered answer asked ∧ Answered answer asked' := by
  simp only [Answered, List.mem_append, or_imp, forall_and]

end Answered

def Task.alone (answer : Q → A) (τ : Task Q A ε R) : List R × Option ε :=
  τ.worker.run answer τ.records

namespace Cell

/-- A started task is on its way to what it comes to alone, or is there. -/
def Follows (answer : Q → A) (τ : Task Q A ε R) : Cell Q A ε R → Prop
  | .running rs ω => ω.run answer rs = τ.alone answer
  | .finished rs => τ.alone answer = (rs, none)
  | .failed rs e => τ.alone answer = (rs, some e)

theorem Step.follows {c c' : Cell Q A ε R} {τ : Task Q A ε R} (m : c.Step l c')
    (a : Answered answer l.toList) (h : c.Follows answer τ) : c'.Follows answer τ := by
  cases m with
  | ask a' =>
    have e := a _ List.mem_cons_self
    simp only at e
    subst e
    exact h
  | change f =>
    simp only [Follows, Worker.run, Move.effect, f] at h ⊢
    exact h
  | fail f =>
    simp only [Follows, Worker.run, Move.effect, f] at h ⊢
    exact h.symm
  | finish => exact h.symm

theorem exists_step (answer : Q → A) (rs : List R) (ω : Worker Q A ε R) :
    ∃ l c, (Cell.running rs ω).Step l c ∧ Answered answer l.toList := by
  cases ω with
  | nil => exact ⟨none, _, .finish, .nil⟩
  | cons m ω =>
    cases m with
    | ask q f => exact ⟨some (q, answer q), _, .ask (answer q), by simp [Answered]⟩
    | change f =>
      cases e : f rs with
      | mk rs' o =>
        cases o with
        | none => exact ⟨none, _, .change e, .nil⟩
        | some err => exact ⟨none, _, .fail e, .nil⟩

end Cell

namespace Progress

/-- The started tasks are the first ones, each with its cell, and the others wait. -/
def Tracks (answer : Q → A) (τs : List (Task Q A ε R)) (π : Progress Q A ε R) : Prop :=
  ∃ started, τs = started ++ π.waiting ∧ List.Forall₂ (Cell.Follows answer) started π.cells

theorem forall₂_replace {P : α → β → Prop} {as : List α} {cs ds : List β} {c c' : β}
    (h : List.Forall₂ P as (cs ++ c :: ds)) (k : ∀ a, P a c → P a c') :
    List.Forall₂ P as (cs ++ c' :: ds) := by
  induction cs generalizing as with
  | nil =>
    cases h with
    | cons p t => exact .cons (k _ p) t
  | cons d cs ih =>
    cases h with
    | cons p t => exact .cons p (ih t)

theorem forall₂_snoc {P : α → β → Prop} {as : List α} {bs : List β} (h : List.Forall₂ P as bs)
    (p : P a b) : List.Forall₂ P (as ++ [a]) (bs ++ [b]) := by
  induction h with
  | nil => exact .cons p .nil
  | cons q _ ih => exact .cons q ih

variable {π π' : Progress Q A ε R} {τs : List (Task Q A ε R)}

theorem Step.tracks (h : π.Step limit l π') (a : Answered answer l.toList)
    (t : Tracks answer τs π) : Tracks answer τs π' := by
  obtain ⟨started, e, f⟩ := t
  cases h with
  | @start τ rest cs h room =>
    refine ⟨started ++ [τ], ?_, forall₂_snoc f rfl⟩
    rw [e, List.append_assoc]
    rfl
  | move h m => exact ⟨started, e, forall₂_replace f fun τ => m.follows a⟩

theorem Reaches.tracks (h : π.Reaches limit asked π') (a : Answered answer asked)
    (t : Tracks answer τs π) : Tracks answer τs π' := by
  induction h with
  | refl => exact t
  | step s _ ih =>
    obtain ⟨now, later⟩ := Answered.append_iff.mp a
    exact ih later (s.tracks now t)

theorem tracks_start (τs : List (Task Q A ε R)) : Tracks answer τs (start τs) := ⟨[], rfl, .nil⟩

theorem runAll_of_finished {rss : List (List R)}
    (h : List.Forall₂ (Cell.Follows answer) τs (rss.map Cell.finished)) :
    Task.runAll answer τs = .ok rss.flatten := by
  induction rss generalizing τs with
  | nil =>
    cases h
    rfl
  | cons rs rss ih =>
    cases h with
    | cons f t =>
      simp only [Cell.Follows, Task.alone] at f
      simp only [Task.runAll, f, ih t]
      rfl

theorem runAll_of_failed {τ : Task Q A ε R} (m : τ ∈ τs) (h : (τ.alone answer).2 = some e) :
    ∃ e', Task.runAll answer τs = .error e' := by
  induction τs with
  | nil => contradiction
  | cons σ τs ih =>
    rw [Task.runAll]
    split
    -- An earlier task may fail too, and then its failure is the one that counts.
    next e' _ => exact ⟨e', rfl⟩
    next rs ok =>
      cases m with
      | head => simp [Task.alone, ok] at h
      | tail _ m =>
        obtain ⟨e', r⟩ := ih m
        exact ⟨e', by rw [r]; rfl⟩

theorem fails_alone {started : List (Task Q A ε R)} {cs : List (Cell Q A ε R)}
    (t : List.Forall₂ (Cell.Follows answer) started cs) (h : cs.findSome? Cell.failure? = some e) :
    ∃ τ ∈ started, (τ.alone answer).2 = some e := by
  induction t with
  | nil => contradiction
  | @cons τ c started cs f _ ih =>
    cases c with
    | failed rs e' =>
      cases h
      exact ⟨τ, List.mem_cons_self, by rw [f]⟩
    | running rs ω | finished rs =>
      obtain ⟨σ, m, r⟩ := ih h
      exact ⟨σ, List.mem_cons_of_mem _ m, r⟩

theorem Tracks.fails (t : Tracks answer τs π) (h : π.failure? = some e) :
    ∃ τ ∈ τs, (τ.alone answer).2 = some e := by
  obtain ⟨started, rfl, f⟩ := t
  obtain ⟨τ, m, r⟩ := fails_alone f h
  exact ⟨τ, List.mem_append_left _ m, r⟩

theorem Tracks.ends {r : Except ε (List R)} (t : Tracks answer τs π) (h : π.Ends r) :
    ∀ rs, r = .ok rs ↔ Task.runAll answer τs = .ok rs := by
  cases h with
  | ok rss =>
    obtain ⟨started, e, f⟩ := t
    rw [List.append_nil] at e
    subst e
    rw [runAll_of_finished f]
    simp
  | error failed =>
    obtain ⟨τ, m, f⟩ := t.fails failed
    obtain ⟨e', r⟩ := runAll_of_failed m f
    rw [r]
    simp

theorem finished_or_running {cs : List (Cell Q A ε R)} (ok : cs.findSome? Cell.failure? = none) :
    (∃ rss : List (List R), cs = rss.map .finished) ∨
      ∃ pre rs ω post, cs = pre ++ Cell.running rs ω :: post := by
  induction cs with
  | nil => exact .inl ⟨[], rfl⟩
  | cons c cs ih =>
    cases c with
    | failed rs e => cases ok
    | running rs ω => exact .inr ⟨[], rs, ω, cs, rfl⟩
    | finished rs =>
      rcases ih ok with ⟨rss, rfl⟩ | ⟨pre, rs', ω, post, rfl⟩
      · exact .inl ⟨rs :: rss, rfl⟩
      · exact .inr ⟨.finished rs :: pre, rs', ω, post, rfl⟩

/-- Once all that started has finished, there is room for one more. -/
theorem running_finished_lt (limit : Nat) (rss : List (List R)) (τs : List (Task Q A ε R)) :
    running ⟨rss.map .finished, τs⟩ < max 1 limit := by
  have none : (rss.map .finished).countP (Cell.isRunning (Q := Q) (A := A) (ε := ε)) = 0 := by
    rw [List.countP_eq_zero]
    simp [Cell.isRunning]
  simp only [running, none]
  omega

/-- Without a failure there is a next move until everything is finished. -/
theorem exists_step (answer : Q → A) (limit : Nat) (ok : π.failure? = none) :
    (∃ rs, π.Ends (.ok rs)) ∨ ∃ l π', π.Step limit l π' ∧ Answered answer l.toList := by
  obtain ⟨cs, ws⟩ := π
  rcases finished_or_running ok with ⟨rss, rfl⟩ | ⟨pre, rs, ω, post, rfl⟩
  · cases ws with
    | nil => exact .inl ⟨_, .ok rss⟩
    | cons τ ws => exact .inr ⟨none, _, .start ok (running_finished_lt limit rss (τ :: ws)), .nil⟩
  · obtain ⟨l, c, m, a⟩ := Cell.exists_step answer rs ω
    exact .inr ⟨l, _, .move ok m, a⟩

end Progress

end PoolSnapshot
