import PoolSnapshot.Program.Run
import PoolSnapshot.Proofs.Schedule.Clock

/-!
What a program returns when every question gets its one answer. The order of moves has no say in it:
it is what comes out when the tasks of every stage go one after another, and what comes out on a clock.
-/
namespace PoolSnapshot.Program

variable {Q A ε α : Type} {answer : Q → A} {P : Program Q A ε α} {r : Except ε α}

/-- Some order of moves leads here. -/
def Comes (answer : Q → A) (P : Program Q A ε α) (r : Except ε α) : Prop :=
  ∃ asked, P.Run asked r ∧ Answered answer asked

/-- Every order of moves leads here, and some does. -/
def Returns (answer : Q → A) (P : Program Q A ε α) (a : α) : Prop :=
  (∃ r, P.Comes answer r) ∧ ∀ r, P.Comes answer r → r = .ok a

theorem Run.ok_iff (h : P.Run asked r) (a : Answered answer asked) (x : α) :
    r = .ok x ↔ P.eval answer = .ok x := by
  induction h with
  | done r => rfl
  | @next R limit asked π rs asked' r τs next h e _ ih =>
    obtain ⟨now, later⟩ := Answered.append_iff.mp a
    have t := h.tracks now (Progress.tracks_start τs)
    rw [eval, (t.ends e rs).mp rfl]
    exact ih later
  | @stop R limit asked π err τs next h e =>
    have t := (h.tracks a (Progress.tracks_start τs)).ends e
    rw [eval]
    cases run : Task.runAll answer τs with
    | ok rs => cases (t rs).mpr run
    | error err' => simp

/-- Tasks one after another is an order of moves like any other. -/
theorem comes_eval (answer : Q → A) (P : Program Q A ε α) : P.Comes answer (P.eval answer) := by
  induction P with
  | done r => exact ⟨[], .done r, .nil⟩
  | stage limit τs next ih =>
    obtain ⟨asked, π, h, now, e⟩ := Progress.reaches_runAll answer limit [] τs
    rw [eval]
    cases all : Task.runAll answer τs with
    | error err =>
      rw [all] at e
      exact ⟨asked, .stop h e, now⟩
    | ok rs =>
      rw [all] at e
      obtain ⟨asked', t, later⟩ := ih rs
      exact ⟨_, .next h e t, Answered.append_iff.mpr ⟨now, later⟩⟩

theorem exists_comes (answer : Q → A) (P : Program Q A ε α) : ∃ r, P.Comes answer r :=
  ⟨_, comes_eval answer P⟩

theorem returns_iff (answer : Q → A) (P : Program Q A ε α) (a : α) :
    P.Returns answer a ↔ P.eval answer = .ok a := by
  constructor
  · rintro ⟨⟨r, asked, h, now⟩, all⟩
    exact (h.ok_iff now a).mp (all r ⟨asked, h, now⟩)
  · intro e
    exact ⟨exists_comes answer P, fun r ⟨_, h, now⟩ => (h.ok_iff now a).mpr e⟩

/-- On a clock a program makes one of its runs. -/
theorem exec_run (peer : Clock.Peer σ Q A) (P : Program Q A ε α) (now : Nat) (s : σ) :
    let (now', s', r) := P.exec peer now s
    ∃ asked, P.Run asked r ∧ Clock.Serves peer now s asked now' s' := by
  induction P generalizing now s with
  | done r => exact ⟨[], .done r, .idle (Nat.le_refl _)⟩
  | stage limit τs next ih =>
    rw [exec]
    cases run : Clock.run peer limit τs now s with
    | mk φ o =>
      obtain ⟨asked, π, reaches, serves, -, ends⟩ := Clock.run_reaches peer limit τs now s run
      cases o with
      | none =>
        obtain ⟨asked', later, serves'⟩ := ih φ.records.flatten φ.now φ.peer
        exact ⟨_, .next reaches ends later, serves.trans serves'⟩
      | some e => exact ⟨asked, .stop reaches ends, serves⟩

theorem exec_ok_iff {peer : Clock.Peer σ Q A} (always : ∀ now q s, (peer now q s).2.1 = answer q)
    (P : Program Q A ε α) (now : Nat) (s : σ) (a : α) :
    (P.exec peer now s).2.2 = .ok a ↔ P.eval answer = .ok a := by
  obtain ⟨asked, run, serves⟩ := exec_run peer P now s
  exact run.ok_iff (serves.answered always) a

theorem returns_iff_of_comes {x : Except ε α} (h : ∀ r, P.Comes answer r ↔ r = x) :
    P.Returns answer a ↔ x = .ok a := by
  constructor
  · exact fun returns => returns.2 x ((h x).mpr rfl)
  · rintro rfl
    exact ⟨⟨_, (h _).mpr rfl⟩, fun r comes => (h r).mp comes⟩

theorem Comes.fails (h : P.Comes answer r) (no : ¬∃ a, P.Returns answer a) : ∃ e, r = .error e := by
  cases r with
  | error e => exact ⟨e, rfl⟩
  | ok a =>
    obtain ⟨_, run, now⟩ := h
    exact absurd ⟨a, (returns_iff answer P a).mpr ((run.ok_iff now a).mp rfl)⟩ no

theorem Run.bind {k : α → Program Q A ε β} {r : Except ε β} (h : P.Run asked (.ok a))
    (t : (k a).Run asked' r) : (P >>= k).Run (asked ++ asked') r := by
  change (P.bind k).Run _ r
  generalize e : Except.ok a = s at h
  induction h with
  | done =>
    cases e
    exact t
  | next h e' _ ih =>
    rw [List.append_assoc]
    exact .next h e' (ih e)
  | stop => cases e

theorem Run.of_bind {k : α → Program Q A ε β} {r : Except ε β} (h : (P >>= k).Run asked r) :
    (∃ a before after, asked = before ++ after ∧ P.Run before (.ok a) ∧ (k a).Run after r) ∨
      ∃ e, P.Run asked (.error e) ∧ r = .error e := by
  change (P.bind k).Run asked r at h
  induction P generalizing asked with
  | done s =>
    cases s with
    | ok a => exact .inl ⟨a, [], asked, rfl, .done _, h⟩
    | error e =>
      cases h
      exact .inr ⟨e, .done _, rfl⟩
  | stage limit τs next ih =>
    cases h with
    | stop h e => exact .inr ⟨_, .stop h e, rfl⟩
    | @next _ _ asked π rs _ _ _ _ h e t =>
      rcases ih rs t with ⟨a, before, after, rfl, first, rest⟩ | ⟨err, first, rfl⟩
      · exact .inl ⟨a, asked ++ before, after, (List.append_assoc ..).symm, .next h e first, rest⟩
      · exact .inr ⟨err, .next h e first, rfl⟩

/-- What follows a program that returns is all that can make a difference. -/
theorem comes_bind_iff {k : α → Program Q A ε β} (h : P.Returns answer a) (r : Except ε β) :
    (P >>= k).Comes answer r ↔ (k a).Comes answer r := by
  constructor
  · rintro ⟨asked, run, now⟩
    rcases run.of_bind with ⟨b, before, after, rfl, first, rest⟩ | ⟨e, first, rfl⟩
    · obtain ⟨sooner, later⟩ := Answered.append_iff.mp now
      cases h.2 _ ⟨before, first, sooner⟩
      exact ⟨after, rest, later⟩
    · cases h.2 _ ⟨asked, first, now⟩
  · rintro ⟨after, rest, later⟩
    obtain ⟨⟨_, before, first, sooner⟩, only⟩ := h
    cases only _ ⟨before, first, sooner⟩
    exact ⟨before ++ after, first.bind rest, Answered.append_iff.mpr ⟨sooner, later⟩⟩

theorem eval_bind (answer : Q → A) (P : Program Q A ε α) (k : α → Program Q A ε β) :
    (P >>= k).eval answer = P.eval answer >>= fun a => (k a).eval answer := by
  change (P.bind k).eval answer = _
  induction P with
  | done r => cases r <;> rfl
  | stage limit τs next ih =>
    simp only [bind, eval]
    cases Task.runAll answer τs with
    | ok rs => exact ih rs
    | error e => rfl

theorem eval_lift (answer : Q → A) (x : Except ε α) : (liftM x : Program Q A ε α).eval answer = x := rfl

theorem run_lift {x r : Except ε α} :
    (liftM x : Program Q A ε α).Run asked r ↔ asked = [] ∧ r = x := by
  constructor
  · rintro ⟨⟩
    exact ⟨rfl, rfl⟩
  · rintro ⟨rfl, rfl⟩
    exact .done _

theorem comes_lift {x r : Except ε α} : (liftM x : Program Q A ε α).Comes answer r ↔ r = x := by
  constructor
  · rintro ⟨_, run, -⟩
    exact (run_lift.mp run).2
  · intro same
    exact ⟨[], run_lift.mpr ⟨rfl, same⟩, .nil⟩

/-- Ways that all tasks of a stage can go to their ends make a run of it. -/
theorem run_together {τs : List (Task Q A ε R)} {ways : List (List (Q × A) × List R)}
    (went : List.Forall₂ (fun τ way => τ.worker.Goes τ.records way.1 [] (.finished way.2)) τs ways) :
    (together limit τs).Run (ways.flatMap (·.1)) (.ok (ways.flatMap (·.2))) := by
  have ends : (⟨(ways.map (·.2)).map .finished, []⟩ : Progress Q A ε R).Ends (.ok (ways.flatMap (·.2))) := by
    rw [List.flatMap_def]
    exact .ok _
  rw [← List.append_nil (ways.flatMap (·.1))]
  exact .next (Progress.reaches_ways went limit []) ends (.done _)

theorem eval_together (answer : Q → A) (limit : Nat) (τs : List (Task Q A ε R)) :
    (together limit τs).eval answer = Task.runAll answer τs := by
  simp only [together, eval]
  cases Task.runAll answer τs <;> rfl

end PoolSnapshot.Program
