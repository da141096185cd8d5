import PoolSnapshot.Proofs.Program.Course

/-!
What holds of a program throughout: of the tasks of every stage, whatever the stages before it left, and
of the errors that it ends with between stages. A run then asks nothing else and fails of nothing else.
-/
namespace PoolSnapshot.Program

variable {Q A ε α β : Type} {T : ∀ R : Type, Task Q A ε R → Prop} {E : ε → Prop}

/-- Every task is one of `T`, and every error between stages one of `E`. -/
inductive Every (T : ∀ R : Type, Task Q A ε R → Prop) (E : ε → Prop) : Program Q A ε α → Prop
  | ok (a : α) : Every T E (.done (.ok a))
  | error (h : E e) : Every T E (.done (.error e))
  | stage {τs : List (Task Q A ε R)} {next : List R → Program Q A ε α} (tasks : ∀ τ ∈ τs, T R τ)
      (later : ∀ rs, Every T E (next rs)) : Every T E (.stage limit τs next)

namespace Every

variable {P : Program Q A ε α} {k : α → Program Q A ε β}

theorem done {r : Except ε α} (h : ∀ e, r = .error e → E e) : (done r : Program Q A ε α).Every T E := by
  cases r with
  | ok a => exact .ok a
  | error e => exact .error (h e rfl)

theorem bind (h : P.Every T E) (rest : ∀ a, (k a).Every T E) : (P >>= k).Every T E := by
  change (P.bind k).Every T E
  induction h with
  | ok a => exact rest a
  | error h => exact .error h
  | stage tasks _ ih => exact .stage tasks ih

theorem together {R : Type} {τs : List (Task Q A ε R)} (tasks : ∀ τ ∈ τs, T R τ) :
    (together limit τs).Every T E :=
  .stage tasks fun rs => .ok rs

theorem mono {T' : ∀ R : Type, Task Q A ε R → Prop} {E' : ε → Prop} (h : P.Every T E)
    (tasks : ∀ R τ, T R τ → T' R τ) (errors : ∀ e, E e → E' e) : P.Every T' E' := by
  induction h with
  | ok a => exact .ok a
  | error h => exact .error (errors _ h)
  | stage each _ ih => exact .stage (fun τ m => tasks _ τ (each τ m)) ih

/-- Each question is one that some task asks. -/
theorem asked (h : P.Every T E) (c : P.Course parts r) :
    ∀ x ∈ parts.flatMap Part.asked, ∃ R, ∃ τ : Task Q A ε R, T R τ ∧ x.1 ∈ τ.worker.questions := by
  induction c with
  | done r => exact List.forall_mem_nil _
  | next now later ih =>
    cases h with
    | stage tasks rest =>
      rw [List.flatMap_cons, List.forall_mem_append]
      refine ⟨?_, ih (rest _)⟩
      intro x m
      obtain ⟨τ, n, asks⟩ := now.mem_questions m
      exact ⟨_, τ, tasks τ n, asks⟩
  | stop now =>
    cases h with
    | stage tasks rest =>
      rw [List.flatMap_singleton]
      intro x m
      obtain ⟨τ, n, asks⟩ := now.mem_questions m
      exact ⟨_, τ, tasks τ n, asks⟩

/-- An error comes from between the stages, or some task failed by answers that it got. -/
theorem failed (h : P.Every T E) (c : P.Course parts (.error e)) :
    E e ∨ ∃ R, ∃ τ : Task Q A ε R, T R τ ∧ ∃ heard due cell, τ.worker.Goes τ.records heard due cell ∧
      cell.failure? = some e ∧ heard ++ due ⊆ parts.flatMap Part.asked := by
  generalize failed : Except.error e = r at c
  induction c with
  | done r =>
    subst failed
    cases h with
    | error h => exact .inl h
  | next now later ih =>
    cases h with
    | stage tasks rest =>
      rcases ih (rest _) failed with here | ⟨R, τ, t, heard, due, cell, goes, fails, sub⟩
      · exact .inl here
      · refine .inr ⟨R, τ, t, heard, due, cell, goes, fails, ?_⟩
        exact List.Subset.trans sub (List.subset_append_right _ _)
  | stop now =>
    cases failed
    cases h with
    | stage tasks rest =>
      obtain ⟨τ, n, heard, due, cell, goes, fails, sub⟩ := now.exists_failed
      refine .inr ⟨_, τ, tasks τ n, heard, due, cell, goes, fails, ?_⟩
      rwa [List.flatMap_singleton]

end Every

end PoolSnapshot.Program
