import PoolSnapshot.Proofs.Contract.Selectors
import PoolSnapshot.Proofs.Survey.Chunks

/-!
The calls that reads are made by, and what those calls bring back.
-/
namespace PoolSnapshot

open Abi (Value Ty Readable)

/-- The outcome is the value, as one of the type. -/
def Outcome.Is (o : Outcome) (t : Ty) (v : Value) : Prop := o.success ∧ Abi.decode [t] o.data = .ok [v]

namespace Read

variable {R S α : Type} {ρ : Read R} {ρs : List (Read R)} {cs : List Call}

/-- The read is made by the call. -/
def Calls (ρ : Read R) (c : Call) : Prop := ∃ e, ρ.entry = .ok e ∧ e.call = c

theorem calls_of [Abi.Readable α] {slot : Nat} {args : List Value} {set : R → α → R}
    (found : κ.function m = .ok f) (fits : Value.eachFits args f.inputTypes = true)
    (text : f.signature = s) (here : κ.address = a) :
    (Read.of slot κ m args set).Calls (.to a s args) := by
  refine ⟨_, entry_eq found fits, ?_⟩
  rw [queued, Abi.Function.selector, text, ← here]
  rfl

theorem calls_readEach {records : List S} {reads : Nat → S → List (Read R)} {calls : S → List Call}
    (each : ∀ slot x, List.Forall₂ Calls (reads slot x) (calls x)) :
    List.Forall₂ Calls (readEach records reads) (records.flatMap calls) := by
  have items : List.Forall₂ (fun (p : S × Nat) x => p.1 = x) records.zipIdx records := by
    refine List.forall₂_map_left_iff.mp ?_
    rw [List.zipIdx_map_fst, List.forall₂_eq_eq_eq]
  refine List.rel_flatMap items ?_
  rintro ⟨x, slot⟩ _ rfl
  exact each slot x

theorem exists_ofReads (calls : List.Forall₂ Calls ρs cs) :
    ∃ b, Batch.ofReads ρs = .ok b ∧ b.map (·.call) = cs := by
  have each : List.Forall₂ (fun ρ c => ∃ e, ρ.entry = .ok e ∧ e.call = c) ρs cs := calls
  induction each with
  | nil => exact ⟨[], rfl, rfl⟩
  | cons h _ ih =>
    obtain ⟨e, made, rfl⟩ := h
    cases calls with
    | cons _ calls =>
      obtain ⟨b, all, rfl⟩ := ih calls
      refine ⟨e :: b, ?_, rfl⟩
      exact Traverse.mapM_eq_ok.mpr (.cons made (Traverse.mapM_eq_ok.mp all))

theorem questions_workerWith (calls : List.Forall₂ Calls ρs cs) (mode : CallMode) (block : Nat)
    (report : BatchError → ε) (finish : List Bool → List R → List R) :
    (workerWith ρs mode block report finish).questions =
      if cs = [] then [] else [⟨cs, mode = .lenient, block⟩] := by
  obtain ⟨b, made, rfl⟩ := exists_ofReads calls
  rw [workerWith, made]
  cases b <;> rfl

theorem mem_questions {report : BatchError → ε} {finish : List Bool → List R → List R}
    (calls : List.Forall₂ Calls ρs cs)
    (m : q ∈ (workerWith ρs mode block report finish).questions) : q = ⟨cs, mode = .lenient, block⟩ := by
  obtain ⟨b, made, rfl⟩ := exists_ofReads calls
  rw [workerWith, made] at m
  exact (Batch.mem_questions m).2

/-- A read takes the value that its call is answered with. -/
theorem change?_eq_some (calls : ρ.Calls c) (d : ρ.Declares m t) :
    ρ.change? f = some g ↔ ∃ v, (f c).Is t v ∧ ρ.store v = .ok g := by
  obtain ⟨e, made, rfl⟩ := calls
  cases made.symm.trans (entry_eq d.found d.fits)
  have decodes : (ρ.queued m).function.decodeOutput = Abi.decode [t] := by
    funext data
    exact congrArg (Abi.decode · data) d.answers
  rw [change?, made]
  refine Entry.change?_eq_some.trans ?_
  rw [Entry.decode_eq_ok, decodes]
  constructor
  · rintro ⟨success, v, vs, decoded, stored⟩
    obtain ⟨_, _, -, ⟨⟩⟩ := Abi.exists_of_decode decoded
    exact ⟨v, ⟨success, decoded⟩, stored⟩
  · rintro ⟨v, ⟨success, decoded⟩, stored⟩
    exact ⟨success, v, [], decoded, stored⟩

/-- A field is read off exactly if the call is answered with a value for it. -/
theorem change?_of [Readable α] {value : α → Value} [Abi.Reads α t value] {slot : Nat}
    {args : List Value} {set : R → α → R} {h : R → R} (found : κ.function m = .ok g)
    (fits : Value.eachFits args g.inputTypes = true) (answers : g.outputs = [t])
    (text : g.signature = s) :
    (Read.of slot κ m args set).change? f = some h ↔
      ∃ a, (f (.to κ.address s args)).Is t (value a) ∧ h = (set · a) := by
  rw [change?_eq_some (calls_of found fits text rfl) (.of found fits answers)]
  constructor
  · rintro ⟨v, is, stored⟩
    have kind := Value.ofKind_of_decode (Abi.Reads.elementary α) is.2
    simp only [Read.of, Value.read] at stored
    cases e : Readable.ofValue? (α := α) v with
    | none =>
      rw [e] at stored
      cases stored
    | some a =>
      rw [e] at stored
      cases stored
      exact ⟨a, (Abi.Reads.ofValue?_eq_some kind).mp e ▸ is, rfl⟩
  · rintro ⟨a, is, rfl⟩
    have kind := Value.ofKind_of_decode (Abi.Reads.elementary α) is.2
    refine ⟨_, is, ?_⟩
    simp only [Read.of, Value.read, (Abi.Reads.ofValue?_eq_some kind).mpr rfl]
    rfl

/-- A record is read field by field. -/
theorem apply_of [Readable α] {value : α → Value} [Abi.Reads α t value] {slot : Nat}
    {args : List Value} {set : R → α → R} {x y : R} (found : κ.function m = .ok g)
    (fits : Value.eachFits args g.inputTypes = true) (answers : g.outputs = [t])
    (text : g.signature = s) :
    apply f x (Read.of slot κ m args set :: ρs) = some y ↔
      ∃ a, (f (.to κ.address s args)).Is t (value a) ∧ apply f (set x a) ρs = some y := by
  have change {h : R → R} : (Read.of slot κ m args set).change? f = some h ↔
      ∃ a, (f (.to κ.address s args)).Is t (value a) ∧ h = (set · a) :=
    change?_of found fits answers text
  rw [apply, List.foldlM_cons]
  constructor
  · intro h
    obtain ⟨_, now, rest⟩ := Option.bind_eq_some_iff.mp h
    obtain ⟨_, changed, rfl⟩ := Option.map_eq_some_iff.mp now
    obtain ⟨a, is, rfl⟩ := change.mp changed
    exact ⟨a, is, rest⟩
  · rintro ⟨a, is, rest⟩
    rw [change.mpr ⟨a, is, rfl⟩]
    exact rest

theorem apply_cons_of [Readable α] {value : α → Value} [Abi.Reads α t value] {slot : Nat}
    {args : List Value} {set : R → α → R} {x y : R} {a : α}
    (is : (f (.to κ.address s args)).Is t (value a)) (found : κ.function m = .ok g)
    (fits : Value.eachFits args g.inputTypes = true) (answers : g.outputs = [t])
    (text : g.signature = s) (rest : apply f (set x a) ρs = some y) :
    apply f x (Read.of slot κ m args set :: ρs) = some y :=
  (apply_of found fits answers text).mpr ⟨a, is, rest⟩

/-- A number is read off exactly if the call is answered with one. -/
theorem change?_word {slot : Nat} {args : List Value} {set : R → Word → R} {h : R → R}
    (found : κ.function m = .ok g) (fits : Value.eachFits args g.inputTypes = true)
    (answers : g.outputs = [.uint 256]) (text : g.signature = s) :
    (Read.of slot κ m args set).change? f = some h ↔
      ∃ v, (f (.to κ.address s args)).Is (.uint 256) (.uint v) ∧ h = (set · v) :=
  change?_of found fits answers text

end Read

end PoolSnapshot
