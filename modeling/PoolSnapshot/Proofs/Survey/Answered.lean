import PoolSnapshot.Proofs.Survey.Sound

/-!
Reads of a chain that has an answer for every method. The record that took the answers agrees with the
chain, field by field.
-/
namespace PoolSnapshot

open Abi (Value Ty Readable)

/-- What the methods of a contract answer to their arguments. -/
abbrev Chain := Contract → String → List Value → Value

namespace Read

variable {R α : Type} {σ : Chain} {f : Call → Outcome} {ρ : Read R} {ρs : List (Read R)}

def value (σ : Chain) (ρ : Read R) : Value := σ ρ.contract ρ.method ρ.args

/-- The chain's value for the read is one of the method's type, and the call is answered with it. -/
structure Answered (σ : Chain) (f : Call → Outcome) (ρ : Read R) : Prop where
  typed : ∀ g t, ρ.contract.function ρ.method = .ok g → g.outputs = [t] → (ρ.value σ).HasTy t
  short : (ρ.value σ).Short
  answer : ∀ e, ρ.entry = .ok e → f e.call = ⟨true, Abi.encode [ρ.value σ]⟩

theorem Answered.of [Readable α] {slot : Nat} {args : List Value} {set : R → α → R}
    (found : κ.function m = .ok g) (fits : Value.eachFits args g.inputTypes = true)
    (answers : g.outputs = [t]) (typed : (σ κ m args).HasTy t) (short : (σ κ m args).Short)
    (answer : f ⟨κ.address, g.selector ++ Abi.encode args⟩ = ⟨true, Abi.encode [σ κ m args]⟩) :
    (Read.of slot κ m args set).Answered σ f := by
  refine ⟨?typed, short, ?answer⟩
  case typed =>
    intro g' t' found' answers'
    cases found.symm.trans found'
    cases answers.symm.trans answers'
    exact typed
  case answer =>
    intro e made
    cases (entry_eq found fits).symm.trans made
    exact answer

/-- To write the chain's value to the record would change nothing. -/
structure Reflects (σ : Chain) (y : R) (ρ : Read R) : Prop where
  typed : ∀ g t, ρ.contract.function ρ.method = .ok g → g.outputs = [t] → (ρ.value σ).HasTy t
  written : ∃ g, ρ.store (ρ.value σ) = .ok g ∧ g y = y

theorem Answered.change? (h : ρ.Answered σ f) (d : ρ.Declared) :
    ∃ g, ρ.store (ρ.value σ) = .ok g ∧ ρ.change? f = some g := by
  obtain ⟨m, t, d⟩ := d
  have typed := h.typed m t d.found d.answers
  obtain ⟨g, stored⟩ := d.stores _ (typed.ofKind d.elementary)
  have made := entry_eq d.found d.fits
  have decoded : m.decodeOutput (Abi.encode [ρ.value σ]) = .ok [ρ.value σ] := by
    rw [Abi.Function.decodeOutput, d.answers]
    exact Value.decode_encode_elementary typed d.elementary h.short
  refine ⟨g, stored, ?_⟩
  rw [Read.change?, made]
  refine Entry.change?_of_brings (v := ρ.value σ) ?_ stored
  rw [h.answer _ made]
  exact ⟨rfl, [], decoded⟩

theorem exists_apply (each : ∀ ρ ∈ ρs, ∃ g, ρ.change? f = some g) (x : R) :
    ∃ y, apply f x ρs = some y := by
  induction ρs generalizing x with
  | nil => exact ⟨x, rfl⟩
  | cons ρ ρs ih =>
    obtain ⟨⟨g, now⟩, later⟩ := List.forall_mem_cons.mp each
    obtain ⟨y, rest⟩ := ih later (g x)
    refine ⟨y, ?_⟩
    rw [apply, List.foldlM_cons, now]
    exact rest

theorem changes_of_change? (h : ρ.change? f = some g) : Store.Changes ρ.store g := by
  obtain ⟨e, made, h⟩ := Option.bind_eq_some_iff.mp h
  rw [← store_entry (Traverse.toOption_eq_some.mp made)]
  exact Entry.changes_of_change? h

theorem apply_cons (h : apply f x (ρ :: ρs) = some y) :
    ∃ g, ρ.change? f = some g ∧ apply f (g x) ρs = some y := by
  rw [apply, List.foldlM_cons] at h
  cases now : ρ.change? f with
  | none =>
    rw [now] at h
    cases h
  | some g =>
    rw [now] at h
    exact ⟨g, rfl, h⟩

theorem keeps_apply {P : R → Prop}
    (each : ∀ ρ ∈ ρs, ∀ g, Store.Changes ρ.store g → ∀ y, P y → P (g y)) (p : P x)
    (h : apply f x ρs = some y) : P y := by
  induction ρs generalizing x with
  | nil =>
    cases h
    exact p
  | cons ρ ρs ih =>
    obtain ⟨now, later⟩ := List.forall_mem_cons.mp each
    obtain ⟨g, change, rest⟩ := apply_cons h
    exact ih later (now g (changes_of_change? change) x p) rest

/-- What a read wrote, later reads leave alone. -/
theorem holds_apply (apart : ρs.Pairwise fun ρ ρ' => Store.Spares ρ.store ρ'.store)
    (settles : ∀ ρ ∈ ρs, Store.Settles ρ.store) (h : apply f x ρs = some y) :
    ∀ ρ ∈ ρs, ∀ g, ρ.change? f = some g → g y = y := by
  induction ρs generalizing x with
  | nil => exact List.forall_mem_nil _
  | cons ρ ρs ih =>
    obtain ⟨spares, apart⟩ := List.pairwise_cons.mp apart
    obtain ⟨again, settles⟩ := List.forall_mem_cons.mp settles
    obtain ⟨g, change, rest⟩ := apply_cons h
    refine List.forall_mem_cons.mpr ⟨?now, ih apart settles rest⟩
    case now =>
      intro g' same
      cases change.symm.trans same
      have changes := changes_of_change? change
      refine keeps_apply (P := fun y => g y = y) ?_ (again g changes x) rest
      exact fun ρ' m g' c y fixed => spares ρ' m g g' changes c y fixed

/-- Reads that are answered leave a record that the chain agrees with in each of them. -/
theorem exists_reflects {slot : Nat} (sound : ∀ ρ ∈ ρs, ρ.Sound slot F) (apart : ρs.Pairwise Apart)
    (answered : ∀ ρ ∈ ρs, ρ.Answered σ f) (x : R) :
    ∃ y, apply f x ρs = some y ∧ ∀ ρ ∈ ρs, ρ.Reflects σ y := by
  have each : ∀ ρ ∈ ρs, ∃ g, ρ.store (ρ.value σ) = .ok g ∧ ρ.change? f = some g :=
    fun ρ m => (answered ρ m).change? (sound ρ m).declared
  have changes : ∀ ρ ∈ ρs, ∃ g, ρ.change? f = some g := by
    intro ρ m
    obtain ⟨g, -, change⟩ := each ρ m
    exact ⟨g, change⟩
  have spares : ρs.Pairwise fun ρ ρ' => Store.Spares ρ.store ρ'.store := by
    refine List.Pairwise.imp_of_mem ?_ apart
    intro ρ ρ' m m' apart
    exact apart ((sound ρ m).slot_eq.trans (sound ρ' m').slot_eq.symm)
  obtain ⟨y, applied⟩ := exists_apply changes x
  refine ⟨y, applied, ?_⟩
  intro ρ m
  obtain ⟨g, stored, change⟩ := each ρ m
  have same := holds_apply spares (fun ρ m => (sound ρ m).settles) applied ρ m g change
  exact ⟨(answered ρ m).typed, g, stored, same⟩

/-- The chain's value is the one that the field has. -/
theorem Reflects.value_eq [Readable α] {shown : α → Value} [Abi.Reads α t shown] {set : R → α → R} {slot : Nat}
    {args : List Value} (part : R → α) (h : (Read.of slot κ m args set).Reflects σ y)
    (found : κ.function m = .ok F) (answers : F.outputs = [t]) (get : ∀ r v, part (set r v) = v) :
    σ κ m args = shown (part y) := by
  obtain ⟨typed, g, stored, same⟩ := h
  have kind := (typed F t found answers).ofKind (Abi.Reads.elementary α)
  simp only [Read.of, Value.read] at stored
  cases e : Readable.ofValue? (α := α) (σ κ m args) with
  | none =>
    rw [value, e] at stored
    cases stored
  | some v =>
    rw [value, e] at stored
    cases stored
    rw [← same, get]
    exact (Abi.Reads.ofValue?_eq_some kind).mp e

end Read

end PoolSnapshot
