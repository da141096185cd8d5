import PoolSnapshot.Proofs.Batch.Declared
import PoolSnapshot.Proofs.Batch.Lenient

/-!
A batch as two lists that only their places tie together: the calls, and what becomes of their answers. An
attempt that fails leaves both as they were, so what stands at one place comes of one attempt.
-/
namespace PoolSnapshot

open Abi (Function Ty Value)

variable {R : Type}

/-- The first function of that name. -/
structure Interface.First (ι : Interface) (method : String) (f : Function) : Prop where
  name : f.name = method
  before : ∃ pre post, ι.functions = pre ++ f :: post ∧ ∀ g ∈ pre, g.name ≠ method

/-- As many values as types, each of its kind. -/
structure Abi.Value.Match (args : List Value) (ts : List Ty) : Prop where
  length : args.length = ts.length
  fits : ∀ (i : Nat) v t, args[i]? = some v → ts[i]? = some t → v.fits t

namespace Contract

variable {κ : Contract} {method : String}

end Contract

theorem Abi.Value.eachFits_iff {args : List Value} {ts : List Ty} : eachFits args ts ↔ Match args ts := by
  induction args generalizing ts with
  | nil =>
    cases ts with
    | nil => exact ⟨fun _ => ⟨rfl, nofun⟩, fun _ => rfl⟩
    | cons t ts => exact ⟨nofun, fun m => nomatch m.length⟩
  | cons v vs ih =>
    cases ts with
    | nil => exact ⟨nofun, fun m => nomatch m.length⟩
    | cons t ts =>
      simp only [eachFits, Bool.and_eq_true, ih]
      constructor
      · rintro ⟨first, length, rest⟩
        refine ⟨congrArg (· + 1) length, fun i w u hw hu => ?_⟩
        cases i with
        | zero =>
          cases hw
          cases hu
          exact first
        | succ i => exact rest i w u hw hu
      · rintro ⟨length, each⟩
        exact ⟨each 0 v t rfl rfl, Nat.succ.inj length, fun i w u hw hu => each (i + 1) w u hw hu⟩

namespace Stateful

variable {σ ε α β : Type} {s s' : σ} {x : ExceptT ε (StateM σ) α} {k : α → ExceptT ε (StateM σ) β}

theorem bind_ok (h : x.run.run s = (.ok a, s')) : (x >>= k).run.run s = (k a).run.run s' := by
  rw [ExceptT.run_bind, StateT.run_bind, h]
  rfl

theorem bind_error (h : x.run.run s = (.error e, s')) : (x >>= k).run.run s = (.error e, s') := by
  rw [ExceptT.run_bind, StateT.run_bind, h]
  rfl

theorem ofExcept_ok {y : Except ε α} (h : y = .ok a) (s : σ) :
    (ofExcept y : ExceptT ε (StateM σ) α).run.run s = (.ok a, s) := by
  rw [h]
  rfl

theorem ofExcept_error {y : Except ε α} (h : y = .error e) (s : σ) :
    (ofExcept y : ExceptT ε (StateM σ) α).run.run s = (.error e, s) := by
  rw [h]
  rfl

end Stateful

/-- What becomes of an answer: it is decoded by the function and stored in the record. -/
structure Binding (R : Type) where
  slot : Nat
  method : String
  function : Function
  store : Value → Except String (R → R)

structure Queue (R : Type) where
  calls : List Call
  bindings : List (Binding R)

namespace Binding

def decode (β : Binding R) (data : Bytes) : Except String (R → R) :=
  match β.function.decodeOutput data with
  | .error r => .error r.message
  | .ok [] => .error "empty output"
  | .ok (v :: _) => β.store v

end Binding

namespace Queue

def empty : Queue R := ⟨[], []⟩

def length (κ : Queue R) : Nat := κ.calls.length

/-- The data of a call, by the function that was found. -/
def data (ρ : Read R) (f : Function) : Except BatchError Bytes :=
  match f.encodeInput ρ.args with
  | some data => .ok data
  | none => .error (.encode ρ.method "Invalid data")

/-- One attempt. What it has done to the queue stays done, also when it fails later. -/
def add (ρ : Read R) : ExceptT BatchError (StateM (Queue R)) Unit := do
  let f ← ofExcept (ρ.contract.function ρ.method)
  let data ← ofExcept (data ρ f)
  modify fun κ => { κ with calls := κ.calls ++ [⟨ρ.contract.address, data⟩] }
  modify fun κ => { κ with bindings := κ.bindings ++ [⟨ρ.slot, ρ.method, f, ρ.store⟩] }

/-- The pass over the answers. The target of a call is looked up by its number, and there may be none. -/
def bind (mode : CallMode) (calls : List Call) : Nat → List (Binding R × Outcome) → List R →
    Option (List R × Except BatchError (List Bool))
  | _, [], rs => some (rs, .ok [])
  | i, (β, o) :: βs, rs => do
    let c ← calls[i]?
    if β.slot < rs.length then
      if o.success then
        match β.decode o.data, mode with
        | .ok f, _ =>
          let (rs, flags) ← bind mode calls (i + 1) βs (rs.modify β.slot f)
          return (rs, flags.map (true :: ·))
        | .error _, .lenient =>
          let (rs, flags) ← bind mode calls (i + 1) βs rs
          return (rs, flags.map (false :: ·))
        | .error reason, .strict => return (rs, .error (.decode β.method c.target reason))
      else
        match mode with
        | .lenient =>
          let (rs, flags) ← bind mode calls (i + 1) βs rs
          return (rs, flags.map (false :: ·))
        | .strict => return (rs, .error (.callFailed i β.method c.target))
    else return (rs, .error (.slotOutOfRange β.slot rs.length))

def execute (κ : Queue R) (aggregate : Request → Reply) (mode : CallMode) (block : Nat) (rs : List R) :
    Option (List R × Except BatchError (List Bool)) :=
  if κ.calls.isEmpty then some (rs, .ok [])
  else
    match aggregate ⟨κ.calls, mode = .lenient, block⟩ with
    | .error e => some (rs, .error e)
    | .ok os =>
      if os.length = κ.calls.length then bind mode κ.calls 0 (κ.bindings.zip os) rs
      else some (rs, .error (.outcomeCount κ.calls.length os.length))

end Queue

def Entry.binding (e : Entry R) : Binding R := ⟨e.slot, e.function.name, e.function, e.store⟩

namespace Queue

/-- The entries of a batch, taken apart. -/
def ofBatch (b : Batch R) : Queue R := ⟨b.map (·.call), b.map Entry.binding⟩

def append (κ : Queue R) (b : Batch R) : Queue R := ⟨κ.calls ++ b.map (·.call), κ.bindings ++ b.map Entry.binding⟩

theorem append_nil (κ : Queue R) : κ.append [] = κ := by
  simp [append]

theorem append_append (κ : Queue R) (b b' : Batch R) : (κ.append b).append b' = κ.append (b ++ b') := by
  simp [append]

theorem data_eq_ok {ρ : Read R} {f : Function} :
    data ρ f = .ok bytes ↔ Value.Match ρ.args f.inputTypes ∧ bytes = f.selector ++ Abi.encode ρ.args := by
  rw [data, Function.encodeInput, ← Value.eachFits_iff]
  by_cases fits : Value.eachFits ρ.args f.inputTypes <;> simp [fits, eq_comm]

theorem data_eq_error {ρ : Read R} {f : Function} :
    data ρ f = .error e ↔ ¬Value.Match ρ.args f.inputTypes ∧ e = .encode ρ.method "Invalid data" := by
  rw [data, Function.encodeInput, ← Value.eachFits_iff]
  by_cases fits : Value.eachFits ρ.args f.inputTypes <;> simp [fits, eq_comm]

/-- The three ways of an attempt: no function, values that do not match, or both lists longer by one. -/
theorem add_cases (ρ : Read R) :
    (∃ e, ρ.contract.function ρ.method = .error e ∧ ρ.entry = .error e ∧ ∀ κ, (add ρ).run.run κ = (.error e, κ)) ∨
    (∃ f e, ρ.contract.function ρ.method = .ok f ∧ data ρ f = .error e ∧ ρ.entry = .error e ∧
      ∀ κ, (add ρ).run.run κ = (.error e, κ)) ∨
    ∃ f bytes, ρ.contract.function ρ.method = .ok f ∧ data ρ f = .ok bytes ∧ ρ.entry = .ok (ρ.queued f) ∧
      ∀ κ, (add ρ).run.run κ = (.ok (), ⟨κ.calls ++ [⟨ρ.contract.address, bytes⟩],
        κ.bindings ++ [⟨ρ.slot, ρ.method, f, ρ.store⟩]⟩) := by
  cases found : ρ.contract.function ρ.method with
  | error e =>
    refine .inl ⟨e, rfl, ?_, fun κ => ?_⟩
    · simp only [Read.entry, found]
      rfl
    · exact Stateful.bind_error (Stateful.ofExcept_error found κ)
  | ok f =>
    cases made : data ρ f with
    | error e =>
      obtain ⟨unfit, rfl⟩ := data_eq_error.mp made
      refine .inr (.inl ⟨f, _, rfl, made, ?_, fun κ => ?_⟩)
      · have none : f.encodeInput ρ.args = none := if_neg (mt Value.eachFits_iff.mp unfit)
        have refused : ρ.contract.call f ρ.args = .error (.encode ρ.method "Invalid data") := by
          rw [Contract.call, none, Contract.name_of_function found]
        simp only [Read.entry, found, refused, Bind.bind, Except.bind]
      · rw [add, Stateful.bind_ok (Stateful.ofExcept_ok found κ)]
        exact Stateful.bind_error (Stateful.ofExcept_error made κ)
    | ok bytes =>
      refine .inr (.inr ⟨f, bytes, rfl, made, ?_, fun κ => ?_⟩)
      · exact Read.entry_eq found (Value.eachFits_iff.mpr (data_eq_ok.mp made).1)
      · rw [add, Stateful.bind_ok (Stateful.ofExcept_ok found κ)]
        exact Stateful.bind_ok (Stateful.ofExcept_ok made κ)

theorem add_of_entry {ρ : Read R} (made : ρ.entry = .ok e) (κ : Queue R) :
    (add ρ).run.run κ = (.ok (), κ.append [e]) := by
  rcases add_cases ρ with ⟨_, -, entry, -⟩ | ⟨_, _, -, -, entry, -⟩ | ⟨f, bytes, found, fit, entry, run⟩
  · cases made.symm.trans entry
  · cases made.symm.trans entry
  · cases made.symm.trans entry
    obtain ⟨-, rfl⟩ := data_eq_ok.mp fit
    rw [run, append, List.map_singleton, List.map_singleton, Entry.binding, Read.queued,
      Contract.name_of_function found]

/-- Reads that can all be queued are queued one after another. -/
theorem forM_add {ρs : List (Read R)} {b : Batch R} (made : List.Forall₂ (fun ρ e => ρ.entry = .ok e) ρs b)
    (report : BatchError → ε) (κ : Queue R) :
    (ρs.forM fun ρ => ExceptT.adapt report (add ρ)).run.run κ = (.ok (), κ.append b) := by
  induction made generalizing κ with
  | nil => exact congrArg (Except.ok (), ·) (append_nil κ).symm
  | @cons ρ e ρs b made _ ih =>
    have first : (ExceptT.adapt report (add ρ)).run.run κ = (.ok (), κ.append [e]) := by
      rw [ExceptT.run_adapt, StateT.run_map, add_of_entry made]
      rfl
    exact (Stateful.bind_ok first).trans ((ih _).trans (congrArg (Except.ok (), ·) (append_append κ [e] b)))

end Queue

end PoolSnapshot
