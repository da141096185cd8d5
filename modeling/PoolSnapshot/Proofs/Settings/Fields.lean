import PoolSnapshot.Proofs.Settings.Environment
import PoolSnapshot.Proofs.Traverse
import PoolSnapshot.Settings.Basic

/-!
Settings read from their sections. Each field is read on its own from what its key is given, and a section
that is not there gives nothing.
-/
namespace PoolSnapshot

open Traverse
open Toml (Value)

namespace Toml.Value

variable {α : Type} {f : Value → Option α} {g : Option Value}

/-- A value read as a field; lists and tables are no fields. -/
def as? (f : Scalar → Except (Found × Wanted) α) : Value → Option α
  | .leaf s => (f s).toOption
  | _ => none

def asNat? : Value → Option Nat := as? Scalar.toNat

def asText? : Value → Option String := as? fun s => .ok s.toText

/-- What is given, if it can be read; the default if nothing is given. -/
def readOr (f : Value → Option α) (default : α) : Option Value → Option α
  | none => some default
  | some v => f v

theorem readOr_eq_some : readOr f d g = some a ↔ ∃ o, g.mapM f = some o ∧ o.getD d = a := by
  cases g with
  | none => simp [readOr]
  | some v => cases h : f v <;> simp [readOr, h]

theorem exists_readOr (d : α) (fits : ∀ v, g = some v → (f v).isSome) : ∃ a, readOr f d g = some a := by
  cases g with
  | none => exact ⟨d, rfl⟩
  | some v => exact Option.isSome_iff_exists.mp (fits v rfl)

end Toml.Value

/-- What the keys of a section are given. -/
abbrev Values := String → Option Value

structure Endpoint.Of (g : Values) (e : Endpoint) : Prop where
  url : (g "http_url").bind Value.asText? = some e.url
  timeout : Value.readOr Value.asNat? 30 (g "timeout_seconds") = some e.timeout
  rate : (Value.readOr Value.asNat? 0 (g "qps_limit")).map (· % Nat.pow 2 32) = some e.rate

structure Roots.Of (g : Values) (ρ : Roots) : Prop where
  storage : (g "rocket_storage").bind Value.asText? = some ρ.storage
  multicall : Value.readOr Value.asText? "0xcA11bde05977b3631167028862bE2a173976CA11" (g "multicall") =
    some ρ.multicall

structure Batching.Of (g : Values) (β : Batching) : Prop where
  address : Value.readOr Value.asNat? 1000 (g "address_batch_size") = some β.address
  version : Value.readOr Value.asNat? 500 (g "version_batch_size") = some β.version
  minipool : Value.readOr Value.asNat? 100 (g "minipool_batch_size") = some β.minipool
  completeShare : Value.readOr Value.asNat? 500 (g "complete_share_batch_size") = some β.completeShare
  odaoDetails : Value.readOr Value.asNat? 50 (g "odao_details_batch_size") = some β.odaoDetails
  challengeState : Value.readOr Value.asNat? 500 (g "challenge_state_batch_size") = some β.challengeState
  maxConcurrent : Value.readOr Value.asNat? 6 (g "max_concurrent_batches") = some β.maxConcurrent

theorem Endpoint.Of.not_none (h : Endpoint.Of g e) : ¬ ∀ k ∈ Shape.rpc.fields, g k = none := by
  intro none
  have url := h.url
  rw [none "http_url" (by decide)] at url
  cases url

theorem Roots.Of.not_none (h : Roots.Of g ρ) : ¬ ∀ k ∈ Shape.contracts.fields, g k = none := by
  intro none
  have storage := h.storage
  rw [none "rocket_storage" (by decide)] at storage
  cases storage

namespace Batching

variable {g : Values} {β β' : Batching}

theorem fields_inj : β.fields = β'.fields ↔ β = β' := by
  refine ⟨fun same => ?_, congrArg fields⟩
  cases β
  cases β'
  simp only [fields, List.cons.injEq, Prod.mk.injEq, true_and, and_true] at same
  exact mk.injEq .. ▸ same

/-- Each size made anew from its name and what it is. -/
def map (f : String × Nat → Nat) (β : Batching) : Batching where
  address := f ("address_batch_size", β.address)
  version := f ("version_batch_size", β.version)
  minipool := f ("minipool_batch_size", β.minipool)
  completeShare := f ("complete_share_batch_size", β.completeShare)
  odaoDetails := f ("odao_details_batch_size", β.odaoDetails)
  challengeState := f ("challenge_state_batch_size", β.challengeState)
  maxConcurrent := f ("max_concurrent_batches", β.maxConcurrent)

theorem fields_map (f : String × Nat → Nat) (β : Batching) : (β.map f).fields = β.fields.map fun p => (p.1, f p) := rfl

/-- A size is what its key is given, or its default. -/
def Given (g : Values) (p p' : String × Nat) : Prop :=
  p'.1 = p.1 ∧ Value.readOr Value.asNat? p.2 (g p.1) = some p'.2

theorem of_iff : β.Of g ↔ List.Forall₂ (Given g) (fields {}) β.fields := by
  simp only [fields, List.forall₂_cons, List.Forall₂.nil, and_true, Given, true_and]
  constructor
  · rintro ⟨address, version, minipool, share, details, state, limit⟩
    exact ⟨address, version, minipool, share, details, state, limit⟩
  · rintro ⟨address, version, minipool, share, details, state, limit⟩
    exact ⟨address, version, minipool, share, details, state, limit⟩

theorem of_none (none : ∀ k ∈ Shape.batching.fields, g k = none) : β.Of g ↔ {} = β := by
  rw [of_iff, ← fields_inj, ← List.forall₂_eq_eq_eq]
  refine Traverse.forall₂_congr fun p m p' => ?_
  rw [Given, none p.1 (List.mem_map_of_mem m), Value.readOr, Option.some_inj, eq_comm, Prod.ext_iff]

theorem exists_of (number : ∀ k ∈ Shape.batching.fields, ∀ v ∈ g k, v.asNat? ≠ none) : ∃ β : Batching, β.Of g := by
  refine ⟨map (fun p => (Value.readOr Value.asNat? p.2 (g p.1)).getD 0) {}, ?_⟩
  rw [of_iff, fields_map, List.forall₂_map_right_iff, List.forall₂_same]
  intro p m
  have fits := number p.1 (List.mem_map_of_mem m)
  obtain ⟨n, read⟩ := Value.exists_readOr p.2 fun v h => Option.isSome_iff_ne_none.mpr (fits v h)
  exact ⟨rfl, by rw [read, Option.getD_some]⟩

end Batching

namespace Section

variable {α : Type} {g : Values} {shape : Shape} {b : Layered}

/-- A table in which the fields of a section are what is given. -/
structure Shows (shape : Shape) (b : Layered) (g : Values) : Prop where
  table : b.IsTable
  each : ∀ k ∈ shape.fields, Option.Rel Layered.Shows (b.get? k) (g k)

theorem Shows.read?_eq_ok (h : Shows shape b g) (m : k ∈ shape.fields)
    {f : Scalar → Except (Found × Wanted) α} {o : Option α} :
    read? ⟨shape, b⟩ w f k = .ok o ↔ (g k).mapM (Value.as? f) = some o := by
  have here := h.each k m
  have table := h.table
  cases b with
  | vacant | leaf | list => cases table
  | table l es =>
    rw [Layered.get?, Layered.entries] at here
    simp only [read?, field?]
    generalize es.lookup k = found at here ⊢
    generalize g k = given at here ⊢
    cases here with
    | none => simp
    | @some v v' shows =>
      cases v <;> cases v' <;> cases shows
      · next s => cases h : f s <;> simp [Value.as?, Except.toOption, h]
      · simp [Value.as?]
      · simp [Value.as?]

theorem Shows.nat?_eq_ok (h : Shows shape b g) (m : k ∈ shape.fields) :
    nat? ⟨shape, b⟩ k = .ok o ↔ (g k).mapM Value.asNat? = some o :=
  h.read?_eq_ok m

theorem Shows.text?_eq_ok (h : Shows shape b g) (m : k ∈ shape.fields) :
    text? ⟨shape, b⟩ k = .ok o ↔ (g k).mapM Value.asText? = some o :=
  h.read?_eq_ok m

end Section

namespace Settings

variable {α : Type} {g : Values} {σ : Section} {β : Batching} {b t : Layered} {shape : Shape}

theorem required_eq_ok {e : SettingsError} {o : Option α} : required e o = .ok a ↔ o = some a := by
  cases o <;> simp [required]

theorem mapM_eq_some_some {f : Value → Option α} {v : Option Value} :
    v.mapM f = some (some a) ↔ v.bind f = some a := by
  cases v <;> simp

theorem endpoint_eq_ok (h : Section.Shows .rpc b g) : endpoint ⟨.rpc, b⟩ = .ok e ↔ e.Of g := by
  simp (disch := decide) only [endpoint, bind_eq_ok, h.text?_eq_ok, h.nat?_eq_ok, required_eq_ok]
  constructor
  · rintro ⟨_, url, _, timeout, _, rate, _, rfl, ⟨⟩⟩
    exact ⟨mapM_eq_some_some.mp url, Value.readOr_eq_some.mpr ⟨_, timeout, rfl⟩,
      Option.map_eq_some_iff.mpr ⟨_, Value.readOr_eq_some.mpr ⟨_, rate, rfl⟩, rfl⟩⟩
  · rintro ⟨url, timeout, rate⟩
    obtain ⟨_, _, _⟩ := e
    obtain ⟨_, timed, rfl⟩ := Value.readOr_eq_some.mp timeout
    obtain ⟨_, kept, rfl⟩ := Option.map_eq_some_iff.mp rate
    obtain ⟨_, rated, rfl⟩ := Value.readOr_eq_some.mp kept
    exact ⟨_, mapM_eq_some_some.mpr url, _, timed, _, rated, _, rfl, rfl⟩

theorem roots_eq_ok (h : Section.Shows .contracts b g) : roots ⟨.contracts, b⟩ = .ok ρ ↔ ρ.Of g := by
  simp (disch := decide) only [roots, bind_eq_ok, h.text?_eq_ok, required_eq_ok]
  constructor
  · rintro ⟨_, storage, _, multicall, _, rfl, ⟨⟩⟩
    exact ⟨mapM_eq_some_some.mp storage, Value.readOr_eq_some.mpr ⟨_, multicall, rfl⟩⟩
  · rintro ⟨storage, multicall⟩
    obtain ⟨_, _⟩ := ρ
    obtain ⟨_, called, rfl⟩ := Value.readOr_eq_some.mp multicall
    exact ⟨_, mapM_eq_some_some.mpr storage, _, called, _, rfl, rfl⟩

/-- The sizes are read one after another, each on its own. -/
theorem fields_sizes : Batching.fields <$> sizes σ =
    (Batching.fields {}).mapM fun p => return (p.1, (← σ.nat? p.1).getD p.2) := by
  simp [sizes, Batching.fields]

theorem sizes_eq_ok_iff : sizes σ = .ok β ↔
    List.Forall₂ (fun p p' => ∃ o, σ.nat? p.1 = .ok o ∧ (p.1, o.getD p.2) = p') (Batching.fields {}) β.fields := by
  have whole : sizes σ = .ok β ↔ Batching.fields <$> sizes σ = .ok β.fields := by
    cases sizes σ <;> simp [Batching.fields_inj]
  rw [whole, fields_sizes, mapM_eq_ok]
  refine forall₂_congr fun p _ p' => ?_
  rw [bind_eq_ok]
  exact exists_congr fun _ => and_congr_right fun _ => ⟨Except.ok.inj, congrArg Except.ok⟩

theorem sizes_eq_ok (h : Section.Shows .batching b g) : sizes ⟨.batching, b⟩ = .ok β ↔ β.Of g := by
  rw [sizes_eq_ok_iff, Batching.of_iff]
  refine forall₂_congr fun p m p' => ?_
  simp only [h.nat?_eq_ok (List.mem_map_of_mem m), Batching.Given, Value.readOr_eq_some]
  constructor
  · rintro ⟨o, read, rfl⟩
    exact ⟨rfl, o, read, rfl⟩
  · rintro ⟨named, o, read, sized⟩
    exact ⟨o, read, Prod.ext named.symm sized⟩

theorem logLevel_eq_ok (h : Section.Shows .log b g) :
    logLevel ⟨.log, b⟩ = .ok l ↔ Value.readOr Value.asText? "info" (g "level") = some l := by
  simp (disch := decide) only [logLevel, bind_eq_ok, h.text?_eq_ok, Value.readOr_eq_some]
  exact exists_congr fun _ => and_congr_right fun _ => ⟨Except.ok.inj, congrArg Except.ok⟩

section Sections

variable {given : String → Values} {f : Section → Except SettingsError α} {P : α → Prop}
  (sectioned : t.Sectioned)
  (shown : ∀ p ∈ keys, Option.Rel Layered.Shows (t.at? p.1 p.2) (given p.1 p.2))

include sectioned shown

/-- A section is read from the table that it is. Nothing is given in one that is not there. -/
theorem read?_section (m : shape ∈ shapes)
    (reads : ∀ {b}, Section.Shows shape b (given shape.key) → ∀ a, f ⟨shape, b⟩ = .ok a ↔ P a) :
    (∀ o, read? t shape f = .ok o ↔ ∃ a, o = some a ∧ P a) ∨
      (∀ o, read? t shape f = .ok o ↔ o = none) ∧ ∀ k ∈ shape.fields, given shape.key k = none := by
  have shown k (n : k ∈ shape.fields) := shown _ (mem_keys m n)
  simp only [Layered.at?] at shown
  cases here : t.get? shape.key with
  | none =>
    refine .inr ⟨fun o => ?_, fun k n => ?_⟩
    · rw [read?, Section.ofLayered?, here]
      exact ⟨fun h => (Except.ok.inj h).symm, fun h => congrArg Except.ok h.symm⟩
    · have absent := shown k n
      rw [here] at absent
      generalize given shape.key k = v at absent ⊢
      cases absent
      rfl
  | some b =>
    have table := sectioned shape m b here
    simp only [here, Option.bind_some] at shown
    have each := reads ⟨table, shown⟩
    have read : read? t shape f = some <$> f ⟨shape, b⟩ := by
      rw [read?, Section.ofLayered?, here]
      cases b with
      | vacant | leaf | list => cases table
      | table => rfl
    refine .inl fun o => ?_
    rw [read]
    cases h : f ⟨shape, b⟩ with
    | error e => simp [← each, h]
    | ok a => simp [← each, h, eq_comm]

theorem read?_rpc : read? t .rpc endpoint = .ok (some e) ↔ e.Of (given "rpc") := by
  rcases read?_section sectioned shown (by simp [shapes]) fun h _ => endpoint_eq_ok h with
    there | ⟨absent, empty⟩
  · rw [there]
    simp [Shape.rpc]
  · rw [absent]
    exact ⟨nofun, fun h => (h.not_none empty).elim⟩

theorem read?_contracts : read? t .contracts roots = .ok (some ρ) ↔ ρ.Of (given "contracts") := by
  rcases read?_section sectioned shown (by simp [shapes]) fun h _ => roots_eq_ok h with
    there | ⟨absent, empty⟩
  · rw [there]
    simp [Shape.contracts]
  · rw [absent]
    exact ⟨nofun, fun h => (h.not_none empty).elim⟩

theorem read?_batching :
    (∃ o, read? t .batching sizes = .ok o ∧ o.getD {} = β) ↔ β.Of (given "batching") := by
  rcases read?_section sectioned shown (by simp [shapes]) fun h _ => sizes_eq_ok h with
    there | ⟨absent, empty⟩
  · simp only [there]
    simp [Shape.batching]
  · simp only [absent, exists_eq_left]
    exact (Batching.of_none empty).symm

theorem read?_log : (∃ o, read? t .log logLevel = .ok o ∧ o.getD "info" = l) ↔
    Value.readOr Value.asText? "info" (given "log" "level") = some l := by
  rcases read?_section sectioned shown (by simp [shapes]) fun h _ => logLevel_eq_ok h with
    there | ⟨absent, empty⟩
  · simp only [there]
    simp [Shape.log]
  · have empty : given "log" "level" = none := empty "level" (by decide)
    simp [absent, empty, Value.readOr]

theorem ofLayered_eq_ok :
    ofLayered t = .ok s ↔
      s.rpc.Of (given "rpc") ∧ s.contracts.Of (given "contracts") ∧ s.batching.Of (given "batching") ∧
        Value.readOr Value.asText? "info" (given "log" "level") = some s.level := by
  rw [← read?_rpc sectioned shown, ← read?_contracts sectioned shown, ← read?_batching sectioned shown,
    ← read?_log sectioned shown]
  simp only [ofLayered, bind_eq_ok, required_eq_ok]
  constructor
  · rintro ⟨_, rpc, _, contracts, _, batching, _, log, _, rfl, _, rfl, ⟨⟩⟩
    exact ⟨rpc, contracts, ⟨_, batching, rfl⟩, _, log, rfl⟩
  · obtain ⟨_, _, _, _⟩ := s
    rintro ⟨rpc, contracts, ⟨_, batching, rfl⟩, _, log, rfl⟩
    exact ⟨_, rpc, _, contracts, _, batching, _, log, _, rfl, _, rfl, rfl⟩

end Sections

end Settings

end PoolSnapshot
