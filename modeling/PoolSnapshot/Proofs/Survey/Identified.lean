import PoolSnapshot.Proofs.Multicall.Coalescing
import PoolSnapshot.Proofs.Program.Returns
import PoolSnapshot.Proofs.Survey.Operation

/-!
Requests that can be read back. Whatever is asked, each call shows the read that it was queued for, so
that whoever knows the functions can answer it and only reads that ask the same share a place.
-/
namespace PoolSnapshot

/-- Each call of the request shows its read, and those of different reads have different places. -/
def Request.Legible (q : Request) : Prop :=
  ∃ (R : Type) (ρs : List (Read R)), Read.Make ρs q.calls ∧ List.Forall₂ Read.ToldBy ρs q.calls ∧
    ∀ (i j : Nat) ρ ρ', ρs[i]? = some ρ → ρs[j]? = some ρ' →
      ((Call.coalesce q.calls).1[i]? = (Call.coalesce q.calls).1[j]? ↔ ρ.Same ρ')

theorem Read.Make.legible {q : Request} {ρs : List (Read R)} (h : Make ρs q.calls) : q.Legible := by
  refine ⟨R, ρs, h, h.toldBy, fun i j ρ ρ' here there => ?_⟩
  obtain ⟨c, at_i, calls⟩ := Traverse.exists_getElem? h.calls.flip here
  obtain ⟨c', at_j, calls'⟩ := Traverse.exists_getElem? h.calls.flip there
  obtain ⟨_, _, queued⟩ := h.queued ρ (List.mem_of_getElem? here)
  obtain ⟨_, _, queued'⟩ := h.queued ρ' (List.mem_of_getElem? there)
  rw [Call.place_eq_iff at_i at_j]
  exact queued.same_iff queued' calls calls'

theorem Program.Sound.legible {P : Program Request Reply ε ρ} {source? : ε → Option BatchError}
    (h : P.Sound source? E block) (run : P.Run asked r) : ∀ x ∈ asked, x.1.Legible := by
  intro x m
  obtain ⟨parts, course, rfl⟩ := run.course
  obtain ⟨R, τ, sound, asks⟩ := h.asked course x m
  obtain ⟨ρs, make⟩ := sound.reads x.1 asks
  exact make.legible

/-- The first four bytes of any queued call are those of one function, the method of the read, and the
bytes after them are its arguments; no two reads that differ look alike to their target. -/
theorem call_data_identifies :
    (∀ (R : Type) mode slot (ρ : Read R), ρ.Queued mode slot →
      ∃ c, ρ.Calls c ∧ ∃ f, f.name = ρ.method ∧ c.Tells ρ.contract.address f ρ.args) ∧
    (∀ (R R' : Type) mode mode' slot slot' (ρ : Read R) (ρ' : Read R') c c',
      ρ.Queued mode slot → ρ'.Queued mode' slot' → ρ.Calls c → ρ'.Calls c' → c.target = c'.target →
        (c.data = c'.data ↔ ρ.method = ρ'.method ∧ ρ.args = ρ'.args)) ∧
    (∀ σ (ω : Operation σ) (α : Addresses) (β : Batching) block asked r,
      (ω.program ⟨.ofAddresses α, β, block⟩).Run asked r → ∀ x ∈ asked, x.1.Legible) ∧
    ∀ storage multicall block asked r, (Network.load storage multicall block).Run asked r →
      ∀ x ∈ asked, x.1.Legible := by
  refine ⟨?told, ?apart, ?survey, ?contracts⟩
  case told =>
    intro R mode slot ρ queued
    obtain ⟨f, -, name, calls, tells⟩ := queued.exists_call
    exact ⟨_, calls, f, name, tells⟩
  case apart =>
    intro R R' mode mode' slot slot' ρ ρ' c c' queued queued' calls calls' target
    have same : c = c' ↔ c.data = c'.data := by
      cases c
      cases c'
      rw [Call.mk.injEq]
      exact and_iff_right target
    have here : ρ.contract.address = ρ'.contract.address := by
      obtain ⟨f, -, tells⟩ := queued.toldBy calls
      obtain ⟨f', -, tells'⟩ := queued'.toldBy calls'
      rw [← tells.target, target, tells'.target]
    rw [← same, queued.same_iff queued' calls calls']
    exact ⟨fun s => ⟨s.method, s.args⟩, fun s => ⟨here, s.1, s.2⟩⟩
  case survey =>
    intro σ ω α β block asked r run
    have sound : Survey.Sound ⟨.ofAddresses α, β, block⟩ _ _ := Survey.sound_program ω rfl
    exact Program.Sound.legible sound run
  case contracts =>
    intro storage multicall block asked r run
    exact (Network.sound_load storage multicall block).legible run

/-- Neighbours in a node's list, and a count. -/
theorem call_data_identifies_neighbours :
    let ς : Survey := ⟨.ofAddresses ⟨1, 2, 3, 4, 5, 6, 7, 8, 9⟩, {}, 7⟩
    let read (index : Nat) : Read Address := (Collection.nodeMinipools 5).addressRead ς.network 0 index
    (∃ c c', (read 3).Calls c ∧ (read 4).Calls c' ∧ c.target = c'.target ∧ c.data ≠ c'.data) ∧
      ∃ asked, (ς.count .allMinipools).Run asked (.ok 2) ∧ ∀ x ∈ asked, x.1.Legible := by
  intro ς read
  obtain ⟨told, apart, survey, -⟩ := call_data_identifies
  constructor
  · have queued (index : Nat) : (read index).Queued .strict 0 := .address _ _ 0 index
    obtain ⟨c, calls, f, -, tells⟩ := told _ _ _ _ (queued 3)
    obtain ⟨c', calls', f', -, tells'⟩ := told _ _ _ _ (queued 4)
    have target : c.target = c'.target := tells.target.trans tells'.target.symm
    refine ⟨c, c', calls, calls', target, fun same => ?_⟩
    obtain ⟨-, args⟩ := (apart _ _ _ _ _ _ _ _ c c' (queued 3) (queued 4) calls calls' target).mp same
    simp [read, Collection.addressRead, Read.of] at args
  · let answer : Request → Reply := pointwise (fun _ => ⟨true, Abi.word 2⟩) fun _ => ""
    obtain ⟨asked, run, -⟩ := Program.comes_eval answer (ς.count .allMinipools)
    have evaluated : (ς.count .allMinipools).eval answer = .ok 2 := by
      subst ς answer
      rfl
    rw [evaluated] at run
    exact ⟨asked, run, survey _ (.count .allMinipools) _ _ _ asked _ run⟩

end PoolSnapshot
