import PoolSnapshot.Multicall
import PoolSnapshot.Proofs.Abi.Extension
import PoolSnapshot.Proofs.Abi.RoundTrip

/-!
The response of a multicall: reading gives back every outcome that was written, and a response that is
cut off or goes on too long never reads as another list.
-/
namespace PoolSnapshot

namespace Aggregate

theorem outcomeValue_hasTy (o : Outcome) : (outcomeValue o).HasTy outcomeTy :=
  ⟨trivial, trivial, trivial⟩

theorem mapM_outcome? (os : List Outcome) : (os.map outcomeValue).mapM outcome? = some os := by
  induction os with
  | nil => rfl
  | cons o os ih => simp [List.mapM_cons, outcomeValue, outcome?, ih]

theorem decodeOutcomes_encode_append {os : List Outcome}
    (small : (encodeOutcomes os).length < 2 ^ 32) (s : Bytes) :
    decodeOutcomes (encodeOutcomes os ++ s) = .ok os := by
  have vs := Abi.allHaveTy_map outcomeValue_hasTy os
  have r := Abi.decode_encode_array vs rfl small s
  simp only [decodeOutcomes, encodeOutcomes, r, mapM_outcome?]

theorem decodeOutcomes_append {p : Bytes} (h : decodeOutcomes p = .ok os) (s : Bytes) :
    decodeOutcomes (p ++ s) = .ok os := by
  cases e : Abi.decode [.array outcomeTy] p with
  | error f => simp [decodeOutcomes, e] at h
  | ok vs =>
    simp only [decodeOutcomes, e] at h
    simp only [decodeOutcomes, Abi.decode_ok_append e s]
    exact h

/-- What is no response is malformed, and nothing else is wrong with it. -/
theorem decodeOutcomes_cases (p : Bytes) :
    (∃ os, decodeOutcomes p = .ok os) ∨ ∃ r, decodeOutcomes p = .error (.malformedResponse r) := by
  simp only [decodeOutcomes]
  split
  · exact .inr ⟨_, rfl⟩
  · split
    · exact .inl ⟨_, rfl⟩
    · exact .inr ⟨_, rfl⟩
  · exact .inr ⟨_, rfl⟩

/-- Nothing is lost in a response, and no damage to its length makes another one of it. -/
theorem response_faithful :
    (∀ os, (encodeOutcomes os).length < 2 ^ 32 → decodeOutcomes (encodeOutcomes os) = .ok os) ∧
    (∀ p s os, decodeOutcomes p = .ok os → decodeOutcomes (p ++ s) = .ok os) ∧
    (∀ os s, (encodeOutcomes os).length < 2 ^ 32 →
      decodeOutcomes (encodeOutcomes os ++ s) = .ok os) ∧
    ∀ os p, (encodeOutcomes os).length < 2 ^ 32 → p <+: encodeOutcomes os →
      decodeOutcomes p = .ok os ∨ ∃ r, decodeOutcomes p = .error (.malformedResponse r) := by
  refine ⟨?whole, ?longer, ?followed, ?cut⟩
  case whole =>
    intro os small
    rw [← List.append_nil (encodeOutcomes os)]
    exact decodeOutcomes_encode_append small []
  case longer =>
    intro p s os h
    exact decodeOutcomes_append h s
  case followed =>
    intro os s small
    exact decodeOutcomes_encode_append small s
  case cut =>
    intro os p small c
    obtain ⟨s, e⟩ := c
    obtain ⟨os', h⟩ | malformed := decodeOutcomes_cases p
    · -- the rest of the response can only confirm what the part of it read as
      have whole := decodeOutcomes_append h s
      rw [e, ← List.append_nil (encodeOutcomes os), decodeOutcomes_encode_append small []] at whole
      cases whole
      exact .inl h
    · exact .inr malformed

theorem response_faithful_two_outcomes :
    let os : List Outcome := [⟨true, [1, 2, 3]⟩, ⟨false, []⟩]
    decodeOutcomes (encodeOutcomes os) = .ok os ∧
      decodeOutcomes (encodeOutcomes os ++ [9]) = .ok os ∧
      (decodeOutcomes ((encodeOutcomes os).take 40) = .ok os ∨
        ∃ r, decodeOutcomes ((encodeOutcomes os).take 40) = .error (.malformedResponse r)) := by
  intro os
  have small : (encodeOutcomes os).length < 2 ^ 32 := by decide +kernel
  have h := response_faithful
  exact ⟨h.1 os small, h.2.2.1 os [9] small, h.2.2.2 os _ small (List.take_prefix 40 _)⟩

end Aggregate

end PoolSnapshot
