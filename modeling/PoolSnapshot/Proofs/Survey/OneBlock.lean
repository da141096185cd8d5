import PoolSnapshot.Proofs.Program.Returns
import PoolSnapshot.Proofs.Survey.Operation

/-!
One block and one lenient stage. A program asks at the block that it was given and at no other, and lets
calls fail where it asks for versions and nowhere else; what is answered at other blocks has no say in
what it comes to.
-/
namespace PoolSnapshot

/-- What answers requests. It may go by all that was asked before, and need not always answer the same. -/
abbrev Aggregator := List (Request × Reply) → Request → Reply → Prop

/-- The replies are those of the aggregator, one after another. -/
def Aggregator.Gives (A : Aggregator) (asked : List (Request × Reply)) : Prop :=
  ∀ before q a after, asked = before ++ (q, a) :: after → A before q a

theorem Aggregator.gives_congr {A A' : Aggregator} {asked : List (Request × Reply)}
    (same : ∀ x ∈ asked, ∀ before, A before x.1 x.2 ↔ A' before x.1 x.2) : A.Gives asked ↔ A'.Gives asked := by
  have each (before : List (Request × Reply)) (q : Request) (a : Reply) (after : List (Request × Reply))
      (split : asked = before ++ (q, a) :: after) : A before q a ↔ A' before q a := by
    refine same (q, a) ?_ before
    rw [split]
    exact List.mem_append_right before List.mem_cons_self
  constructor
  · exact fun gives before q a after split => (each before q a after split).mp (gives before q a after split)
  · exact fun gives before q a after split => (each before q a after split).mpr (gives before q a after split)

namespace Program

variable {ε ρ : Type} {P : Program Request Reply ε ρ}

/-- The program reads one block, and only its version probes may fail. -/
structure ReadsBlock (P : Program Request Reply ε ρ) (block : Nat) : Prop where
  asks : ∀ asked r, P.Run asked r → ∀ x ∈ asked,
    x.1.block = block ∧ (x.1.allowFailure = true ↔ ∀ c ∈ x.1.calls, ∃ a, c = .to a "version()" [])
  blind : ∀ A A' : Aggregator, (∀ before q a, q.block = block → (A before q a ↔ A' before q a)) →
    ∀ r, (∃ asked, P.Run asked r ∧ A.Gives asked) ↔ ∃ asked, P.Run asked r ∧ A'.Gives asked
  constant : ∀ answer answer' : Request → Reply, (∀ q, q.block = block → answer q = answer' q) →
    ∀ r, P.Comes answer r ↔ P.Comes answer' r

theorem Sound.readsBlock {source? : ε → Option BatchError} (h : P.Sound source? E block) : P.ReadsBlock block := by
  have asks : ∀ asked r, P.Run asked r → ∀ x ∈ asked,
      x.1.block = block ∧ (x.1.allowFailure = true ↔ ∀ c ∈ x.1.calls, c.IsProbe) := by
    intro asked r run x m
    obtain ⟨parts, course, rfl⟩ := run.course
    obtain ⟨R, τ, sound, asks⟩ := h.asked course x m
    exact sound.asks x.1 asks
  refine ⟨asks, ?blind, ?constant⟩
  case blind =>
    intro A A' agree r
    refine exists_congr fun asked => and_congr_right fun run => Aggregator.gives_congr ?_
    exact fun x m before => agree before x.1 x.2 (asks asked r run x m).1
  case constant =>
    intro answer answer' agree r
    refine exists_congr fun asked => and_congr_right fun run => ?_
    refine forall₂_congr fun x m => ?_
    rw [agree x.1 (asks asked r run x m).1]

end Program

/-- Whatever is asked of a network, and the finding of its contracts. -/
theorem one_block (block : Nat) :
    (∀ ρ (ω : Operation ρ) (α : Addresses) (β : Batching),
      (ω.program ⟨.ofAddresses α, β, block⟩).ReadsBlock block) ∧
    ∀ storage multicall : Address, (Network.load storage multicall block).ReadsBlock block := by
  constructor
  · intro ρ ω α β
    have sound : Survey.Sound ⟨.ofAddresses α, β, block⟩ _ _ := Survey.sound_program ω rfl
    exact Program.Sound.readsBlock sound
  · intro storage multicall
    exact (Network.sound_load storage multicall block).readsBlock

/-- It makes no difference that nothing is answered at any other block. -/
theorem one_block_count :
    let ς : Survey := ⟨.ofAddresses ⟨1, 2, 3, 4, 5, 6, 7, 8, 9⟩, {}, 7⟩
    let answer (q : Request) : Reply :=
      if q.block = 7 then pointwise (fun _ => ⟨true, Abi.word 3⟩) (fun _ => "") q
      else .error (.transport "")
    (ς.count .oracleDaoMembers).Comes answer (.ok 3) := by
  intro ς answer
  let f (_ : Call) : Outcome := ⟨true, Abi.word 3⟩
  have evaluated : (ς.count .oracleDaoMembers).eval (pointwise f fun _ => "") = .ok 3 := by
    subst ς f
    rfl
  obtain ⟨r, comes⟩ := Program.exists_comes (pointwise f fun _ => "") (ς.count .oracleDaoMembers)
  cases ((Program.returns_iff _ _ _).mpr evaluated).2 r comes
  have reads := (one_block 7).1 _ (.count .oracleDaoMembers) ⟨1, 2, 3, 4, 5, 6, 7, 8, 9⟩ {}
  exact (reads.constant (pointwise f fun _ => "") answer (fun _ here => (if_pos here).symm) _).mp comes

end PoolSnapshot
