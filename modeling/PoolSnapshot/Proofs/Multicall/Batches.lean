import PoolSnapshot.Proofs.Batch.Modes
import PoolSnapshot.Proofs.Multicall.Refinement

/-!
Batches over a node that runs the multicall contract. Each read gets what its own call comes to at the
block, and one call that may not fail and does refuses the whole batch.
-/
namespace PoolSnapshot

open Aggregate (encodeCalls encodeOutcomes)

variable {R : Type}

/-- Such a node answers as the aggregator of its outcomes does, with a message of its own. -/
theorem Multicall.aggregateAfter_pointwise {μ : Multicall} {f : Nat → Call → Outcome}
    {node : Execution → NodeReply} {ρ : Request} (serves : Serves μ.address f node)
    (inTime : delay ≤ μ.timeout.millis) (full : ρ.calls ≠ [])
    (asks : (encodeCalls (Call.distinct ρ.calls) ρ.allowFailure).length < 2 ^ 32)
    (answers : (encodeOutcomes ((Call.distinct ρ.calls).map (f ρ.block))).length < 2 ^ 32) :
    ∃ m, (μ.aggregateAfter delay node ρ).1 = pointwise (f ρ.block) (fun _ => m) ρ := by
  have read := Aggregate.decodeCalls_encodeCalls asks
  let ε : Execution := ⟨μ.address, encodeCalls (Call.distinct ρ.calls) ρ.allowFailure, ρ.block⟩
  rw [aggregateAfter_of_calls full inTime]
  by_cases allowed : ρ.allowFailure ∨ ∀ c ∈ ρ.calls, (f ρ.block c).success
  · have each : ∀ p ∈ (Call.distinct ρ.calls).map (·, ρ.allowFailure), p.2 ∨ (f ρ.block p.1).success := by
      refine List.forall_mem_map.mpr fun c m => ?_
      exact allowed.imp_right fun all => all c (Call.mem_distinct.mp m)
    obtain ⟨t, reply, text⟩ := serves.answers ε _ rfl read each
    rw [List.map_map] at text
    refine ⟨"", ?_⟩
    rw [reply, pointwise_answers allowed]
    exact settle_answer answers text
  · simp only [not_or, not_forall] at allowed
    obtain ⟨strict, c, m, failed⟩ := allowed
    obtain ⟨code, message, reply, revert⟩ := serves.reverts ε _ rfl read
      ⟨(c, ρ.allowFailure), List.mem_map_of_mem (Call.mem_distinct.mpr m), strict, failed⟩
    refine ⟨message, ?_⟩
    rw [reply, pointwise_refuses (Bool.eq_false_iff.mpr strict) m failed]
    exact settle_revert ρ.calls code revert

namespace Batch

variable {b : Batch R} {f : Call → Outcome} {rs : List R} {answer : Request → Reply} {block : Nat}

/-- The entries, each with the outcome of its own call. -/
def outcomes (f : Call → Outcome) (b : Batch R) : List (Entry R × Outcome) := b.map fun e => (e, f e.call)

theorem execute_answered (reply : answer (b.request mode block) = pointwise f reason (b.request mode block))
    (allowed : mode = .lenient ∨ ∀ e ∈ b, (f e.call).success) (rs : List R) :
    b.execute answer mode block rs = bind mode 0 (outcomes f b) rs := by
  have all : (b.request mode block).allowFailure ∨ ∀ c ∈ (b.request mode block).calls, (f c).success := by
    rw [request]
    exact allowed.imp decide_eq_true List.forall_mem_map.mpr
  rw [pointwise_answers all] at reply
  rw [execute_eq_bind reply (by simp [request]), request, zip_outcomes]
  rfl

theorem execute_refused
    (reply : answer (b.request .strict block) = pointwise f reason (b.request .strict block))
    (m : e ∈ b) (failed : ¬(f e.call).success) (rs : List R) :
    ∃ message, b.execute answer .strict block rs = (rs, .error (.reverted message)) := by
  rw [pointwise_refuses rfl (List.mem_map_of_mem m) failed] at reply
  have full : b.isEmpty = false := List.isEmpty_eq_false_iff_exists_mem.mpr ⟨e, m⟩
  refine ⟨reason (b.request .strict block), ?_⟩
  rw [execute, full, reply]
  rfl

/-- What a batch does over the contract: strictly all of its reads or none, but for an answer that cannot
be read; leniently each read by itself. -/
theorem execute_over_multicall (μ : Multicall) (f : Nat → Call → Outcome) (node : Execution → NodeReply)
    (delay block : Nat) (ρs : List (Read R)) (b : Batch R) (rs : List R)
    (serves : Serves μ.address f node) (inTime : delay ≤ μ.timeout.millis)
    (built : ρs.foldlM add [] = .ok b) (full : b ≠ []) (within : ∀ ρ ∈ ρs, ρ.slot < rs.length)
    (asks : ∀ mayFail, (encodeCalls (Call.distinct (b.map (·.call))) mayFail).length < 2 ^ 32)
    (answers : (encodeOutcomes ((Call.distinct (b.map (·.call))).map (f block))).length < 2 ^ 32) :
    let run (mode : CallMode) := b.execute (fun ρ => (μ.aggregateAfter delay node ρ).1) mode block rs
    let succeeds (e : Entry R) := (f block e.call).success
    let reads (e : Entry R) := ∃ g, e.decode (f block e.call).data = .ok g
    ((∃ e ∈ b, ¬succeeds e) → ∃ message, run .strict = (rs, .error (.reverted message))) ∧
    ((∀ e ∈ b, succeeds e) → (∀ e ∈ b, reads e) →
      run .strict = (bound (outcomes (f block) b) rs, .ok (List.replicate b.length true))) ∧
    ((∀ e ∈ b, succeeds e) → ∀ (i : Nat) ρ e reason, ρs[i]? = some ρ → b[i]? = some e →
      (∀ d ∈ b.take i, reads d) → e.decode (f block e.call).data = .error reason →
      run .strict = (bound (outcomes (f block) (b.take i)) rs,
        .error (.decode ρ.method ρ.contract.address reason))) ∧
    (∃ flags, run .lenient = (bound (outcomes (f block) b) rs, .ok flags) ∧ flags.length = b.length ∧
      ∀ (i : Nat) e flag, b[i]? = some e → flags[i]? = some flag →
        (flag = true ↔ succeeds e ∧ reads e)) ∧
    ∀ mode err, (run mode).2 = .error err → mode = .strict ∧
      ((∃ message, err = .reverted message) ∨ ∃ method target reason, err = .decode method target reason) := by
  intro run succeeds reads
  have made := forall₂_of_added built
  have inside : ∀ p ∈ outcomes (f block) b, p.1.slot < rs.length :=
    List.forall_mem_map.mpr fun e m => within_of_added built within e m
  have reply (mode : CallMode) : ∃ message, (μ.aggregateAfter delay node (b.request mode block)).1 =
      pointwise (f block) (fun _ => message) (b.request mode block) :=
    Multicall.aggregateAfter_pointwise serves inTime (by simpa [request] using full) (asks _) answers
  obtain ⟨_, strictly⟩ := reply .strict
  obtain ⟨_, leniently⟩ := reply .lenient
  have refused (h : ∃ e ∈ b, ¬succeeds e) : ∃ message, run .strict = (rs, .error (.reverted message)) := by
    obtain ⟨e, m, failed⟩ := h
    exact execute_refused strictly m failed rs
  have through (all : ∀ e ∈ b, succeeds e) : run .strict = bind .strict 0 (outcomes (f block) b) rs :=
    execute_answered strictly (.inr all) rs
  have lenient : run .lenient = bind .lenient 0 (outcomes (f block) b) rs :=
    execute_answered leniently (.inl rfl) rs
  rw [bind_lenient_eq inside] at lenient
  have takes (e : Entry R) : e.Takes (f block e.call) ↔ succeeds e ∧ reads e := Iff.rfl
  refine ⟨refused, ?all, ?unread, ⟨_, lenient, ?length, ?flags⟩, ?errors⟩
  case all =>
    intro success read
    rw [through success, bind_strict_through inside, outcomes, List.length_map]
    exact List.forall_mem_map.mpr fun e m => ⟨success e m, read e m⟩
  case unread =>
    intro success i ρ e reason at_ρs at_b before unread
    obtain ⟨ρ', at_ρs', entry⟩ := Traverse.exists_getElem? made at_b
    cases at_ρs.symm.trans at_ρs'
    rw [through success, ← Read.name_entry entry, ← Read.target_entry entry, outcomes, outcomes, List.map_take]
    have succeeded := success e (List.mem_of_getElem? at_b)
    refine bind_strict_first inside ?_ ?_
      ((Entry.effect_eq_error succeeded).mpr ⟨reason, unread, rfl⟩)
    · rw [List.getElem?_map, at_b]
      rfl
    · intro j l p there
      rw [List.getElem?_map, Option.map_eq_some_iff] at there
      obtain ⟨d, there, rfl⟩ := there
      have m : d ∈ b.take i := List.mem_of_getElem? (List.getElem?_take_of_lt l ▸ there)
      exact ⟨success d (List.mem_of_mem_take m), before d m⟩
  case length => rw [outcomes, List.length_map, List.length_map]
  case flags =>
    intro i e flag at_b at_flags
    rw [outcomes, List.map_map, List.getElem?_map, at_b] at at_flags
    cases at_flags
    rw [← takes, Entry.takes_iff]
    exact Option.isSome_iff_exists
  case errors =>
    intro mode err failed
    cases mode with
    | lenient => rw [lenient] at failed; cases failed
    | strict =>
      refine ⟨rfl, ?_⟩
      by_cases success : ∀ e ∈ b, succeeds e
      · rw [through success] at failed
        obtain ⟨pre, e, o, post, split, -, effect⟩ :=
          stop_of_bind inside (Prod.ext rfl failed)
        have here : (e, o) ∈ outcomes (f block) b := split ▸ List.mem_append_right pre List.mem_cons_self
        obtain ⟨d, m, own⟩ := List.mem_map.mp here
        cases own
        obtain ⟨reason, -, rfl⟩ := (Entry.effect_eq_error (success e m)).mp effect
        exact .inr ⟨_, _, reason, rfl⟩
      · obtain ⟨message, stopped⟩ := refused (by simpa using success)
        cases (congrArg Prod.snd stopped).symm.trans failed
        exact .inl ⟨message, rfl⟩

/-- The same read in two slots, and one whose answer is no number. -/
theorem execute_over_multicall_repeated :
    let μ : Multicall := { address := 0xca11 }
    let f (_ : Nat) (c : Call) : Outcome := ⟨true, if c.target = 7 then Abi.word 5 else [1]⟩
    let read (slot : Nat) (a : Address) : Read Word :=
      .of slot ⟨.minipoolManager, a⟩ "getMinipoolCount" [] fun _ (v : Word) => v
    let answer (ρ : Request) : Reply := (μ.aggregateAfter 7 (Serves.plain f) ρ).1
    Serves μ.address f (Serves.plain f) ∧
      ∃ b reason, [read 0 7, read 1 7, read 0 8].foldlM add [] = .ok b ∧
        b.execute answer .strict 3 [0, 0] = ([5, 5], .error (.decode "getMinipoolCount" 8 reason)) ∧
        b.execute answer .lenient 3 [0, 0] = ([5, 5], .ok [true, true, false]) := by
  intro μ f read answer
  have serves := Serves.serves_plain μ.address f
  let g : Abi.Function := .view "getMinipoolCount" [] Interface.word
  let entry (slot : Nat) (a : Address) : Entry Word :=
    ⟨slot, g, ⟨a, g.selector ++ Abi.encode []⟩, (read slot a).store⟩
  let b : Batch Word := [entry 0 7, entry 1 7, entry 0 8]
  have built : [read 0 7, read 1 7, read 0 8].foldlM add [] = .ok b := rfl
  obtain ⟨-, -, unread, ⟨flags, lenient, length, each⟩, -⟩ :=
    execute_over_multicall μ f (Serves.plain f) 7 3 _ b [0, 0] serves (by decide) built (by decide)
      (by simp [read, Read.of]) (by decide +kernel) (by decide +kernel)
  have number (slot : Nat) : ∃ g, (entry slot 7).decode (f 3 (entry slot 7).call).data = .ok g := ⟨_, rfl⟩
  have none (r : ∃ g, (entry 0 8).decode (f 3 (entry 0 8).call).data = .ok g) : False := by
    obtain ⟨g, ⟨⟩⟩ := r
  have first : ∀ d ∈ b.take 2, ∃ g, d.decode (f 3 d.call).data = .ok g :=
    List.forall_mem_cons.mpr ⟨number 0, List.forall_mem_singleton.mpr (number 1)⟩
  refine ⟨serves, b, _, built, unread (by simp [f]) 2 (read 0 8) (entry 0 8) _ rfl rfl first rfl, ?_⟩
  obtain ⟨x, y, z, rfl⟩ := List.length_eq_three.mp length
  have x_eq : x = true := (each 0 (entry 0 7) x rfl rfl).mpr ⟨rfl, number 0⟩
  have y_eq : y = true := (each 1 (entry 1 7) y rfl rfl).mpr ⟨rfl, number 1⟩
  have z_eq : z = false := Bool.eq_false_iff.mpr fun h => none ((each 2 (entry 0 8) z rfl rfl).mp h).2
  rw [x_eq, y_eq, z_eq] at lenient
  exact lenient

end Batch

end PoolSnapshot
