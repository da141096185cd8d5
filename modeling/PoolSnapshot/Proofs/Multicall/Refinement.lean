import PoolSnapshot.Proofs.Multicall.Response

/-!
One request stands for many calls. Against a node that runs the multicall contract, what comes back is
what every call by itself comes to, in the order of the calls, or one refusal for all of them.
-/
namespace PoolSnapshot

open Abi (Value)

namespace Call

theorem mem_distinct {c : Call} {cs : List Call} : c ∈ distinct cs ↔ c ∈ cs := by
  induction cs with
  | nil => rfl
  | cons d cs ih =>
    simp only [distinct, List.mem_cons, List.mem_filter, ih, decide_eq_true_eq]
    by_cases e : c = d <;> simp [e]

theorem lookup_zip_map {c : Call} {sent : List Call} (f : Call → Outcome) (h : c ∈ sent) :
    (sent.zip (sent.map f)).lookup c = some (f c) := by
  induction sent with
  | nil => contradiction
  | cons d sent ih =>
    simp only [List.map_cons, List.zip_cons_cons, List.lookup_cons]
    by_cases e : c = d
    · simp [e]
    · rw [beq_false_of_ne e]
      exact ih (List.mem_of_ne_of_mem e h)

theorem expand_map {calls sent : List Call} (f : Call → Outcome) (h : ∀ c ∈ calls, c ∈ sent) :
    expand calls sent (sent.map f) = calls.map f := by
  induction calls with
  | nil => rfl
  | cons c calls ih =>
    simp only [List.forall_mem_cons] at h
    have rest := ih h.2
    simp only [expand] at rest ⊢
    rw [List.filterMap_cons, lookup_zip_map f h.1, rest]
    rfl

end Call

namespace Aggregate

def entry? : Value → Option (Call × Bool)
  | .tuple [.address target, .bool mayFail, .bytes data] => some (⟨target, data⟩, mayFail)
  | _ => none

/-- What the multicall contract reads in the data it is called with: calls, and whether each may
fail. -/
def decodeCalls (data : Bytes) : Option (List (Call × Bool)) :=
  if data.take 4 = function.selector then
    match function.decodeInput data with
    | .ok [.array vs] => vs.mapM entry?
    | _ => none
  else none

theorem callValue_hasTy (allowFailure : Bool) (c : Call) : (callValue allowFailure c).HasTy callTy :=
  ⟨trivial, trivial, trivial, trivial⟩

theorem mapM_entry? (allowFailure : Bool) (cs : List Call) :
    (cs.map (callValue allowFailure)).mapM entry? = some (cs.map (·, allowFailure)) := by
  induction cs with
  | nil => rfl
  | cons c cs ih => simp [List.mapM_cons, callValue, entry?, ih]

theorem decodeCalls_encodeCalls {cs : List Call} {allowFailure : Bool}
    (small : (encodeCalls cs allowFailure).length < 2 ^ 32) :
    decodeCalls (encodeCalls cs allowFailure) = some (cs.map (·, allowFailure)) := by
  simp only [encodeCalls, List.length_append, Abi.Function.length_selector] at small
  have vs := Abi.allHaveTy_map (callValue_hasTy allowFailure) cs
  have r := Abi.decode_encode_array vs rfl (by omega) []
  rw [List.append_nil] at r
  have l := Abi.Function.length_selector function
  simp only [decodeCalls, encodeCalls, Abi.Function.decodeInput, List.take_left' l,
    List.drop_left' l, if_true]
  rw [show function.inputTypes = [.array callTy] from rfl, r]
  exact mapM_entry? allowFailure cs

end Aggregate

open Aggregate (decodeCalls encodeCalls encodeOutcomes)

/-- A node with the multicall contract at an address. Every call has one outcome at a block; a failed
call that may not fail makes the contract revert, and what else is asked is answered in order. -/
structure Serves (address : Address) (f : Nat → Call → Outcome) (node : Execution → NodeReply) :
    Prop where
  answers (ε : Execution) (es : List (Call × Bool)) (here : ε.target = address)
    (read : decodeCalls ε.data = some es) (allowed : ∀ e ∈ es, e.2 ∨ (f ε.block e.1).success) :
    ∃ t, node ε = .result (some t) ∧
      Hex.toBytes? t = some (encodeOutcomes (es.map fun e => f ε.block e.1))
  reverts (ε : Execution) (es : List (Call × Bool)) (here : ε.target = address)
    (read : decodeCalls ε.data = some es) (failed : ∃ e ∈ es, ¬e.2 ∧ ¬(f ε.block e.1).success) :
    ∃ code m, node ε = .refused code m ∧ "revert".toList <:+: m.toList

namespace Serves

/-- The simplest such node: it answers in the plainest text and reverts with one message. -/
def plain (f : Nat → Call → Outcome) (ε : Execution) : NodeReply :=
  match decodeCalls ε.data with
  | none => .refused (-32602) "invalid calls"
  | some es =>
    if es.all fun e => e.2 || (f ε.block e.1).success then
      .result (some (Hex.ofBytes (encodeOutcomes (es.map fun e => f ε.block e.1))))
    else .refused 3 "execution reverted"

theorem serves_plain (address : Address) (f : Nat → Call → Outcome) :
    Serves address f (plain f) where
  answers ε es _ read allowed := by
    have all : es.all (fun e => e.2 || (f ε.block e.1).success) = true :=
      List.all_eq_true.mpr fun e m => by simpa using allowed e m
    simp only [plain, read, if_pos all]
    exact ⟨_, rfl, Hex.toBytes?_ofBytes _⟩
  reverts ε es _ read failed := by
    obtain ⟨e, m, no, bad⟩ := failed
    have all : ¬es.all (fun e => e.2 || (f ε.block e.1).success) = true := by
      intro all
      have h := List.all_eq_true.mp all e m
      simp_all
    simp only [plain, read, if_neg all]
    exact ⟨_, _, rfl, ⟨"execution ".toList, "ed".toList, by decide⟩⟩

end Serves

namespace Multicall

variable {μ : Multicall} {f : Nat → Call → Outcome} {node : Execution → NodeReply} {ρ : Request}

theorem execution_eq_none : μ.execution ρ = none ↔ ρ.calls = [] := by
  cases c : ρ.calls <;> simp [execution, c]

theorem execution_eq_some (h : ρ.calls ≠ []) :
    μ.execution ρ =
      some ⟨μ.address, encodeCalls (Call.distinct ρ.calls) ρ.allowFailure, ρ.block⟩ := by
  rw [execution, if_neg]
  simpa using h

theorem aggregateAfter_of_calls (h : ρ.calls ≠ []) (inTime : delay ≤ μ.timeout.millis) :
    μ.aggregateAfter delay node ρ =
      (settle ρ.calls
        (node ⟨μ.address, encodeCalls (Call.distinct ρ.calls) ρ.allowFailure, ρ.block⟩), delay) := by
  simp only [aggregateAfter, execution_eq_some h, if_pos inTime]

theorem settle_answer {calls : List Call} {g : Call → Outcome}
    (small : (encodeOutcomes ((Call.distinct calls).map g)).length < 2 ^ 32)
    (text : Hex.toBytes? t = some (encodeOutcomes ((Call.distinct calls).map g))) :
    settle calls (.result (some t)) = .ok (calls.map g) := by
  have r := Aggregate.decodeOutcomes_encode_append small []
  rw [List.append_nil] at r
  have all : ∀ c ∈ calls, c ∈ Call.distinct calls := fun _ m => Call.mem_distinct.mpr m
  simp only [settle, NodeReply.read, Option.bind_some, text]
  change (Aggregate.decodeOutcomes _ >>= _) = _
  rw [r]
  change (if _ then _ else _) = _
  rw [if_pos (List.length_map _), Call.expand_map g all]

theorem settle_revert (calls : List Call) (code : Int) (h : "revert".toList <:+: m.toList) :
    settle calls (.refused code m) = .error (.reverted m) := by
  have r : NodeReply.isRevert m = true := String.contains_string_iff.mpr h
  simp only [settle, NodeReply.read, r, if_true]
  rfl

/-- Asking a node that runs the multicall contract is asking for every call by itself. -/
theorem aggregate_refines (μ : Multicall) (f : Nat → Call → Outcome) (node : Execution → NodeReply)
    (ρ : Request) (delay : Nat) (serves : Serves μ.address f node)
    (inTime : delay ≤ μ.timeout.millis)
    (small : (encodeCalls (Call.distinct ρ.calls) ρ.allowFailure).length < 2 ^ 32) :
    (μ.execution ρ = none ↔ ρ.calls = []) ∧
    ((ρ.allowFailure ∨ ∀ c ∈ ρ.calls, (f ρ.block c).success) →
      (encodeOutcomes ((Call.distinct ρ.calls).map (f ρ.block))).length < 2 ^ 32 →
      (μ.aggregateAfter delay node ρ).1 = .ok (ρ.calls.map (f ρ.block))) ∧
    ((¬ρ.allowFailure ∧ ∃ c ∈ ρ.calls, ¬(f ρ.block c).success) →
      ∃ m, (μ.aggregateAfter delay node ρ).1 = .error (.reverted m)) := by
  have read := Aggregate.decodeCalls_encodeCalls small
  refine ⟨execution_eq_none, ?answered, ?reverted⟩
  case answered =>
    intro allowed short
    by_cases none : ρ.calls = []
    · simp [aggregateAfter, execution_eq_none.mpr none, none]
    · have each : ∀ e ∈ (Call.distinct ρ.calls).map (·, ρ.allowFailure),
          e.2 ∨ (f ρ.block e.1).success := by
        intro e mem
        obtain ⟨c, m, rfl⟩ := List.mem_map.mp mem
        exact allowed.imp_right fun all => all c (Call.mem_distinct.mp m)
      obtain ⟨t, reply, text⟩ := serves.answers
        ⟨μ.address, encodeCalls (Call.distinct ρ.calls) ρ.allowFailure, ρ.block⟩ _ rfl read each
      rw [aggregateAfter_of_calls none inTime, reply]
      rw [List.map_map] at text
      exact settle_answer short text
  case reverted =>
    rintro ⟨strict, c, mem, failed⟩
    have none : ρ.calls ≠ [] := List.ne_nil_of_mem mem
    obtain ⟨code, m, reply, revert⟩ := serves.reverts
      ⟨μ.address, encodeCalls (Call.distinct ρ.calls) ρ.allowFailure, ρ.block⟩ _ rfl read
      ⟨(c, ρ.allowFailure), List.mem_map_of_mem (Call.mem_distinct.mpr mem), strict, failed⟩
    rw [aggregateAfter_of_calls none inTime, reply]
    exact ⟨m, settle_revert ρ.calls code revert⟩

/-- A repeated call, an empty one and one that fails. -/
theorem aggregate_refines_three_calls :
    let μ : Multicall := { address := 0xca11 }
    let f : Nat → Call → Outcome := fun block c => ⟨c.target ≠ 2, c.data ++ [UInt8.ofNat block]⟩
    let calls : List Call := [⟨1, [1, 2, 3]⟩, ⟨2, []⟩, ⟨1, [1, 2, 3]⟩]
    Serves μ.address f (Serves.plain f) ∧
      (μ.aggregateAfter 7 (Serves.plain f) ⟨calls, true, 5⟩).1 =
        .ok [⟨true, [1, 2, 3, 5]⟩, ⟨false, [5]⟩, ⟨true, [1, 2, 3, 5]⟩] ∧
      ∃ m, (μ.aggregateAfter 7 (Serves.plain f) ⟨calls, false, 5⟩).1 = .error (.reverted m) := by
  intro μ f calls
  have serves := Serves.serves_plain μ.address f
  have inTime : 7 ≤ μ.timeout.millis := by decide
  have lenient := aggregate_refines μ f (Serves.plain f) ⟨calls, true, 5⟩ 7 serves inTime
    (by decide +kernel)
  have strict := aggregate_refines μ f (Serves.plain f) ⟨calls, false, 5⟩ 7 serves inTime
    (by decide +kernel)
  refine ⟨serves, ?_, ?_⟩
  · exact lenient.2.1 (.inl rfl) (by decide +kernel)
  · exact strict.2.2 ⟨Bool.false_ne_true, ⟨2, []⟩, by decide, by decide⟩

end Multicall

end PoolSnapshot
