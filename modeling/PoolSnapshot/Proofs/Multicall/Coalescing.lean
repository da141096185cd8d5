import PoolSnapshot.Proofs.Multicall.Refinement
import PoolSnapshot.Proofs.Traverse

/-!
Equal calls share a place in the request. One pass over the calls finds the place of each; what comes
back at a place is for all calls that have it and for no others.
-/
namespace PoolSnapshot

open Aggregate (encodeCalls decodeCalls encodeOutcomes)

theorem Traverse.filterMap_eq {f : α → Option β} {xs : List α} {ys : List β}
    (h : List.Forall₂ (fun x y => f x = some y) xs ys) : xs.filterMap f = ys := by
  induction h with
  | nil => rfl
  | cons now _ ih => rw [List.filterMap_cons, now, ih]

namespace Call

/-- The next call gets the place of the equal one before it, or a new one at the end. -/
def place (found : List Nat × List Call) (c : Call) : List Nat × List Call :=
  (found.1 ++ [found.2.idxOf c], if c ∈ found.2 then found.2 else found.2 ++ [c])

/-- The place of each call among those to be sent, and these. -/
def coalesce (calls : List Call) : List Nat × List Call := calls.foldl place ([], [])

/-- Each call to be sent occurs first before the next ones do. -/
theorem pairwise_distinct (cs : List Call) :
    (distinct cs).Pairwise fun c d => cs.idxOf c < cs.idxOf d := by
  induction cs with
  | nil => exact .nil
  | cons a cs ih =>
    have later {c : Call} (m : c ∈ (distinct cs).filter (· ≠ a)) : (a :: cs).idxOf c = cs.idxOf c + 1 :=
      List.idxOf_cons_ne cs (Ne.symm (by simpa using (List.mem_filter.mp m).2))
    refine .cons (fun d m => ?_) ((ih.filter _).imp_of_mem fun {c d} m n lt => ?_)
    · rw [List.idxOf_cons_self, later m]
      exact Nat.succ_pos _
    · rw [later m, later n]
      exact Nat.succ_lt_succ lt

theorem nodup_distinct (cs : List Call) : (distinct cs).Nodup := by
  refine List.Pairwise.imp ?_ (pairwise_distinct cs)
  rintro c _ lt rfl
  exact Nat.lt_irrefl _ lt

theorem distinct_of_nodup {cs : List Call} (h : cs.Nodup) : distinct cs = cs := by
  induction cs with
  | nil => rfl
  | cons c cs ih =>
    obtain ⟨fresh, h⟩ := List.nodup_cons.mp h
    rw [distinct, ih h, List.filter_eq_self.mpr]
    intro d m
    simpa using fun same : d = c => fresh (same ▸ m)

/-- The pass, with places already given out, goes on with those calls that have none. -/
theorem foldl_place (cs : List Call) (ks : List Nat) (sent : List Call) :
    cs.foldl place (ks, sent) =
      let all := sent ++ (distinct cs).filter (· ∉ sent)
      (ks ++ cs.map all.idxOf, all) := by
  induction cs generalizing ks sent with
  | nil => simp [distinct]
  | cons c cs ih =>
    rw [List.foldl_cons, place, ih]
    by_cases m : c ∈ sent
    · have rest : (distinct (c :: cs)).filter (· ∉ sent) = (distinct cs).filter (· ∉ sent) := by
        rw [distinct, List.filter_cons_of_neg (by simpa using m), List.filter_filter]
        refine List.filter_congr fun d _ => ?_
        by_cases e : d = c <;> simp [e, m]
      simp only [if_pos m, rest, List.map_cons, List.idxOf_append_of_mem m, List.append_assoc,
        List.singleton_append]
    · have rest : sent ++ (distinct (c :: cs)).filter (· ∉ sent) =
          (sent ++ [c]) ++ (distinct cs).filter (· ∉ sent ++ [c]) := by
        rw [distinct, List.filter_cons_of_pos (by simpa using m), List.filter_filter, List.append_assoc]
        refine congrArg (sent ++ c :: ·) (List.filter_congr fun d _ => ?_)
        by_cases e : d = c <;> simp [e]
      have place : sent.idxOf c = ((sent ++ [c]) ++ (distinct cs).filter (· ∉ sent ++ [c])).idxOf c := by
        rw [List.idxOf_append_of_mem (by simp), List.idxOf_append_of_notMem m, List.idxOf_eq_length m]
        simp
      simp only [if_neg m, rest, List.map_cons, List.append_assoc, List.singleton_append, place]

theorem coalesce_eq (cs : List Call) : coalesce cs = (cs.map (distinct cs).idxOf, distinct cs) := by
  rw [coalesce, foldl_place]
  simp

/-- Calls share a place exactly if they are equal. -/
theorem place_eq_iff {cs : List Call} {i j : Nat} (here : cs[i]? = some c) (there : cs[j]? = some d) :
    (coalesce cs).1[i]? = (coalesce cs).1[j]? ↔ c = d := by
  have inside : c ∈ distinct cs := mem_distinct.mpr (List.mem_of_getElem? here)
  rw [coalesce_eq, List.getElem?_map, List.getElem?_map, here, there, Option.map_some, Option.map_some,
    Option.some_inj, List.idxOf_inj inside]

theorem lookup_zip (c : Call) {sent : List Call} {os : List Outcome} (h : os.length = sent.length) :
    (sent.zip os).lookup c = os[sent.idxOf c]? := by
  induction sent generalizing os with
  | nil =>
    rw [List.eq_nil_of_length_eq_zero h]
    rfl
  | cons d sent ih =>
    obtain ⟨o, os, rfl⟩ := List.exists_cons_of_length_eq_add_one h
    rw [List.zip_cons_cons, List.lookup_cons, List.idxOf_cons]
    by_cases e : c = d
    · simp [e]
    · rw [beq_false_of_ne e, beq_false_of_ne (Ne.symm e), ih (Nat.succ.inj h)]
      rfl

/-- Each call is handed the outcome at its place. -/
theorem forall₂_expand {calls : List Call} {os : List Outcome} (h : os.length = (distinct calls).length) :
    List.Forall₂ (fun c o => os[(distinct calls).idxOf c]? = some o) calls (expand calls (distinct calls) os) := by
  have found : ∀ c ∈ calls, ∃ o, os[(distinct calls).idxOf c]? = some o := by
    intro c m
    have inside := List.idxOf_lt_length_of_mem (mem_distinct.mpr m)
    exact ⟨_, List.getElem?_eq_getElem (h ▸ inside)⟩
  have lookup : expand calls (distinct calls) os = calls.filterMap fun c => os[(distinct calls).idxOf c]? :=
    List.filterMap_congr fun c _ => lookup_zip c h
  obtain ⟨out, each⟩ := Traverse.exists_forall₂.mpr found
  rw [lookup, Traverse.filterMap_eq each]
  exact each

end Call

namespace Multicall

variable {μ : Multicall} {delay : Nat} {node : Execution → NodeReply} {ρ : Request}

/-- What the round trip brings: outcomes for the calls sent, or why there are none. -/
def trip (μ : Multicall) (delay : Nat) (reply : NodeReply) : Reply :=
  if delay ≤ μ.timeout.millis then reply.read >>= Aggregate.decodeOutcomes
  else .error (.timeout μ.timeout)

theorem trip_of_encoded {os : List Outcome} (inTime : delay ≤ μ.timeout.millis)
    (small : (encodeOutcomes os).length < 2 ^ 32) :
    μ.trip delay (.result (some (Hex.ofBytes (encodeOutcomes os)))) = .ok os := by
  have r := Aggregate.decodeOutcomes_encode_append small []
  rw [List.append_nil] at r
  rw [trip, if_pos inTime, NodeReply.read, Option.bind_some, Hex.toBytes?_ofBytes]
  exact r

theorem trip_of_revert (code : Int) (inTime : delay ≤ μ.timeout.millis) (h : "revert".toList <:+: m.toList) :
    μ.trip delay (.refused code m) = .error (.reverted m) := by
  have r : NodeReply.isRevert m = true := String.contains_string_iff.mpr h
  rw [trip, if_pos inTime, NodeReply.read, if_pos r]
  rfl

/-- The outcomes that came back, handed to the calls they are for if there is one for each call sent. -/
def share (calls : List Call) (os : List Outcome) : Reply :=
  if os.length = (Call.distinct calls).length then .ok (Call.expand calls (Call.distinct calls) os)
  else .error (.outcomeCount (Call.distinct calls).length os.length)

theorem aggregateAfter_eq (h : μ.execution ρ = some ε) :
    (μ.aggregateAfter delay node ρ).1 = μ.trip delay (node ε) >>= share ρ.calls := by
  simp only [aggregateAfter, h, trip]
  split
  · rw [settle]
    cases (node ε).read <;> rfl
  · rfl

/-- Equal calls are sent once, in the order of their first occurrence, and each call is handed what came
back at its place, whatever the node replies. -/
theorem aggregate_coalesces (μ : Multicall) (delay : Nat) (node : Execution → NodeReply) (ρ : Request) :
    let places := (Call.coalesce ρ.calls).1
    let sent := (Call.coalesce ρ.calls).2
    let out := (μ.aggregateAfter delay node ρ).1
    (sent.Nodup ∧ (∀ c, c ∈ sent ↔ c ∈ ρ.calls) ∧
      sent.Pairwise fun c d => ρ.calls.idxOf c < ρ.calls.idxOf d) ∧
    (∀ (i j : Nat) c d, ρ.calls[i]? = some c → ρ.calls[j]? = some d →
      (places[i]? = places[j]? ↔ c.target = d.target ∧ c.data = d.data)) ∧
    ((Call.coalesce sent).2 = sent ∧ μ.execution { ρ with calls := sent } = μ.execution ρ) ∧
    (μ.execution ρ = none → ρ.calls = [] ∧ out = .ok []) ∧
    ∀ ε, μ.execution ρ = some ε →
      ε = ⟨μ.address, encodeCalls sent ρ.allowFailure, ρ.block⟩ ∧
      (ε.data.length < 2 ^ 32 → decodeCalls ε.data = some (sent.map (·, ρ.allowFailure))) ∧
      (∀ os, μ.trip delay (node ε) = .ok os → os.length = sent.length →
        ∃ answers, out = .ok answers ∧ answers.length = ρ.calls.length ∧
          ∀ (i : Nat) c, ρ.calls[i]? = some c →
            ∃ k o, places[i]? = some k ∧ sent[k]? = some c ∧ os[k]? = some o ∧ answers[i]? = some o) ∧
      (∀ os, μ.trip delay (node ε) = .ok os → os.length ≠ sent.length →
        out = .error (.outcomeCount sent.length os.length)) ∧
      ∀ err, μ.trip delay (node ε) = .error err → out = .error err := by
  intro places sent out
  have sent_eq : sent = Call.distinct ρ.calls := congrArg Prod.snd (Call.coalesce_eq ρ.calls)
  have places_eq : places = ρ.calls.map sent.idxOf := by
    rw [sent_eq]
    exact congrArg Prod.fst (Call.coalesce_eq ρ.calls)
  have nodup : sent.Nodup := sent_eq ▸ Call.nodup_distinct ρ.calls
  have mem (c : Call) : c ∈ sent ↔ c ∈ ρ.calls := sent_eq ▸ Call.mem_distinct
  have place {i : Nat} {c : Call} (here : ρ.calls[i]? = some c) : places[i]? = some (sent.idxOf c) := by
    rw [places_eq, List.getElem?_map, here]
    rfl
  refine ⟨⟨nodup, mem, sent_eq ▸ Call.pairwise_distinct ρ.calls⟩, ?same, ⟨?again, ?request⟩, ?nothing,
    ?replies⟩
  case same =>
    intro i j c d at_i at_j
    have inside : c ∈ sent := (mem c).mpr (List.mem_of_getElem? at_i)
    rw [place at_i, place at_j, Option.some_inj, List.idxOf_inj inside, Call.mk.injEq]
  case again => rw [Call.coalesce_eq, Call.distinct_of_nodup nodup]
  case request =>
    have none : sent = [] ↔ ρ.calls = [] := by
      simp only [List.eq_nil_iff_forall_not_mem, mem]
    by_cases e : ρ.calls = []
    · rw [execution_eq_none.mpr e, execution_eq_none.mpr (none.mpr e)]
    · have same : Call.distinct sent = Call.distinct ρ.calls := (Call.distinct_of_nodup nodup).trans sent_eq
      have sent_some : ({ ρ with calls := sent } : Request).calls ≠ [] := mt none.mp e
      rw [execution_eq_some e, execution_eq_some sent_some, same]
  case nothing =>
    intro idle
    exact ⟨execution_eq_none.mp idle, by simp only [out, aggregateAfter, idle]⟩
  case replies =>
    intro ε asks
    have answer : out = μ.trip delay (node ε) >>= share ρ.calls := aggregateAfter_eq asks
    have some_calls : ρ.calls ≠ [] := by
      intro e
      rw [execution_eq_none.mpr e] at asks
      contradiction
    have whole : ε = ⟨μ.address, encodeCalls sent ρ.allowFailure, ρ.block⟩ := by
      rw [execution_eq_some some_calls, ← sent_eq] at asks
      exact (Option.some_inj.mp asks).symm
    refine ⟨whole, ?read, ?answered, ?miscounted, ?refused⟩
    case read =>
      subst whole
      exact Aggregate.decodeCalls_encodeCalls
    case answered =>
      intro os back count
      rw [back] at answer
      rw [sent_eq] at count
      have each := Call.forall₂_expand count
      refine ⟨_, answer.trans (if_pos count), each.length_eq.symm, ?_⟩
      intro i c here
      have inside : c ∈ sent := (mem c).mpr (List.mem_of_getElem? here)
      obtain ⟨o, at_i, own⟩ := Traverse.exists_getElem? each.flip here
      exact ⟨_, o, place here, List.getElem?_idxOf inside, sent_eq ▸ own, at_i⟩
    case miscounted =>
      intro os back count
      rw [back] at answer
      rw [sent_eq] at count ⊢
      exact answer.trans (if_neg count)
    case refused =>
      intro err back
      rw [back] at answer
      exact answer

/-- The same data at two targets, other data at one of them, and a repeated call. -/
theorem aggregate_coalesces_three_of_four :
    let μ : Multicall := { address := 0xca11 }
    let ρ : Request := ⟨[⟨1, [1]⟩, ⟨2, [1]⟩, ⟨1, [2]⟩, ⟨1, [1]⟩], true, 5⟩
    let os : List Outcome := [⟨true, [7]⟩, ⟨false, []⟩, ⟨true, [9]⟩]
    let node (os : List Outcome) (_ : Execution) := NodeReply.result (some (Hex.ofBytes (encodeOutcomes os)))
    Call.coalesce ρ.calls = ([0, 1, 2, 0], [⟨1, [1]⟩, ⟨2, [1]⟩, ⟨1, [2]⟩]) ∧
      (∃ answers, (μ.aggregateAfter 7 (node os) ρ).1 = .ok answers ∧ answers.length = 4 ∧
        answers[0]? = some ⟨true, [7]⟩ ∧ answers[3]? = some ⟨true, [7]⟩) ∧
      (μ.aggregateAfter 7 (node (os.take 2)) ρ).1 = .error (.outcomeCount 3 2) ∧
      (μ.aggregateAfter 7 (fun _ => .refused 3 "execution reverted") ρ).1 =
        .error (.reverted "execution reverted") ∧
      (μ.aggregateAfter 7 (node os) ⟨[], true, 5⟩).1 = .ok [] := by
  intro μ ρ os node
  have coalesced : Call.coalesce ρ.calls = ([0, 1, 2, 0], [⟨1, [1]⟩, ⟨2, [1]⟩, ⟨1, [2]⟩]) := by decide
  have asks := execution_eq_some (μ := μ) (ρ := ρ) (List.cons_ne_nil _ _)
  have whole := aggregate_coalesces μ 7 (node os) ρ
  have short := aggregate_coalesces μ 7 (node (os.take 2)) ρ
  have refused := aggregate_coalesces μ 7 (fun _ => .refused 3 "execution reverted") ρ
  have nothing := aggregate_coalesces μ 7 (node os) ⟨[], true, 5⟩
  simp only [coalesced] at whole short refused
  obtain ⟨-, -, answered, -⟩ := whole.2.2.2.2 _ asks
  obtain ⟨-, -, -, miscounted, -⟩ := short.2.2.2.2 _ asks
  obtain ⟨-, -, -, -, failed⟩ := refused.2.2.2.2 _ asks
  have inTime : 7 ≤ μ.timeout.millis := by decide
  have three : os.length = 3 := rfl
  have two : (os.take 2).length ≠ 3 := by decide
  obtain ⟨answers, ok, length, each⟩ := answered os (trip_of_encoded inTime (by decide +kernel)) three
  have back {i k : Nat} {c : Call} {o : Outcome} (here : ρ.calls[i]? = some c)
      (place : [0, 1, 2, 0][i]? = some k) (got : os[k]? = some o) : answers[i]? = some o := by
    obtain ⟨k', o', place', -, got', out⟩ := each i c here
    obtain rfl : k = k' := Option.some_inj.mp (place.symm.trans place')
    rw [out, ← got', got]
  refine ⟨coalesced, ⟨answers, ok, length, back rfl rfl rfl, back rfl rfl rfl⟩, ?_, ?_, (nothing.2.2.2.1 rfl).2⟩
  · exact miscounted (os.take 2) (trip_of_encoded inTime (by decide +kernel)) two
  · exact failed _ (trip_of_revert 3 inTime ⟨"execution ".toList, "ed".toList, by decide⟩)

end Multicall

end PoolSnapshot
