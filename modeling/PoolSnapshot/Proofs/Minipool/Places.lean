import PoolSnapshot.Proofs.Minipool.Amounts

/-!
Where the answers for a record stand. Records without a positive amount have no calls, so the calls of one
record begin after those of the records before it in its chunk, however many these are.
-/
namespace PoolSnapshot

open Minipool (Raw Shares)

namespace Batch

variable {R : Type} {pre own post es : List (Entry R × Outcome)} {s : Nat}

theorem writes_append (es es' : List (Entry R × Outcome)) : writes (es ++ es') = writes es ++ writes es' :=
  List.filterMap_append

theorem writes_other (other : ∀ p ∈ es, p.1.slot ≠ s) : (writes es).filter (·.1 = s) = [] := by
  refine List.filter_eq_nil_iff.mpr fun w m => ?_
  obtain ⟨p, n, here⟩ := List.mem_filterMap.mp m
  obtain ⟨g, -, rfl⟩ := Option.map_eq_some_iff.mp here
  simpa using other p n

/-- A record is what the outcomes for its own slot make of it. -/
theorem getElem?_bound_own (before : ∀ p ∈ pre, p.1.slot ≠ s) (after : ∀ p ∈ post, p.1.slot ≠ s) (rs : List R) :
    (bound (pre ++ own ++ post) rs)[s]? =
      rs[s]?.map fun x => ((writes own).filter (·.1 = s)).foldl (fun x w => w.2 x) x := by
  rw [bound_eq_written, getElem?_written, writes_append, writes_append, List.filter_append, List.filter_append,
    writes_other before, writes_other after, List.nil_append, List.append_nil]

/-- The outcomes of the parts of a batch. -/
theorem exists_outcomes {b₁ b₂ b₃ : Batch R} {os : List Outcome} (length : os.length = (b₁ ++ b₂ ++ b₃).length) :
    ∃ os₁ os₂ os₃, os = os₁ ++ os₂ ++ os₃ ∧ os₁.length = b₁.length ∧ os₂.length = b₂.length ∧
      (b₁ ++ b₂ ++ b₃).zip os = b₁.zip os₁ ++ b₂.zip os₂ ++ b₃.zip os₃ := by
  let later := os.drop b₁.length
  have parts : os = os.take b₁.length ++ later.take b₂.length ++ later.drop b₂.length := by
    rw [List.append_assoc, List.take_append_drop, List.take_append_drop]
  simp only [List.length_append] at length
  have first : (os.take b₁.length).length = b₁.length := by
    rw [List.length_take]
    omega
  have second : (later.take b₂.length).length = b₂.length := by
    rw [List.length_take, List.length_drop]
    omega
  refine ⟨_, _, _, parts, first, second, ?_⟩
  conv_lhs => rw [parts]
  rw [List.zip_append (by rw [List.length_append, List.length_append, first, second]), List.zip_append first.symm]

/-- A strict batch that went through: its outcomes, bound in their order, and the request that they answer. -/
theorem finished_strict {b : Batch R} {report : BatchError → ε} {rs out : List R}
    {heard due : List (Request × Reply)}
    (g : (b.worker .strict block report fun _ rs => rs).Goes rs heard due (.finished out)) :
    ∃ os, os.length = b.length ∧ out = bound (b.zip os) rs ∧ (∀ p ∈ b.zip os, p.1.Takes p.2) ∧
      (b ≠ [] → (b.request .strict block, .ok os) ∈ heard) := by
  rcases finished_worker g with ⟨rfl, rfl⟩ | ⟨os, rs', flags, rfl, settled, rfl⟩
  · exact ⟨[], rfl, rfl, List.forall_mem_nil _, fun some => absurd rfl some⟩
  · obtain ⟨_, ⟨⟩, length, p⟩ := passes_of_settle settled
    exact ⟨os, length, p.records_eq, p.takes, fun _ => List.mem_singleton_self _⟩

end Batch

namespace Read

variable {R : Type} {ρ : Read R} {ρs : List (Read R)}

theorem change?_entry (made : ρ.entry = .ok e) (o : Outcome) : e.change? o = ρ.change? fun _ => o := by
  rw [change?, made]
  rfl

theorem map_call_entries {b : Batch R} (made : List.Forall₂ (fun ρ e => ρ.entry = .ok e) ρs b)
    (calls : List.Forall₂ Calls ρs cs) : b.map (·.call) = cs := by
  obtain ⟨b', built, rfl⟩ := exists_ofReads calls
  cases (Traverse.mapM_eq_ok.mpr made).symm.trans built
  rfl

end Read

namespace Minipool

/-- What is left of the balance without the refund. -/
def Raw.rest (r : Raw) : Int := (r.balance.toNat : Int) - r.nodeRefundBalance.toNat

def Raw.calls (r : Raw) : List Call := shareCalls r.address r.rest

/-- The shares of the `j`-th record of a chunk: its own amount, and what its own two calls brought. -/
structure Shares.Heard (block : Nat) (asked : List (Request × Reply)) (rs : List Raw) (j : Nat) (r : Raw)
    (s : Shares) : Prop where
  balance : r.balance.toNat < 2 ^ 255
  refund : r.nodeRefundBalance.toNat < 2 ^ 255
  amount : s.distributableBalance = r.rest
  none : r.rest ≤ 0 → s.nodeShareOfBalance = 0 ∧ s.userShareOfBalance = 0
  some : 0 < r.rest → ∃ (w : Word) (os : List Outcome) (n u : Outcome),
    let before := (rs.take j).flatMap Raw.calls
    let after := (rs.drop (j + 1)).flatMap Raw.calls
    let own : List Call := [.to r.address "calculateNodeShare(uint256)" [.uint w],
      .to r.address "calculateUserShare(uint256)" [.uint w]]
    (w.toNat : Int) = r.rest ∧ (⟨before ++ own ++ after, false, block⟩, .ok os) ∈ asked ∧
      os[before.length]? = some n ∧ os[before.length + 1]? = some u ∧
      n.Is (.uint 256) (.uint s.nodeShareOfBalance) ∧ u.Is (.uint 256) (.uint s.userShareOfBalance)

namespace Shares

variable {ν : Network} {rs : List Raw} {amounts : List Int} {j : Nat}

theorem amounts_eq (h : rs.mapM distributable = .ok amounts) :
    amounts = rs.map Raw.rest ∧
      ∀ r ∈ rs, r.balance.toNat < 2 ^ 255 ∧ r.nodeRefundBalance.toNat < 2 ^ 255 := by
  have each := Traverse.mapM_eq_ok.mp h
  constructor
  · rw [eq_comm, ← List.forall₂_eq_eq_eq, List.forall₂_map_left_iff]
    exact each.imp fun r amount h => (distributable_eq_ok h).2.2.symm
  · intro r m
    obtain ⟨amount, -, h⟩ := Traverse.exists_left each.flip m
    exact ⟨(distributable_eq_ok h).1, (distributable_eq_ok h).2.1⟩

/-- The reads of records from slot `k` on, each for what is left of its balance. -/
def readsFrom (ν : Network) (k : Nat) (rs : List Raw) : List (Read Shares) :=
  (rs.zipIdx k).flatMap fun (r, slot) => reads ν slot r r.rest

theorem readsFrom_append (ν : Network) (k : Nat) (rs rs' : List Raw) :
    readsFrom ν k (rs ++ rs') = readsFrom ν k rs ++ readsFrom ν (k + rs.length) rs' := by
  rw [readsFrom, List.zipIdx_append, List.flatMap_append]
  rfl

theorem calls_readsFrom (ν : Network) (k : Nat) (rs : List Raw) :
    List.Forall₂ Read.Calls (readsFrom ν k rs) (rs.flatMap Raw.calls) := by
  induction rs generalizing k with
  | nil => exact .nil
  | cons r rs ih =>
    have own : List.Forall₂ Read.Calls (reads ν k r r.rest) r.calls := calls_shares default k r r.rest
    exact List.rel_append own (ih (k + 1))

theorem slot_entries {b : Batch Shares}
    (made : List.Forall₂ (fun ρ e => ρ.entry = .ok e) (readsFrom ν k rs) b) (m : e ∈ b) :
    k ≤ e.slot ∧ e.slot < k + rs.length := by
  obtain ⟨ρ, n, made⟩ := Traverse.exists_left made m
  obtain ⟨⟨r, slot⟩, here, n⟩ := List.mem_flatMap.mp n
  rw [Read.slot_entry made, (placed_shares ν).slot_eq (a := (r, r.rest)) n]
  exact ⟨List.le_snd_of_mem_zipIdx here, List.snd_lt_add_of_mem_zipIdx here⟩

/-- The record takes what its two calls brought. -/
theorem writes_sharePair {w : Word} {es : List (Entry Shares)} {os : List Outcome} {slot : Nat} {a : Address}
    (made : List.Forall₂ (fun ρ e => ρ.entry = .ok e) (sharePair ν slot a w withNode withUser) es)
    (length : os.length = es.length) (takes : ∀ p ∈ es.zip os, p.1.Takes p.2) :
    ∃ n u v v', os = [n, u] ∧ n.Is (.uint 256) (.uint v) ∧ u.Is (.uint 256) (.uint v') ∧
      Batch.writes (es.zip os) = [(slot, (withNode · v)), (slot, (withUser · v'))] := by
  simp only [sharePair, List.forall₂_cons_left_iff, List.forall₂_nil_left_iff] at made
  obtain ⟨e, _, node, ⟨e', _, user, rfl, rfl⟩, rfl⟩ := made
  obtain ⟨n, u, rfl⟩ := List.length_eq_two.mp length
  simp only [List.zip_cons_cons, List.zip_nil_left, List.forall_mem_cons] at takes
  obtain ⟨g, brings⟩ := Entry.takes_iff.mp takes.1
  obtain ⟨g', brings'⟩ := Entry.takes_iff.mp takes.2.1
  have first := Read.change?_entry node n ▸ brings
  have second := Read.change?_entry user u ▸ brings'
  obtain ⟨v, is, rfl⟩ := (Read.change?_word rfl rfl rfl rfl).mp first
  obtain ⟨v', is', rfl⟩ := (Read.change?_word rfl rfl rfl rfl).mp second
  refine ⟨n, u, v, v', rfl, is, is', ?_⟩
  simp only [Batch.writes, List.zip_cons_cons, List.zip_nil_left, List.filterMap_cons, List.filterMap_nil, brings,
    brings', Option.map_some, Read.slot_entry node, Read.slot_entry user]
  rfl

/-- The entries of a record stand between those of the records before it and after it. -/
theorem exists_own_entries {b : Batch Shares} {r : Raw}
    (made : List.Forall₂ (fun ρ e => ρ.entry = .ok e) (readsFrom ν 0 rs) b) (here : rs[j]? = some r) :
    ∃ b₁ b₂ b₃, b = b₁ ++ b₂ ++ b₃ ∧ List.Forall₂ (fun ρ e => ρ.entry = .ok e) (reads ν j r r.rest) b₂ ∧
      b₁.map (·.call) = (rs.take j).flatMap Raw.calls ∧ (∀ e ∈ b₁, e.slot ≠ j) ∧ ∀ e ∈ b₃, e.slot ≠ j := by
  have until_here : (rs.take j).length = j :=
    List.length_take_of_le (Nat.le_of_lt (List.getElem?_eq_some_iff.mp here).1)
  rw [Traverse.eq_take_cons_drop here, ← List.singleton_append, ← List.append_assoc, readsFrom_append,
    readsFrom_append] at made
  obtain ⟨b', b₃, rfl, made', after⟩ := Traverse.exists_append_left made
  obtain ⟨b₁, b₂, rfl, before, own⟩ := Traverse.exists_append_left made'
  refine ⟨b₁, b₂, b₃, rfl, ?own, Read.map_call_entries before (calls_readsFrom _ _ _), ?before, ?after⟩
  case own => rwa [readsFrom, Nat.zero_add, until_here, List.zipIdx_singleton, List.flatMap_singleton] at own
  case before =>
    intro e m
    have slot := slot_entries before m
    omega
  case after =>
    intro e m
    have slot := slot_entries after m
    rw [List.length_append, List.length_singleton] at slot
    omega

/-- A chunk that went through leaves every record what its own calls brought. -/
theorem heard_of_finished {ς : Survey} {heard due : List (Request × Reply)} {out : List Shares}
    (g : (worker ς rs).Goes (List.replicate rs.length {}) heard due (.finished out)) :
    out.length = rs.length ∧
      ∀ (j : Nat) r, rs[j]? = some r → ∃ s, out[j]? = some s ∧ Heard ς.block heard rs j r s := by
  rcases worker_cases ς rs with ⟨e, -, same, -⟩ | ⟨amounts, b, settles, same, made, -⟩
  · rw [same] at g
    cases g with
    | change h => cases h
  rw [same] at g
  cases g with
  | change h g =>
    cases h
    obtain ⟨rfl, inRange⟩ := amounts_eq settles
    obtain ⟨os, length, rfl, takes, asked⟩ := Batch.finished_strict g
    refine ⟨by simp, fun j r here => ?_⟩
    obtain ⟨balance, refund⟩ := inRange r (List.mem_of_getElem? here)
    have begins : (List.zipWith settled (List.replicate rs.length {}) (rs.map Raw.rest))[j]? =
        some (settled {} r.rest) := by
      obtain ⟨inside, rfl⟩ := List.getElem?_eq_some_iff.mp here
      simp [inside]
    have made : List.Forall₂ (fun ρ e => ρ.entry = .ok e) (readsFrom ς.network 0 rs) b := by
      rw [← List.map_prod_left_eq_zip, List.zipIdx_map, List.flatMap_map] at made
      exact made
    have calls := Read.map_call_entries made (calls_readsFrom ς.network 0 rs)
    obtain ⟨b₁, b₂, b₃, rfl, own, place, before, after⟩ := exists_own_entries made here
    obtain ⟨os₁, os₂, os₃, rfl, length₁, length₂, zipped⟩ := Batch.exists_outcomes length
    rw [zipped] at takes ⊢
    rw [Batch.getElem?_bound_own (fun p m => before p.1 (List.of_mem_zip m).1)
      (fun p m => after p.1 (List.of_mem_zip m).1), begins, Option.map_some]
    refine ⟨_, rfl, ?_⟩
    by_cases low : r.rest ≤ 0
    · rw [reads, if_pos low] at own
      cases own
      have begun : settled {} r.rest = withoutShares r.rest := if_pos low
      simp only [List.zip_nil_left, Batch.writes, List.filterMap_nil, List.filter_nil, List.foldl_nil, begun]
      exact ⟨balance, refund, rfl, fun _ => ⟨rfl, rfl⟩, fun high => absurd high (Int.not_lt.mpr low)⟩
    · have high : 0 < r.rest := Int.lt_of_not_ge low
      rw [reads, if_neg low] at own
      have taken : ∀ p ∈ b₂.zip os₂, p.1.Takes p.2 := fun p m =>
        takes p (List.mem_append_left _ (List.mem_append_right _ m))
      obtain ⟨n, u, v, v', rfl, is, is', writes⟩ := writes_sharePair own length₂ taken
      have begun : settled {} r.rest = { distributableBalance := r.rest } := if_neg low
      rw [writes, begun]
      simp only [List.filter_cons, decide_true, if_true, List.filter_nil, List.foldl_cons, List.foldl_nil]
      refine ⟨balance, refund, rfl, fun none => absurd none low, fun _ => ?_⟩
      have exact : ((BitVec.ofInt 256 r.rest).toNat : Int) = r.rest := toNat_ofInt high (by rw [Raw.rest]; omega)
      have whole : rs.flatMap Raw.calls =
          (rs.take j).flatMap Raw.calls ++ shareCalls r.address r.rest ++ (rs.drop (j + 1)).flatMap Raw.calls := by
        conv_lhs =>
          rw [Traverse.eq_take_cons_drop here, List.flatMap_append, List.flatMap_cons, ← List.append_assoc]
        rfl
      have place : ((rs.take j).flatMap Raw.calls).length = os₁.length := by
        rw [← place, List.length_map, length₁]
      have asked := asked fun none => by
        simp [List.append_eq_nil_iff.mp (List.append_eq_nil_iff.mp none).1] at length₂
      rw [Batch.request, calls, whole, shareCalls, if_pos high] at asked
      refine ⟨.ofInt 256 r.rest, os₁ ++ [n, u] ++ os₃, n, u, exact, asked, ?_, ?_, is, is'⟩
      · simp [place]
      · simp [place]

variable {r : Raw} {s : Shares}

theorem Heard.mono (h : Heard block asked rs j r s) (sub : asked ⊆ asked') :
    Heard block asked' rs j r s := by
  refine { h with some := fun positive => ?_ }
  obtain ⟨w, os, n, u, exact, here, rest⟩ := h.some positive
  exact ⟨w, os, n, u, exact, sub here, rest⟩

/-- Where every call has one outcome, a record has its shares of that. -/
theorem Heard.sharesOf {f : Call → Outcome} {reason : Request → String}
    (h : Heard block asked rs j r s) (a : Answered (pointwise f reason) asked) :
    SharesOf f r.address r.rest s.nodeShareOfBalance s.userShareOfBalance := by
  rw [SharesOf]
  split
  · next positive =>
    obtain ⟨w, os, n, u, exact, here, at_n, at_u, node, user⟩ := h.some positive
    have reply := a _ here
    simp only [pointwise] at reply
    split at reply
    · obtain rfl := Except.ok.inj reply
      rw [List.getElem?_map, List.append_assoc, List.getElem?_append_right (by omega)] at at_n at_u
      rw [Nat.sub_self] at at_n
      rw [Nat.add_sub_cancel_left] at at_u
      cases at_n
      cases at_u
      exact ⟨w, exact, node, user⟩
    · cases reply
  · next low => exact h.none (Int.not_lt.mp low)

end Shares

/-- One minipool has shares exactly when both numbers fit a sign and the calls for its amount are answered. -/
theorem shared_eq_some {ν : Network} {f : Call → Outcome} {r : Raw} {s : Shares} : shared ν f r = some s ↔
    r.balance.toNat < 2 ^ 255 ∧ r.nodeRefundBalance.toNat < 2 ^ 255 ∧
      ∃ n u, SharesOf f r.address r.rest n u ∧ s = ⟨r.rest, n, u⟩ := by
  have settled {amount : Int} : Shares.distributable r = .ok amount ↔
      r.balance.toNat < 2 ^ 255 ∧ r.nodeRefundBalance.toNat < 2 ^ 255 ∧ amount = r.rest :=
    Traverse.mapError_eq_ok.trans difference_eq_ok
  have shares (small : r.rest < (2 ^ 256 : Nat)) :
      Read.apply f (Shares.begun r.rest) (Shares.reads ν 0 r r.rest) = some s ↔
        ∃ n u, SharesOf f r.address r.rest n u ∧ s = ⟨r.rest, n, u⟩ := by
    have begun (n u : Word) :
        Shares.withUser (Shares.withNode (Shares.begun r.rest) n) u = ⟨r.rest, n, u⟩ := by
      rw [Shares.begun]
      split <;> rfl
    have made : Shares.reads ν 0 r r.rest = if 0 < r.rest then
        sharePair ν 0 r.address (.ofInt 256 r.rest) Shares.withNode Shares.withUser else [] := by
      rw [Shares.reads]
      by_cases low : r.rest ≤ 0
      · rw [if_pos low, if_neg (Int.not_lt.mpr low)]
      · rw [if_neg low, if_pos (Int.lt_of_not_ge low)]
        rfl
    simp only [← begun]
    refine apply_shares small made ?_
    rw [Shares.begun]
    split <;> rfl
  rw [shared, Option.bind_eq_some_iff]
  simp only [Traverse.toOption_eq_some, settled]
  constructor
  · rintro ⟨_, ⟨balance, refund, rfl⟩, h⟩
    exact ⟨balance, refund, (shares (by rw [Raw.rest]; omega)).mp h⟩
  · rintro ⟨balance, refund, h⟩
    exact ⟨_, ⟨balance, refund, rfl⟩, (shares (by rw [Raw.rest]; omega)).mpr h⟩

end Minipool

namespace Survey

variable {ς : Survey} {raw : List Raw} {ss : List Shares}

theorem heard_minipoolShares (h : (ς.minipoolShares raw).Course parts (.ok ss)) : ss.length = raw.length ∧
    ∀ (i : Nat) r s, raw[i]? = some r → ss[i]? = some s →
      ∃ q ∈ Chunk.ranges raw.length ς.batching.minipool, q.start ≤ i ∧ i < q.stop ∧
        Shares.Heard ς.block (parts.flatMap Part.asked) (q.part raw) (i - q.start) r s := by
  obtain ⟨part, rfl, round⟩ := Program.Course.of_together h
  rw [List.flatMap_singleton]
  let Own (p : Raw × Nat) (s : Shares) := ∃ q ∈ Chunk.ranges raw.length ς.batching.minipool,
    q.start ≤ p.2 ∧ p.2 < q.stop ∧ Shares.Heard ς.block part.asked (q.part raw) (p.2 - q.start) p.1 s
  have own : List.Forall₂ Own raw.zipIdx ss := by
    refine round.forall₂_of_asked_chunks (by simp) fun q m heard out sub goes => ?_
    rw [List.length_replicate] at m
    rw [Range.part_replicate] at goes
    obtain ⟨length, each⟩ := Shares.heard_of_finished goes
    refine Traverse.forall₂_iff_getElem?.mpr ⟨by simp [length, Range.part], fun j (r, i) s here there => ?_⟩
    rw [Range.getElem?_part] at here
    split at here
    · next inside =>
      rw [List.getElem?_zipIdx, Option.map_eq_some_iff] at here
      obtain ⟨_, here, ⟨⟩⟩ := here
      obtain ⟨s', there', got⟩ := each j r (by rw [Range.getElem?_part, if_pos inside, here])
      obtain rfl : s' = s := Option.some.inj (there'.symm.trans there)
      refine ⟨q, m, by omega, by omega, ?_⟩
      rw [Nat.zero_add, Nat.add_sub_cancel_left]
      exact got.mono sub
    · cases here
  obtain ⟨length, each⟩ := Traverse.forall₂_iff_getElem?.mp own
  refine ⟨by simpa using length, fun i r s here there => ?_⟩
  exact each i (r, i) s (by simp [here]) there

/-- Shares are of exact amounts: what is asked for is the balance without the refund, and after any chunks each
record has the answers for its own. -/
theorem minipoolShares_exact (ς : Survey) (raw : List Raw) :
    (∀ w v : Word, w.toNat < 2 ^ 255 → v.toNat < 2 ^ 255 →
      ∃ d, w.checkedSub v = some d ∧ d.toInt = (w.toNat : Int) - v.toNat) ∧
    (∀ slot r s κ,
      let (out, κ') := (Shares.enqueue ς.network slot r s).run.run κ
      Shares.Enqueued slot r s κ out κ') ∧
    (∀ rs ss, ss.length = rs.length →
      let (out, κ) := (Shares.enqueueAll ς.network 0 rs ss).run.run .empty
      (∀ e, out = .error e → Shares.worker ς rs = .fail e) ∧
      ∀ begun, out = .ok begun → ∃ f b, κ = .ofBatch b ∧ f ss = (begun, none) ∧
        Shares.worker ς rs = .change f :: b.worker .strict ς.block (.batch .shares) fun _ ss => ss) ∧
    (∀ f reason, (∃ ss, (ς.minipoolShares raw).Returns (pointwise f reason) ss) ↔
      ∀ r ∈ raw, r.balance.toNat < 2 ^ 255 ∧ r.nodeRefundBalance.toNat < 2 ^ 255 ∧
        ∃ n u, Minipool.SharesOf f r.address r.rest n u) ∧
    ∀ asked ss, (ς.minipoolShares raw).Run asked (.ok ss) → ss.length = raw.length ∧
      ∀ i r s, raw[i]? = some r → ss[i]? = some s →
        (∃ q ∈ Chunk.ranges raw.length ς.batching.minipool, q.start ≤ i ∧ i < q.stop ∧
          Shares.Heard ς.block asked (q.part raw) (i - q.start) r s) ∧
        ∀ f reason, Answered (pointwise f reason) asked →
          Minipool.SharesOf f r.address r.rest s.nodeShareOfBalance s.userShareOfBalance := by
  refine ⟨fun w v => Word.checkedSub_of_signed, Shares.enqueued ς.network, ?worker, ?returns, ?own⟩
  case worker =>
    intro rs ss length
    rcases Shares.worker_cases ς rs with ⟨e, -, same, stops⟩ | ⟨amounts, b, -, same, -, goes⟩
    · obtain ⟨κ', stop⟩ := stops ss .empty length
      rw [stop]
      refine ⟨?_, nofun⟩
      rintro _ ⟨⟩
      exact same
    · rw [goes ss .empty length]
      refine ⟨nofun, ?_⟩
      rintro _ ⟨⟩
      exact ⟨_, b, rfl, rfl, same⟩
  case returns =>
    intro f reason
    simp only [Program.returns_iff, ← Traverse.toOption_eq_some, toOption_minipoolShares, Traverse.mapM_eq_some,
      Traverse.exists_forall₂, Minipool.shared_eq_some]
    refine forall₂_congr fun r _ => ⟨?_, ?_⟩
    · rintro ⟨_, balance, refund, n, u, shares, -⟩
      exact ⟨balance, refund, n, u, shares⟩
    · rintro ⟨balance, refund, n, u, shares⟩
      exact ⟨_, balance, refund, n, u, shares, rfl⟩
  case own =>
    intro asked ss run
    obtain ⟨parts, course, rfl⟩ := run.course
    obtain ⟨length, each⟩ := heard_minipoolShares course
    refine ⟨length, fun i r s here there => ?_⟩
    obtain ⟨q, m, start, stop, heard⟩ := each i r s here there
    exact ⟨⟨q, m, start, stop, heard⟩, fun f reason a => heard.sharesOf a⟩

/-- A balance of seven without a refund of two has shares of five, and one that is owed whole has none. -/
theorem minipoolShares_exact_owed :
    let ς : Survey := ⟨.ofAddresses ⟨1, 2, 3, 4, 5, 6, 7, 8, 9⟩, { minipool := 0 }, 0⟩
    let positive : Raw := { address := 10, version := .v1, balance := 7, nodeRefundBalance := 2 }
    let owed : Raw := { address := 11, version := .v1, balance := 2, nodeRefundBalance := 2 }
    let four : Outcome := ⟨true, Abi.encode [.uint 4]⟩
    (∃ d, Word.checkedSub 2 7 = some d ∧ d.toInt = -5) ∧
    ∃ asked, (ς.minipoolShares [owed, positive]).Run asked (.ok [⟨0, 0, 0⟩, ⟨5, 4, 4⟩]) ∧
      Minipool.SharesOf (fun _ => four) 10 5 4 4 ∧ Minipool.SharesOf (fun _ => four) 11 0 0 0 := by
  intro ς positive owed four
  have answered : four.Is (.uint 256) (.uint 4) := ⟨rfl, Abi.Value.decode_encode_elementary trivial rfl trivial⟩
  have returns : (ς.minipoolShares [owed, positive]).Returns (pointwise (fun _ => four) fun _ => "")
      [⟨0, 0, 0⟩, ⟨5, 4, 4⟩] := by
    rw [Program.returns_iff, ← Traverse.toOption_eq_some, toOption_minipoolShares, Traverse.mapM_eq_some]
    refine .cons rfl (.cons ?_ .nil)
    exact Minipool.apply_sharePair.mpr ⟨4, 4, ⟨answered, answered⟩, rfl⟩
  obtain ⟨⟨r, asked, run, now⟩, only⟩ := returns
  obtain rfl := only r ⟨asked, run, now⟩
  obtain ⟨below, -, -, -, own⟩ := minipoolShares_exact ς [owed, positive]
  obtain ⟨-, each⟩ := own asked _ run
  refine ⟨below 2 7 (by decide) (by decide), asked, run, ?_, ?_⟩
  · exact (each 1 positive _ rfl rfl).2 (fun _ => four) _ now
  · exact (each 0 owed _ rfl rfl).2 (fun _ => four) _ now

end Survey

end PoolSnapshot
