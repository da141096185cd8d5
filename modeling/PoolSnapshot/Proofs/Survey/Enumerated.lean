import PoolSnapshot.Minipool.Details
import PoolSnapshot.Proofs.Abi.RoundTrip
import PoolSnapshot.Proofs.Survey.Calls
import PoolSnapshot.Proofs.Survey.Stage

/-!
Listing a collection. Where every call has one outcome, the addresses are those that the indices from
zero on are answered with, each index asked once, in blocks.
-/
namespace PoolSnapshot

open Abi (Value)

namespace Collection

variable (κ : Collection) (α : Addresses) {f : Call → Outcome}

def countCall : Call :=
  match κ with
  | allMinipools => .to α.minipoolManager "getMinipoolCount()" []
  | nodeMinipools node => .to α.minipoolManager "getNodeMinipoolCount(address)" [.address node]
  | oracleDaoMembers => .to α.oracleDao "getMemberCount()" []

def indexCall (index : Nat) : Call :=
  let i := Value.uint (BitVec.ofNat 256 index)
  match κ with
  | allMinipools => .to α.minipoolManager "getMinipoolAt(uint256)" [i]
  | nodeMinipools node =>
    .to α.minipoolManager "getNodeMinipoolAt(address,uint256)" [.address node, i]
  | oracleDaoMembers => .to α.oracleDao "getMemberAt(uint256)" [i]

theorem calls_count : (κ.countRead (.ofAddresses α)).Calls (κ.countCall α) := by
  cases κ <;> exact Read.calls_of rfl rfl rfl rfl

theorem calls_address (slot i : Nat) :
    (κ.addressRead (.ofAddresses α) slot i).Calls (κ.indexCall α i) := by
  cases κ <;> exact Read.calls_of rfl rfl rfl rfl

theorem change?_count (h : (f (κ.countCall α)).Is (.uint 256) (.uint w)) :
    (κ.countRead (.ofAddresses α)).change? f = some fun _ => w := by
  have declared : ∃ m, (κ.countRead (.ofAddresses α)).Declares m (.uint 256) := by
    cases κ <;> exact ⟨_, .of rfl rfl rfl⟩
  obtain ⟨m, d⟩ := declared
  refine (Read.change?_eq_some (κ.calls_count α) d).mpr ⟨_, h, ?_⟩
  cases κ <;> rfl

theorem change?_address (slot i : Nat) :
    (κ.addressRead (.ofAddresses α) slot i).change? f = some g ↔
      ∃ a, (f (κ.indexCall α i)).Is .address (.address a) ∧ g = fun _ => a := by
  have declared : ∃ m, (κ.addressRead (.ofAddresses α) slot i).Declares m .address := by
    cases κ <;> exact ⟨_, .of rfl rfl rfl⟩
  have store : (κ.addressRead (.ofAddresses α) slot i).store =
      fun v => (v.read Address).map fun a _ => a := by
    cases κ <;> rfl
  obtain ⟨m, d⟩ := declared
  rw [Read.change?_eq_some (κ.calls_address α slot i) d, store]
  constructor
  · rintro ⟨v, is, stored⟩
    cases v <;> cases stored
    exact ⟨_, is, rfl⟩
  · rintro ⟨a, is, rfl⟩
    exact ⟨_, is, rfl⟩

/-- The answers make a list: how many addresses there are, and the one at each index. -/
structure Lists (f : Call → Outcome) (as : List Address) : Prop where
  count : (f (κ.countCall α)).Is (.uint 256) (.uint (BitVec.ofNat 256 as.length))
  each : ∀ i a, as[i]? = some a → (f (κ.indexCall α i)).Is .address (.address a)

theorem indexCall_inj (hi : i < 2 ^ 256) (hj : j < 2 ^ 256) (same : κ.indexCall α i = κ.indexCall α j) :
    i = j := by
  have word : Value.uint (BitVec.ofNat 256 i) = .uint (BitVec.ofNat 256 j) → i = j := by
    intro e
    injection e with e
    have numbers := congrArg BitVec.toNat e
    rwa [BitVec.toNat_ofNat, BitVec.toNat_ofNat, Nat.mod_eq_of_lt hi, Nat.mod_eq_of_lt hj] at numbers
  have one (w : Word) : Value.EachHasTy [.uint w] [.uint 256] := ⟨trivial, trivial⟩
  have two (a : Address) (w : Word) : Value.EachHasTy [.address a, .uint w] [.address, .uint 256] :=
    ⟨trivial, one w⟩
  cases κ with
  | allMinipools | oracleDaoMembers =>
    obtain ⟨-, -, encoded⟩ := Call.to_inj (Interface.known_of_mem (by decide))
      (Interface.known_of_mem (by decide)) same
    have length : (Abi.encode [.uint (BitVec.ofNat 256 i)]).length = 32 := Abi.length_word _
    have equal := Abi.encode_inj (one _) (one _) (by omega) (List.ne_nil_of_length_pos (by omega)) encoded
    exact word (List.head_eq_of_cons_eq equal)
  | nodeMinipools node =>
    obtain ⟨-, -, encoded⟩ := Call.to_inj (Interface.known_of_mem (by decide))
      (Interface.known_of_mem (by decide)) same
    have length : (Abi.encode [.address node, .uint (BitVec.ofNat 256 i)]).length = 64 := by
      simp [Abi.encode, Value.parts, Value.dynamic, Value.body, Abi.Part.join, Abi.Part.heads, Abi.Part.tails]
    have equal := Abi.encode_inj (two node _) (two node _) (by omega)
      (List.ne_nil_of_length_pos (by omega)) encoded
    exact word (List.head_eq_of_cons_eq (List.tail_eq_of_cons_eq equal))

theorem Lists.at_indices (lists : κ.Lists α f as) :
    List.Forall₂ (fun i a => (f (κ.indexCall α i)).Is .address (.address a)) (List.range as.length) as := by
  refine Traverse.forall₂_iff_getElem?.mpr ⟨List.length_range.symm, fun k i a here there => ?_⟩
  obtain ⟨_, rfl⟩ := List.getElem?_eq_some_iff.mp here
  rw [List.getElem_range]
  exact lists.each k a there

theorem nodup_indexCalls (small : n < 2 ^ 256) : ((List.range n).map (κ.indexCall α)).Nodup := by
  refine List.Nodup.map_on (fun i m j m' same => ?_) List.nodup_range
  have lower := List.mem_range.mp m
  have lower' := List.mem_range.mp m'
  exact κ.indexCall_inj α (by omega) (by omega) same

theorem placed_address (ν : Network) : Placed fun slot i => [κ.addressRead ν slot i] := by
  intro slot i
  cases κ <;> rfl

end Collection

theorem Chunk.part_range (m : r ∈ ranges n size) :
    r.part (List.range n) = List.range' r.start (r.stop - r.start) := by
  have length : (r.part (List.range n)).length = r.stop - r.start := length_part (by rwa [List.length_range])
  refine List.ext_getElem (length.trans List.length_range'.symm) ?_
  intro i _ _
  simp [Range.part]

namespace Survey

/-- A block of indices, each read into the record at its place in the block. -/
theorem reads_eq {κ : Collection} {ν : Network} (m : r ∈ Chunk.ranges n size) :
    ((List.range (r.stop - r.start)).map fun i => κ.addressRead ν i (r.start + i)) =
      readEach (r.part (List.range n)) fun slot i => [κ.addressRead ν slot i] := by
  rw [readEach, ← List.map_eq_flatMap, Chunk.part_range m]
  refine List.ext_getElem (by simp) ?_
  intro i _ _
  simp

/-- The addresses at the indices below `n`. -/
def entries (ς : Survey) (κ : Collection) (n : Nat) : Snapshot (List Address) :=
  ς.inChunks ς.batching.address (List.replicate n (0 : Address)) fun r _ =>
    ς.reader .addresses
      ((List.range (r.stop - r.start)).map fun i => κ.addressRead ς.network i (r.start + i))

/-- The ways to list a collection: to the end, or to the first stage that fails. -/
inductive Listing (ς : Survey) (κ : Collection) :
    List (Part Request Reply) → Except SnapshotError (List Address) → Prop
  | count (c : (Program.alone [0] (ς.reader .count [κ.countRead ς.network])).Course [p] (.error e)) :
      Listing ς κ [p] (.error e)
  | convert (c : (Program.alone [0] (ς.reader .count [κ.countRead ς.network])).Course [p] (.ok ws))
      (h : countOf κ ws = .error e) : Listing ς κ [p] (.error e)
  | noRoom (c : (Program.alone [0] (ς.reader .count [κ.countRead ς.network])).Course [p] (.ok ws))
      (h : countOf κ ws = .ok n) : Listing ς κ [p] (.error (.noRoom κ n))
  | listed (c : (Program.alone [0] (ς.reader .count [κ.countRead ς.network])).Course [p] (.ok ws))
      (h : countOf κ ws = .ok n) (l : (ς.entries κ n).Course [p'] r) : Listing ς κ [p, p'] r

theorem listing_of_course {ς : Survey} (h : (ς.addresses κ).Course parts r) : ς.Listing κ parts r := by
  rcases Program.Course.of_bind h with ⟨n, parts₁, parts₂, rfl, c, l⟩ | ⟨e, c, rfl⟩
  · rcases Program.Course.of_together_bind c with ⟨p, _, ws, rfl, c', k⟩ | ⟨p, e, rfl, c', ⟨⟩⟩
    obtain ⟨rfl, counted⟩ := Program.Course.of_done k
    split at l
    · obtain ⟨p', rfl, -⟩ := Program.Course.of_together l
      exact .listed c' counted.symm l
    · obtain ⟨rfl, rfl⟩ := Program.Course.of_done l
      exact .noRoom c' counted.symm
  · rcases Program.Course.of_together_bind c with ⟨p, _, ws, rfl, c', k⟩ | ⟨p, e', rfl, c', ⟨⟩⟩
    · obtain ⟨rfl, counted⟩ := Program.Course.of_done k
      exact .convert c' counted.symm
    · exact .count c'

theorem lt_of_hasRoom (room : hasRoom n) : n < 2 ^ 63 := by
  simp only [hasRoom, Nat.pow_eq, decide_eq_true_eq] at room
  omega

variable {ς : Survey} {α : Addresses} {κ : Collection} {f : Call → Outcome} {reason : Request → String}
  (deployed : ς.network = .ofAddresses α)

include deployed

/-- The only worker of the count leaves the word that was answered. -/
theorem runAll_count (h : (f (κ.countCall α)).Is (.uint 256) (.uint w)) :
    Task.runAll (pointwise f reason) [⟨[0], ς.reader .count [κ.countRead ς.network]⟩] = .ok [w] := by
  have change := κ.change?_count α h
  have slot : (κ.countRead (.ofAddresses α)).slot = 0 := by cases κ <;> rfl
  have result : Task.result (pointwise f reason) ⟨[0], ς.reader .count [κ.countRead ς.network]⟩ =
      some [w] := by
    refine (Read.result_worker f reason _ _ _ _).trans ?_
    rw [deployed, List.foldlM_cons, Read.write, change, slot]
    rfl
  rw [← Traverse.toOption_eq_some, Task.toOption_runAll, List.mapM_cons, result]
  rfl

theorem questions_count : (ς.reader .count [κ.countRead ς.network]).questions =
    [⟨[κ.countCall α], false, ς.block⟩] := by
  rw [deployed]
  exact Read.questions_workerWith (.cons (κ.calls_count α) .nil) .strict ς.block _ _

omit deployed in
theorem toOption_entries (n : Nat) :
    ((ς.entries κ n).eval (pointwise f reason)).toOption =
      (List.range n).mapM fun i => Read.apply f 0 [κ.addressRead ς.network 0 i] := by
  have records : List.replicate n (0 : Address) = (List.range n).map fun _ => 0 := by
    rw [List.map_const', List.length_range]
  rw [entries, records]
  refine ς.toOption_readers .addresses (κ.placed_address ς.network) fun r m => ?_
  rw [List.length_range] at m
  rw [reads_eq m]

theorem questions_entries (h : (ς.entries κ n).Course [p] (.ok as)) :
    (p.asked.map (·.1)).Perm ((Chunk.slices ς.batching.address (List.range n)).map fun is =>
      ⟨is.map (κ.indexCall α), false, ς.block⟩) := by
  obtain ⟨_, ⟨⟩, round⟩ := Program.Course.of_together h
  refine round.questions.trans (.of_eq ?_)
  rw [Task.chunked_eq, Chunk.slices_eq, List.length_replicate, List.length_range, List.flatMap_map,
    List.map_map, List.map_eq_flatMap]
  refine List.flatMap_congr fun r m => ?_
  have calls : List.Forall₂ Read.Calls
      ((List.range (r.stop - r.start)).map fun i => κ.addressRead (.ofAddresses α) i (r.start + i))
      ((r.part (List.range n)).map (κ.indexCall α)) := by
    rw [Chunk.part_range m, List.range'_eq_map_range, List.map_map]
    refine List.forall₂_map_left_iff.mpr (List.forall₂_map_right_iff.mpr (List.forall₂_same.mpr ?_))
    exact fun i _ => κ.calls_address α i (r.start + i)
  have some : r.part (List.range n) ≠ [] := Chunk.part_ne_nil (by rwa [List.length_range])
  rw [deployed]
  refine (Read.questions_workerWith calls .strict ς.block _ _).trans (if_neg ?_)
  exact fun none => some (List.map_eq_nil_iff.mp none)

theorem runAll_countRead {r : Except SnapshotError (List Word)}
    (h : (f (κ.countCall α)).Is (.uint 256) (.uint w))
    (c : (Program.alone [0] (ς.reader .count [κ.countRead ς.network])).Course [p] r)
    (a : Answered (pointwise f reason) p.asked) :
    r = .ok [w] ∧ p.asked.map (·.1) = [⟨[κ.countCall α], false, ς.block⟩] := by
  obtain ⟨_, ⟨⟩, round⟩ := Program.Course.of_together c
  have left := (round.eq_runAll a).trans (runAll_count deployed h)
  subst left
  refine ⟨rfl, List.perm_singleton.mp (round.questions.trans (.of_eq ?_))⟩
  rw [List.flatMap_singleton]
  exact questions_count deployed

omit deployed in
theorem countOf_singleton : countOf κ [w] =
    if w.toNat < 2 ^ 64 then .ok w.toNat else .error (.conversion (.collection κ) "count" .overflow) := by
  rw [countOf, List.headD_cons, Word.toU64, Word.below, Nat.pow_eq]
  split <;> rfl

/-- What is asked and what comes of it, once the count is known. -/
theorem course_addresses (h : (f (κ.countCall α)).Is (.uint 256) (.uint w))
    (course : (ς.addresses κ).Course parts r)
    (a : Answered (pointwise f reason) (parts.flatMap Part.asked)) :
    ∃ p rest, parts = p :: rest ∧ p.asked.map (·.1) = [⟨[κ.countCall α], false, ς.block⟩] ∧
      ((∃ e, countOf κ [w] = .error e ∧ rest = [] ∧ r = .error e) ∨
        ∃ n, countOf κ [w] = .ok n ∧ ((rest = [] ∧ r = .error (.noRoom κ n)) ∨
          ∃ p', rest = [p'] ∧ (ς.entries κ n).Course [p'] r)) := by
  have first {p rest} (e : parts = p :: rest) : Answered (pointwise f reason) p.asked := by
    subst e
    exact (Answered.append_iff.mp a).1
  cases listing_of_course course with
  | count c => cases (runAll_countRead deployed h c (first rfl)).1
  | convert c no =>
    obtain ⟨⟨⟩, asked⟩ := runAll_countRead deployed h c (first rfl)
    exact ⟨_, [], rfl, asked, .inl ⟨_, no, rfl, rfl⟩⟩
  | noRoom c n =>
    obtain ⟨⟨⟩, asked⟩ := runAll_countRead deployed h c (first rfl)
    exact ⟨_, [], rfl, asked, .inr ⟨_, n, .inl ⟨rfl, rfl⟩⟩⟩
  | listed c n l =>
    obtain ⟨⟨⟩, asked⟩ := runAll_countRead deployed h c (first rfl)
    exact ⟨_, _, rfl, asked, .inr ⟨_, n, .inr ⟨_, rfl, l⟩⟩⟩

/-- Each address is read at its own index. -/
theorem eval_entries_iff : (ς.entries κ n).eval (pointwise f reason) = .ok as ↔
    List.Forall₂ (fun i a => (f (κ.indexCall α i)).Is .address (.address a)) (List.range n) as := by
  rw [← Traverse.toOption_eq_some, toOption_entries, Traverse.mapM_eq_some, deployed]
  have apply (i : Nat) (a : Address) :
      Read.apply f 0 [κ.addressRead (.ofAddresses α) 0 i] = some a ↔
        (f (κ.indexCall α i)).Is .address (.address a) := by
    rw [Read.apply, List.foldlM_cons]
    constructor
    · intro h
      obtain ⟨_, changed, rest⟩ := Option.bind_eq_some_iff.mp h
      obtain ⟨g, change, rfl⟩ := Option.map_eq_some_iff.mp changed
      obtain ⟨b, is, rfl⟩ := (κ.change?_address α 0 i).mp change
      cases rest
      exact is
    · intro is
      rw [(κ.change?_address α 0 i).mpr ⟨a, is, rfl⟩]
      rfl
  simp only [apply]

theorem returns_addresses_iff (h : (f (κ.countCall α)).Is (.uint 256) (.uint w)) :
    (ς.addresses κ).Returns (pointwise f reason) as ↔ hasRoom w.toNat ∧
      List.Forall₂ (fun i a => (f (κ.indexCall α i)).Is .address (.address a)) (List.range w.toNat) as := by
  have counted : (ς.count κ).eval (pointwise f reason) = countOf κ [w] := by
    rw [count, Program.alone, Program.eval_bind, Program.eval_together, runAll_count deployed h]
    rfl
  have entries : (ς.entries κ w.toNat).eval (pointwise f reason) = .ok as ↔ _ := eval_entries_iff deployed
  rw [Program.returns_iff, addresses, Program.eval_bind, counted, countOf_singleton, ← entries]
  by_cases room : hasRoom w.toNat
  · have small := lt_of_hasRoom room
    rw [if_pos (by omega)]
    change Program.eval _ (if hasRoom w.toNat then _ else _) = _ ↔ _
    rw [if_pos room, and_iff_right room]
    rfl
  · refine iff_of_false ?_ fun both => room both.1
    split
    · change ¬Program.eval _ (if hasRoom w.toNat then _ else _) = _
      rw [if_neg room]
      rintro ⟨⟩
    · rintro ⟨⟩

theorem returns_of_lists (lists : κ.Lists α f as) (room : hasRoom as.length) :
    (ς.addresses κ).Returns (pointwise f reason) as := by
  have small := lt_of_hasRoom room
  have number : (BitVec.ofNat 256 as.length).toNat = as.length := Nat.mod_eq_of_lt (by omega)
  rw [returns_addresses_iff deployed lists.count, number]
  exact ⟨room, lists.at_indices⟩

/-- A list is asked for by its count and then by its indices, block by block. -/
theorem requests_of_ok (h : (f (κ.countCall α)).Is (.uint 256) (.uint w))
    (run : (ς.addresses κ).Run asked (.ok as)) (a : Answered (pointwise f reason) asked) :
    ∃ rest, asked.map (·.1) = ⟨[κ.countCall α], false, ς.block⟩ :: rest ∧
      rest.Perm ((Chunk.slices ς.batching.address (List.range w.toNat)).map fun is =>
        ⟨is.map (κ.indexCall α), false, ς.block⟩) := by
  obtain ⟨parts, course, rfl⟩ := run.course
  obtain ⟨p, rest, rfl, counting, stop | ⟨n, counted, stop | ⟨p', rfl, c⟩⟩⟩ :=
    course_addresses deployed h course a
  · obtain ⟨_, -, -, ⟨⟩⟩ := stop
  · cases stop.2
  · rw [countOf_singleton] at counted
    split at counted <;> cases counted
    refine ⟨p'.asked.map (·.1), ?_, questions_entries deployed c⟩
    simp only [List.flatMap_cons, List.flatMap_nil, List.append_nil, List.map_append, counting]
    rfl

theorem requests_of_overflow (h : (f (κ.countCall α)).Is (.uint 256) (.uint w)) (large : 2 ^ 64 ≤ w.toNat)
    (run : (ς.addresses κ).Run asked r) (a : Answered (pointwise f reason) asked) :
    asked.map (·.1) = [⟨[κ.countCall α], false, ς.block⟩] ∧
      r = .error (.conversion (.collection κ) "count" .overflow) := by
  have overflow := (countOf_singleton (κ := κ) (w := w)).trans (if_neg (by omega))
  obtain ⟨parts, course, rfl⟩ := run.course
  obtain ⟨p, rest, rfl, counting, ⟨_, failed, rfl, rfl⟩ | ⟨n, counted, -⟩⟩ :=
    course_addresses deployed h course a
  · cases overflow.symm.trans failed
    exact ⟨by simpa using counting, rfl⟩
  · cases overflow.symm.trans counted

theorem fails_of_missing (h : (f (κ.countCall α)).Is (.uint 256) (.uint w)) (inside : i < w.toNat)
    (none : ∀ a, ¬(f (κ.indexCall α i)).Is .address (.address a))
    (comes : (ς.addresses κ).Comes (pointwise f reason) r) : ∃ e, r = .error e := by
  refine comes.fails ?_
  rintro ⟨as, returns⟩
  obtain ⟨-, each⟩ := (returns_addresses_iff deployed h).mp returns
  obtain ⟨a, -, is⟩ := Traverse.exists_left each.flip (List.mem_range.mpr inside)
  exact none a is

omit deployed

/-- A collection is listed in order, each index asked once and in blocks of neighbours. Short of an answer
nothing is listed, and the list is all that a snapshot of the collection takes from it. -/
theorem addresses_enumerated (f : Call → Outcome) (reason : Request → String) (α : Addresses)
    (β : Batching) (block : Nat) (κ : Collection) :
    let ς : Survey := ⟨.ofAddresses α, β, block⟩
    let answer := pointwise f reason
    let size := max 1 β.address
    let first : Request := ⟨[κ.countCall α], false, block⟩
    (∀ as, κ.Lists α f as → hasRoom as.length →
      (ς.addresses κ).Returns answer as ∧ ((List.range as.length).map (κ.indexCall α)).Nodup ∧
      ∃ blocks : List (List Nat), blocks.flatten = List.range as.length ∧
        blocks.length = (as.length + size - 1) / size ∧ (∀ is ∈ blocks, is ≠ [] ∧ is.length ≤ size) ∧
        ∀ asked r, (ς.addresses κ).Run asked r → Answered answer asked →
          ∃ rest, asked.map (·.1) = first :: rest ∧ (as = [] → rest = []) ∧
            rest.Perm (blocks.map fun is => ⟨is.map (κ.indexCall α), false, block⟩)) ∧
    (∀ w, (f (κ.countCall α)).Is (.uint 256) (.uint w) →
      (2 ^ 64 ≤ w.toNat → ∀ asked r, (ς.addresses κ).Run asked r → Answered answer asked →
        asked.map (·.1) = [first] ∧ r = .error (.conversion (.collection κ) "count" .overflow)) ∧
      ∀ i < w.toNat, (∀ a, ¬(f (κ.indexCall α i)).Is .address (.address a)) →
        ∀ r, (ς.addresses κ).Comes answer r → ∃ e, r = .error e) ∧
    ∀ as, (ς.addresses κ).Returns answer as →
      (κ = .allMinipools → ∀ r, ς.allMinipools.Comes answer r ↔ (ς.minipoolsFor as).Comes answer r) ∧
      ∀ node, κ = .nodeMinipools node →
        ∀ r, (ς.nodeMinipools node).Comes answer r ↔ (ς.minipoolsFor as).Comes answer r := by
  intro ς answer size first
  refine ⟨?listed, ?short, ?snapshots⟩
  case listed =>
    intro as lists room
    have small := lt_of_hasRoom room
    have number : (BitVec.ofNat 256 as.length).toNat = as.length := Nat.mod_eq_of_lt (by omega)
    have listed : (ς.addresses κ).Returns answer as := returns_of_lists rfl lists room
    refine ⟨listed, κ.nodup_indexCalls α (by omega), _, Chunk.flatten_slices β.address _, ?_, ?_, ?_⟩
    · rw [Chunk.length_slices, List.length_range]
      rfl
    · exact fun is m => Chunk.mem_slices m
    · intro asked r run now
      cases listed.2 r ⟨asked, run, now⟩
      obtain ⟨rest, all, indices⟩ := requests_of_ok rfl lists.count run now
      rw [number] at indices
      refine ⟨rest, all, ?_, indices⟩
      rintro rfl
      rw [List.length_nil, List.range_zero, Chunk.slices] at indices
      exact List.perm_nil.mp indices
  case short =>
    intro w counted
    constructor
    · exact fun large asked r run now => requests_of_overflow rfl counted large run now
    · exact fun i inside none r comes => fails_of_missing rfl counted inside none comes
  case snapshots =>
    intro as returns
    constructor
    · rintro rfl
      exact Program.comes_bind_iff returns
    · rintro node rfl
      exact Program.comes_bind_iff returns

/-- Each index is answered with itself. -/
theorem addresses_enumerated_two :
    let ς : Survey := ⟨.ofAddresses ⟨1, 2, 3, 4, 5, 6, 7, 8, 9⟩, { address := 1 }, 0⟩
    let f (c : Call) : Outcome := ⟨true, if c.data.length = 4 then Abi.word 2 else c.data.drop 4⟩
    (ς.addresses .allMinipools).Returns (pointwise f fun _ => "") [0, 1] := by
  intro ς f
  have data_to (t : Address) (s : String) (args : List Value) : (f (.to t s args)).data =
      if (Abi.encode args).length = 0 then Abi.word 2 else Abi.encode args := by
    simp [f, Call.to]
  have lists : Collection.allMinipools.Lists ⟨1, 2, 3, 4, 5, 6, 7, 8, 9⟩ f [0, 1] := by
    refine ⟨⟨rfl, ?_⟩, ?_⟩
    · rw [Collection.countCall, data_to]
      rfl
    · intro i a here
      refine ⟨rfl, ?_⟩
      rw [Collection.indexCall, data_to]
      match i, here with
      | 0, rfl | 1, rfl => rfl
  exact ((addresses_enumerated f (fun _ => "") ⟨1, 2, 3, 4, 5, 6, 7, 8, 9⟩ { address := 1 } 0
    .allMinipools).1 [0, 1] lists (by decide)).1

end Survey

end PoolSnapshot
