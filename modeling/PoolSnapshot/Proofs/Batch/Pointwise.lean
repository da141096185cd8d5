import PoolSnapshot.Batch
import PoolSnapshot.Proofs.Traverse

/-!
Batches whose calls have an outcome each. A batch is then no more than its reads one after another: each
does to its record what it would do on its own.
-/
namespace PoolSnapshot

variable {R S ε : Type} {f : Call → Outcome} {reason : Request → String}

/-- The aggregator for which every call has one outcome. A call that may not fail and does has the whole
request refused. -/
def pointwise (f : Call → Outcome) (reason : Request → String) (ρ : Request) : Reply :=
  if ρ.allowFailure || ρ.calls.all (fun c => (f c).success) then .ok (ρ.calls.map f)
  else .error (.reverted (reason ρ))

theorem pointwise_answers {ρ : Request} (h : ρ.allowFailure ∨ ∀ c ∈ ρ.calls, (f c).success) :
    pointwise f reason ρ = .ok (ρ.calls.map f) := by
  rw [pointwise, if_pos]
  simpa using h

theorem pointwise_refuses {ρ : Request} (h : ρ.allowFailure = false) (m : c ∈ ρ.calls)
    (failed : ¬(f c).success) : pointwise f reason ρ = .error (.reverted (reason ρ)) := by
  rw [pointwise, if_neg]
  intro all
  simp only [h, Bool.false_or, List.all_eq_true] at all
  exact failed (all c m)

/-- The records that a worker leaves, unless it fails. -/
def Worker.result (answer : Q → A) (ω : Worker Q A ε R) (rs : List R) : Option (List R) :=
  match ω.run answer rs with
  | (rs, none) => some rs
  | (_, some _) => none

namespace Entry

def inSlot (s : Nat) (e : Entry R) : Entry R := { e with slot := s }

@[simp] theorem slot_inSlot (s : Nat) (e : Entry R) : (e.inSlot s).slot = s := rfl

@[simp] theorem call_inSlot (s : Nat) (e : Entry R) : (e.inSlot s).call = e.call := rfl

def change? (e : Entry R) (o : Outcome) : Option (R → R) := (e.effect 0 o).toOption

@[simp] theorem change?_inSlot (s : Nat) (e : Entry R) (o : Outcome) :
    (e.inSlot s).change? o = e.change? o := rfl

theorem toOption_effect (e : Entry R) (i : Nat) (o : Outcome) : (e.effect i o).toOption = e.change? o := by
  simp only [change?, effect]
  split <;> rfl

theorem change?_of_failed (e : Entry R) (h : ¬o.success) : e.change? o = none := by
  rw [change?, effect, if_neg h]
  rfl

def write (f : Call → Outcome) (rs : List R) (e : Entry R) : Option (List R) :=
  (e.change? (f e.call)).bind fun g => if e.slot < rs.length then some (rs.modify e.slot g) else none

end Entry

namespace Batch

def left (r : List R × Except BatchError (List Bool)) : Option (List R) := r.2.toOption.map fun _ => r.1

theorem left_bind_strict (f : Call → Outcome) (b : Batch R) (i : Nat) (rs : List R) :
    left (bind .strict i (b.map fun e => (e, f e.call)) rs) = b.foldlM (Entry.write f) rs := by
  induction b generalizing i rs with
  | nil => rfl
  | cons e b ih =>
    rw [List.map_cons, List.foldlM_cons, Entry.write, ← e.toOption_effect i]
    cases h : e.effect i (f e.call) with
    | error err =>
      simp only [bind, h]
      split <;> rfl
    | ok g =>
      simp only [bind, h]
      split
      · simp only [Except.toOption, Option.bind_some, Option.bind_eq_bind, ← ih (i + 1)]
        cases bind .strict (i + 1) (b.map fun e => (e, f e.call)) (rs.modify e.slot g) with
        | mk rs' flags => cases flags <;> rfl
      · rfl

theorem foldlM_write_of_failed {b : Batch R} (m : e ∈ b) (h : ¬(f e.call).success) (rs : List R) :
    b.foldlM (Entry.write f) rs = none := by
  induction b generalizing rs with
  | nil => contradiction
  | cons d b ih =>
    rw [List.foldlM_cons]
    cases m with
    | head => rw [Entry.write, Entry.change?_of_failed e h]; rfl
    | tail _ m => cases Entry.write f rs d <;> simp [ih m]

theorem zip_outcomes (f : Call → Outcome) (b : Batch R) :
    b.zip ((b.map (·.call)).map f) = b.map fun e => (e, f e.call) := by
  rw [List.map_map, List.zip_map_right, List.zip_eq_zipWith, List.map_zipWith, List.zipWith_self]
  rfl

theorem left_settle_strict (f : Call → Outcome) (reason : Request → String) (b : Batch R) (block : Nat)
    (rs : List R) :
    left (b.settle .strict (pointwise f reason (b.request .strict block)) rs) =
      b.foldlM (Entry.write f) rs := by
  by_cases all : ∀ c ∈ b.map (·.call), (f c).success
  · rw [pointwise_answers (.inr all), settle]
    simp only [request, List.length_map, if_true, zip_outcomes, left_bind_strict]
  · obtain ⟨e, m, failed⟩ : ∃ e ∈ b, ¬(f e.call).success := by simpa using all
    -- The request is refused, and its reads one after another would have come to `e` and stopped.
    rw [foldlM_write_of_failed m failed, pointwise_refuses rfl (List.mem_map_of_mem m) failed]
    rfl

theorem result_worker {b : Batch R} (h : b.isEmpty = false) (mode : CallMode) (block : Nat)
    (report : BatchError → ε) (finish : List Bool → List R → List R) (answer : Request → Reply)
    (rs : List R) :
    (b.worker mode block report finish).result answer rs =
      let r := b.settle mode (answer (b.request mode block)) rs
      r.2.toOption.map (finish · r.1) := by
  simp only [worker, h, Worker.result, Worker.run, Move.effect, Bool.false_eq_true, if_false]
  cases b.settle mode (answer (b.request mode block)) rs with
  | mk rs' flags => cases flags <;> rfl

end Batch

namespace Read

def inSlot (s : Nat) (ρ : Read R) : Read R := { ρ with slot := s }

/-- What a read by itself does to its record. -/
def change? (f : Call → Outcome) (ρ : Read R) : Option (R → R) :=
  ρ.entry.toOption.bind fun e => e.change? (f e.call)

def write (f : Call → Outcome) (rs : List R) (ρ : Read R) : Option (List R) :=
  (ρ.change? f).bind fun g => if ρ.slot < rs.length then some (rs.modify ρ.slot g) else none

def apply (f : Call → Outcome) (x : R) (ρs : List (Read R)) : Option R :=
  ρs.foldlM (fun x ρ => (ρ.change? f).map (· x)) x

theorem apply_append (f : Call → Outcome) (x : R) (ρs ρs' : List (Read R)) :
    apply f x (ρs ++ ρs') = (apply f x ρs).bind fun x => apply f x ρs' := by
  rw [apply, List.foldlM_append]
  rfl

theorem entry_inSlot (s : Nat) (ρ : Read R) : (ρ.inSlot s).entry = ρ.entry.map (Entry.inSlot s) := by
  simp only [entry, inSlot]
  cases ρ.contract.function ρ.method with
  | error err => rfl
  | ok m =>
    cases k : ρ.contract.call m ρ.args with
    | error err => simp only [bind, Except.bind, k, Except.map]
    | ok c => simp only [bind, Except.bind, k]; rfl

theorem slot_entry {ρ : Read R} (h : ρ.entry = .ok e) : e.slot = ρ.slot := by
  have same : ρ.entry = ρ.entry.map (Entry.inSlot ρ.slot) := entry_inSlot ρ.slot ρ
  rw [h] at same
  injection same with same
  exact congrArg Entry.slot same

theorem store_entry {ρ : Read R} (h : ρ.entry = .ok e) : e.store = ρ.store := by
  simp only [entry] at h
  cases f : ρ.contract.function ρ.method with
  | error err => rw [f] at h; cases h
  | ok f' =>
    cases c : ρ.contract.call f' ρ.args <;> simp only [f, bind, Except.bind, c] at h <;> cases h
    rfl

@[simp] theorem change?_inSlot (f : Call → Outcome) (s : Nat) (ρ : Read R) :
    (ρ.inSlot s).change? f = ρ.change? f := by
  simp only [change?, entry_inSlot]
  cases ρ.entry <;> rfl

theorem write_eq (f : Call → Outcome) (rs : List R) (ρ : Read R) :
    ρ.entry.toOption.bind (Entry.write f rs) = write f rs ρ := by
  simp only [write, change?]
  cases h : ρ.entry with
  | error err => rfl
  | ok e => simp only [Except.toOption, Option.bind_some, Entry.write, slot_entry h]

/-- One request is its reads one after another. -/
theorem result_worker (f : Call → Outcome) (reason : Request → String) (ρs : List (Read R)) (block : Nat)
    (report : BatchError → ε) (rs : List R) :
    (worker ρs block report).result (pointwise f reason) rs = ρs.foldlM (write f) rs := by
  have fuse := Traverse.mapM_bind_foldlM (fun ρ : Read R => ρ.entry.toOption) (Entry.write f) ρs rs
  simp only [write_eq] at fuse
  rw [← fuse, ← Traverse.toOption_mapM, worker, workerWith, Batch.ofReads]
  cases ρs.mapM entry with
  | error err => rfl
  | ok b =>
    cases h : b.isEmpty with
    | true =>
      rw [List.isEmpty_iff.mp h]
      rfl
    | false =>
      simp only [Batch.result_worker h]
      exact Batch.left_settle_strict f reason b block rs

theorem modify_append_cons (pre post : List R) (x : R) (g : R → R) :
    (pre ++ x :: post).modify pre.length g = pre ++ g x :: post := by
  induction pre with
  | nil => rfl
  | cons y pre ih => rw [List.cons_append, List.length_cons, List.modify_succ_cons, ih, List.cons_append]

theorem write_inSlot (f : Call → Outcome) (pre post : List R) (x : R) (ρ : Read R) :
    write f (pre ++ x :: post) (ρ.inSlot pre.length) = (ρ.change? f).map fun g => pre ++ g x :: post := by
  have room : pre.length < (pre ++ x :: post).length := by simp
  rw [write, change?_inSlot]
  cases ρ.change? f with
  | none => rfl
  | some g =>
    change (if pre.length < _ then some ((pre ++ x :: post).modify pre.length g) else none) = _
    rw [if_pos room, modify_append_cons]
    rfl

/-- Reads of one record leave the others alone. -/
theorem foldlM_write (f : Call → Outcome) (pre post : List R) (x : R) (ρs : List (Read R)) :
    (ρs.map (inSlot pre.length)).foldlM (write f) (pre ++ x :: post) =
      (apply f x ρs).map fun x => pre ++ x :: post := by
  induction ρs generalizing x with
  | nil => rfl
  | cons ρ ρs ih =>
    rw [List.map_cons, List.foldlM_cons, write_inSlot, apply, List.foldlM_cons]
    cases ρ.change? f with
    | none => rfl
    | some g => exact ih (g x)

end Read

/-- A record's reads are the same in every slot. -/
def Placed (reads : Nat → S → List (Read R)) : Prop :=
  ∀ slot a, reads slot a = (reads 0 a).map (Read.inSlot slot)

theorem Placed.slot_eq {reads : Nat → S → List (Read R)} (placed : Placed reads) (m : ρ ∈ reads slot a) :
    ρ.slot = slot := by
  rw [placed] at m
  obtain ⟨_, -, rfl⟩ := List.mem_map.mp m
  rfl

theorem foldlM_readEach {reads : Nat → S → List (Read R)} (placed : Placed reads) (pre : List R)
    {as : List S} {post : List R} (h : as.length = post.length) :
    ((as.zipIdx pre.length).flatMap fun (a, slot) => reads slot a).foldlM (Read.write f)
        (pre ++ post) =
      ((as.zip post).mapM fun (a, x) => Read.apply f x (reads 0 a)).map (pre ++ ·) := by
  -- The records of `pre` have been read; the next slot is the first record of `post`.
  induction as generalizing pre post with
  | nil =>
    cases post with
    | nil => rfl
    | cons x post => contradiction
  | cons a as ih =>
    cases post with
    | nil => contradiction
    | cons x post =>
      simp only [List.zipIdx_cons, List.flatMap_cons, List.foldlM_append, List.zip_cons_cons,
        List.mapM_cons]
      rw [placed pre.length a, Read.foldlM_write]
      cases Read.apply f x (reads 0 a) with
      | none => rfl
      | some x =>
        have rest := ih (pre ++ [x]) (Nat.succ.inj h)
        rw [List.length_append, List.append_assoc] at rest
        refine rest.trans ?_
        cases (as.zip post).mapM fun (a, x) => Read.apply f x (reads 0 a) with
        | none => rfl
        | some xs => simp

theorem Batch.bind_lenient_cons {rs : List R} (e : Entry R) (o : Outcome) (i : Nat)
    (es : List (Entry R × Outcome)) (room : e.slot < rs.length) :
    bind .lenient i ((e, o) :: es) rs =
      let r := bind .lenient (i + 1) es ((e.change? o).elim rs (rs.modify e.slot))
      (r.1, r.2.map ((e.change? o).isSome :: ·)) := by
  rw [← e.toOption_effect i]
  cases h : e.effect i o <;> simp only [bind, h, if_pos room] <;> rfl

theorem elim_modify_append_cons (pre post : List R) (x : R) (g : Option (R → R)) :
    g.elim (pre ++ x :: post) ((pre ++ x :: post).modify pre.length) =
      pre ++ [g.elim x (· x)] ++ post := by
  rw [List.append_assoc]
  cases g with
  | none => rfl
  | some g => exact Read.modify_append_cons pre post x g

/-- What one read for each record leaves when it may fail, and where it did not. -/
theorem Batch.bind_lenient (i : Nat) (pre : List R) {es : List (Entry R × Outcome)} {post : List R}
    (h : es.length = post.length) :
    bind .lenient i ((es.zipIdx pre.length).map fun p => (p.1.1.inSlot p.2, p.1.2)) (pre ++ post) =
      (pre ++ List.zipWith (fun p x => (p.1.change? p.2).elim x (· x)) es post,
        .ok (es.map fun p => (p.1.change? p.2).isSome)) := by
  induction es generalizing i pre post with
  | nil =>
    cases post with
    | nil => rfl
    | cons x post => contradiction
  | cons p es ih =>
    obtain ⟨e, o⟩ := p
    cases post with
    | nil => contradiction
    | cons x post =>
      have room : (e.inSlot pre.length).slot < (pre ++ x :: post).length := by simp
      have rest := ih (i + 1) (pre ++ [(e.change? o).elim x (· x)]) (Nat.succ.inj h)
      have now := elim_modify_append_cons pre post x (e.change? o)
      simp only [List.zipIdx_cons, List.map_cons, List.zipWith_cons_cons]
      rw [bind_lenient_cons _ _ _ _ room]
      simp only [List.length_append, List.length_singleton] at rest
      simp only [Entry.change?_inSlot, Entry.slot_inSlot, now, rest]
      simp only [List.append_assoc, List.singleton_append]
      rfl

/-- The same, the outcomes coming in one reply. -/
theorem Batch.settle_probes {es : List (Entry R)} {os : List Outcome} {rs : List R}
    (outcomes : os.length = es.length) (records : es.length = rs.length) :
    settle (es.zipIdx.map fun p => p.1.inSlot p.2) .lenient (.ok os) rs =
      (List.zipWith (fun p x => (p.1.change? p.2).elim x (· x)) (es.zip os) rs,
        .ok ((es.zip os).map fun p => (p.1.change? p.2).isSome)) := by
  have length : (es.zip os).length = rs.length := by
    rw [List.length_zip, outcomes, Nat.min_self, records]
  have pairs : ((es.zip os).zipIdx.map fun p => (p.1.1.inSlot p.2, p.1.2)) =
      (es.zipIdx.map fun p => p.1.inSlot p.2).zip os := by
    refine List.ext_getElem (by simp) ?_
    intro k _ _
    simp
  have settled := bind_lenient 0 [] length
  simp only [List.nil_append, List.length_nil, pairs] at settled
  rw [settle, if_pos (by simpa using outcomes), settled]

theorem Batch.settle_lenient (f : Call → Outcome) (reason : Request → String) (block : Nat)
    {es : List (Entry R)} {rs : List R} (records : es.length = rs.length) :
    let b : Batch R := es.zipIdx.map fun p => p.1.inSlot p.2
    b.settle .lenient (pointwise f reason (b.request .lenient block)) rs =
      (List.zipWith (fun e x => (e.change? (f e.call)).elim x (· x)) es rs,
        .ok (es.map fun e => (e.change? (f e.call)).isSome)) := by
  intro b
  have calls : b.map (·.call) = es.map (·.call) := by
    simp only [b, List.map_map]
    refine List.ext_getElem (by simp) ?_
    intro k _ _
    simp
  have reply : pointwise f reason (b.request .lenient block) = .ok ((es.map (·.call)).map f) := by
    rw [pointwise_answers (.inl rfl), ← calls]
    rfl
  rw [reply, settle_probes (by simp) records, zip_outcomes, List.zipWith_map_left, List.map_map]
  rfl

end PoolSnapshot
