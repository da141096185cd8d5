import PoolSnapshot.Contract.Catalogue
import PoolSnapshot.Proofs.Batch.Reply

/-!
One batch in both modes. What outcomes bring is bound in the order of the calls. A strict pass ends where
a lenient one first passes an outcome over, and has bound by then what the lenient one has.
-/
namespace PoolSnapshot

variable {R : Type}

namespace Read

variable {ρ : Read R} {e : Entry R}

theorem entry_eq_ok (h : ρ.entry = .ok e) :
    ρ.contract.function ρ.method = .ok e.function ∧ ρ.contract.call e.function ρ.args = .ok e.call := by
  obtain ⟨f, found, h⟩ := Traverse.bind_eq_ok.mp h
  obtain ⟨c, made, h⟩ := Traverse.bind_eq_ok.mp h
  cases h
  exact ⟨found, made⟩

theorem name_entry (h : ρ.entry = .ok e) : e.function.name = ρ.method :=
  Contract.name_of_function (entry_eq_ok h).1

theorem target_entry (h : ρ.entry = .ok e) : e.call.target = ρ.contract.address :=
  Contract.target_of_call (entry_eq_ok h).2

end Read

/-- The records after an outcome. One that failed or cannot be read leaves them as they were. -/
def Entry.bound (rs : List R) (p : Entry R × Outcome) : List R :=
  if p.2.success then
    match p.1.decode p.2.data with
    | .ok g => rs.modify p.1.slot g
    | .error _ => rs
  else rs

namespace Entry

theorem effect_eq_error {e : Entry R} {o : Outcome} (success : o.success) :
    e.effect i o = .error err ↔ ∃ reason, e.decode o.data = .error reason ∧
      err = .decode e.function.name e.call.target reason := by
  rw [effect, if_pos success]
  cases e.decode o.data with
  | ok g => simp [Except.mapError]
  | error reason => simp [Except.mapError, eq_comm]

theorem bound_eq (rs : List R) (p : Entry R × Outcome) :
    bound rs p = (p.1.change? p.2).elim rs (rs.modify p.1.slot) := by
  rw [bound, change?, effect]
  split
  · cases p.1.decode p.2.data <;> rfl
  · rfl

theorem length_bound (rs : List R) (p : Entry R × Outcome) : (bound rs p).length = rs.length := by
  rw [bound_eq]
  cases p.1.change? p.2 with
  | none => rfl
  | some g => exact List.length_modify ..

end Entry

namespace Batch

variable {ρs : List (Read R)} {b : Batch R} {mode : CallMode} {es : List (Entry R × Outcome)}
  {rs : List R} {os : List Outcome} {answer : Request → Reply} {block : Nat}

/-- The records after outcomes, in their order. -/
def bound (es : List (Entry R × Outcome)) (rs : List R) : List R := es.foldl Entry.bound rs

/-- Reads added one by one make the batch of them all. -/
theorem foldlM_add (ρs : List (Read R)) (b : Batch R) :
    ρs.foldlM add b = (ofReads ρs).map (b ++ ·) := by
  induction ρs generalizing b with
  | nil => exact congrArg Except.ok (List.append_nil b).symm
  | cons ρ ρs ih =>
    rw [ofReads] at ih ⊢
    rw [List.foldlM_cons, List.mapM_cons, add]
    cases ρ.entry with
    | error err => rfl
    | ok e =>
      refine (ih (b ++ [e])).trans ?_
      cases ρs.mapM Read.entry with
      | error err => rfl
      | ok es => exact congrArg Except.ok (List.append_assoc b [e] es)

theorem forall₂_of_added (built : ρs.foldlM add [] = .ok b) :
    List.Forall₂ (fun ρ e => ρ.entry = .ok e) ρs b := by
  rw [foldlM_add] at built
  cases made : ofReads ρs with
  | error err => rw [made] at built; cases built
  | ok es =>
    rw [made] at built
    cases built
    exact Traverse.mapM_eq_ok.mp made

theorem within_of_added (built : ρs.foldlM add [] = .ok b) (within : ∀ ρ ∈ ρs, ρ.slot < n) :
    b.Within n := by
  intro e m
  obtain ⟨ρ, m, made⟩ := Traverse.exists_left (forall₂_of_added built) m
  exact Read.slot_entry made ▸ within ρ m

@[simp] theorem length_bound (es : List (Entry R × Outcome)) (rs : List R) :
    (bound es rs).length = rs.length := by
  induction es generalizing rs with
  | nil => rfl
  | cons p es ih => exact (ih (Entry.bound rs p)).trans (Entry.length_bound rs p)

theorem Passes.records_eq {rs' : List R} (p : Passes mode es rs rs' flags) : rs' = bound es rs := by
  induction p with
  | done => rfl
  | wrote _ h _ ih => rw [ih, bound, bound, List.foldl_cons, Entry.bound_eq, h]; rfl
  | passed _ h _ ih => rw [ih, bound, bound, List.foldl_cons, Entry.bound_eq, h]; rfl

/-- A lenient pass goes through, and its flags say which outcomes were bound. -/
theorem bind_lenient_eq (within : ∀ p ∈ es, p.1.slot < rs.length) (i : Nat) :
    bind .lenient i es rs = (bound es rs, .ok (es.map fun p => (p.1.change? p.2).isSome)) := by
  obtain ⟨rs', flags, ok⟩ := exists_bind_lenient (i := i) within
  have p := passes_of_bind ok
  rw [ok, p.records_eq, p.flags_eq]

theorem flags_of_takes (takes : ∀ p ∈ es, p.1.Takes p.2) :
    (es.map fun p => (p.1.change? p.2).isSome) = List.replicate es.length true := by
  refine List.eq_replicate_iff.mpr ⟨List.length_map _, List.forall_mem_map.mpr fun p m => ?_⟩
  rw [Option.isSome_iff_exists]
  exact Entry.takes_iff.mp (takes p m)

/-- An outcome that is bound, or may be passed over, leaves the pass to those after it. -/
theorem bind_cons {e : Entry R} {o : Outcome} (room : e.slot < rs.length) (takes : mode = .strict → e.Takes o)
    (i : Nat) (es : List (Entry R × Outcome)) :
    bind mode i ((e, o) :: es) rs =
      let r := bind mode (i + 1) es (Entry.bound rs (e, o))
      (r.1, r.2.map ((e.change? o).isSome :: ·)) := by
  have change := e.toOption_effect i o
  rw [Entry.bound_eq]
  cases f : e.effect i o with
  | ok g =>
    have change : e.change? o = some g := (f ▸ change).symm
    rw [bind_wrote room f, change]
    rfl
  | error err =>
    have change : e.change? o = none := (f ▸ change).symm
    cases mode with
    | strict =>
      obtain ⟨g, some⟩ := Entry.takes_iff.mp (takes rfl)
      cases change.symm.trans some
    | lenient =>
      rw [bind_passed room f, change]
      rfl

/-- As long as outcomes are bound, or may be passed over, the rest goes on from where they led. -/
theorem bind_append (mode : CallMode) {pre : List (Entry R × Outcome)}
    (within : ∀ p ∈ pre, p.1.slot < rs.length) (takes : mode = .strict → ∀ p ∈ pre, p.1.Takes p.2) (i : Nat)
    (es : List (Entry R × Outcome)) :
    bind mode i (pre ++ es) rs =
      let r := bind mode (i + pre.length) es (bound pre rs)
      (r.1, r.2.map ((pre.map fun p => (p.1.change? p.2).isSome) ++ ·)) := by
  induction pre generalizing i rs with
  | nil =>
    have same (r : Except BatchError (List Bool)) : r.map (fun flags => flags) = r := by cases r <;> rfl
    simp only [List.nil_append, List.length_nil, List.map_nil, same]
    rfl
  | cons p pre ih =>
    obtain ⟨room, within⟩ := List.forall_mem_cons.mp within
    have now (strict : mode = .strict) : p.1.Takes p.2 := takes strict p List.mem_cons_self
    have later (strict : mode = .strict) : ∀ p ∈ pre, p.1.Takes p.2 :=
      (List.forall_mem_cons.mp (takes strict)).2
    have rest := @ih (Entry.bound rs p) ((Entry.length_bound rs p).symm ▸ within) later (i + 1)
    have count : i + 1 + pre.length = i + (pre.length + 1) := by omega
    rw [List.cons_append, bind_cons room now, rest, List.length_cons, List.map_cons, count, bound, bound,
      List.foldl_cons]
    generalize bind mode (i + (pre.length + 1)) es _ = done
    obtain ⟨rs', r⟩ := done
    cases r <;> rfl

theorem bind_strict_through (within : ∀ p ∈ es, p.1.slot < rs.length) (takes : ∀ p ∈ es, p.1.Takes p.2) :
    bind .strict 0 es rs = (bound es rs, .ok (List.replicate es.length true)) := by
  have through := bind_append .strict within (fun _ => takes) 0 []
  rw [List.append_nil] at through
  rw [through, flags_of_takes takes]
  exact congrArg (fun flags => (bound es rs, Except.ok flags)) (List.append_nil _)

theorem bind_strict_stopped {pre post : List (Entry R × Outcome)} {e : Entry R} {o : Outcome}
    (within : ∀ p ∈ pre, p.1.slot < rs.length) (takes : ∀ p ∈ pre, p.1.Takes p.2) (room : e.slot < rs.length)
    (h : e.effect pre.length o = .error err) :
    bind .strict 0 (pre ++ (e, o) :: post) rs = (bound pre rs, .error err) := by
  rw [bind_append .strict within (fun _ => takes), Nat.zero_add, bind_stopped ((length_bound pre rs).symm ▸ room) h]
  rfl

/-- A batch whose request is answered with an outcome for each call binds these. -/
theorem execute_eq_bind (reply : answer (b.request mode block) = .ok os) (count : os.length = b.length)
    (rs : List R) : b.execute answer mode block rs = bind mode 0 (b.zip os) rs := by
  rw [execute]
  split
  · next none =>
    rw [List.isEmpty_iff.mp none]
    rfl
  · rw [reply, settle, if_pos count]

/-- The strict pass over outcomes the first of which without effect is the `i`-th. -/
theorem bind_strict_first {e : Entry R} {o : Outcome} (within : ∀ p ∈ es, p.1.slot < rs.length)
    (here : es[i]? = some (e, o)) (before : ∀ j < i, ∀ p, es[j]? = some p → p.1.Takes p.2)
    (h : e.effect i o = .error err) : bind .strict 0 es rs = (bound (es.take i) rs, .error err) := by
  have split := Traverse.eq_take_cons_drop here
  obtain ⟨inside, -⟩ := List.getElem?_eq_some_iff.mp here
  have length : (es.take i).length = i := List.length_take_of_le (Nat.le_of_lt inside)
  have takes : ∀ p ∈ es.take i, p.1.Takes p.2 := by
    intro p m
    obtain ⟨j, l, there⟩ := Traverse.exists_of_mem_take m
    exact before j l p there
  rw [← length] at h
  have stopped : bind .strict 0 (es.take i ++ (e, o) :: es.drop (i + 1)) rs = (bound (es.take i) rs, .error err) :=
    bind_strict_stopped (fun p m => within p (List.mem_of_mem_take m)) takes
      (within _ (List.mem_of_getElem? here)) h
  rwa [← split] at stopped

/-- A read for each record, and an outcome for each read. -/
theorem mem_zip_probes {es : List (Entry R)} {e' : Entry R} {o : Outcome}
    (m : (e', o) ∈ (es.zipIdx.map fun p => p.1.inSlot p.2).zip os) :
    ∃ e k, e' = e.inSlot k ∧ k < es.length ∧ (e, o) ∈ es.zip os := by
  obtain ⟨i, here⟩ := List.mem_iff_getElem?.mp m
  obtain ⟨at_es, at_os⟩ := List.getElem?_zip_eq_some.mp here
  rw [List.getElem?_map, List.getElem?_zipIdx, Option.map_map, Option.map_eq_some_iff] at at_es
  obtain ⟨e, at_es, rfl⟩ := at_es
  obtain ⟨inside, -⟩ := List.getElem?_eq_some_iff.mp at_es
  refine ⟨e, _, rfl, by simpa using inside, ?_⟩
  exact List.mem_of_getElem? (List.getElem?_zip_eq_some.mpr ⟨at_es, at_os⟩)

/-- Strictly, one read for each record leaves what it does leniently if all of them can be bound. -/
theorem settle_probes_strict {es : List (Entry R)} (outcomes : os.length = es.length)
    (records : es.length = rs.length) (takes : ∀ p ∈ es.zip os, p.1.Takes p.2) :
    settle (es.zipIdx.map fun p => p.1.inSlot p.2) .strict (.ok os) rs =
      (List.zipWith (fun p x => (p.1.change? p.2).elim x (· x)) (es.zip os) rs,
        .ok (List.replicate es.length true)) := by
  have within : ∀ p ∈ (es.zipIdx.map fun p => p.1.inSlot p.2).zip os, p.1.slot < rs.length := by
    rintro ⟨_, o⟩ m
    obtain ⟨e, k, rfl, inside, -⟩ := mem_zip_probes m
    exact records ▸ inside
  have taken : ∀ p ∈ (es.zipIdx.map fun p => p.1.inSlot p.2).zip os, p.1.Takes p.2 := by
    rintro ⟨_, o⟩ m
    obtain ⟨e, k, rfl, -, own⟩ := mem_zip_probes m
    exact takes (e, o) own
  have count : os.length = (es.zipIdx.map fun p => p.1.inSlot p.2).length := by simpa using outcomes
  have length : ((es.zipIdx.map fun p => p.1.inSlot p.2).zip os).length = es.length := by simp [outcomes]
  -- Nothing is passed over, so what is known of the lenient pass is true of the strict one.
  have lenient := settle_probes outcomes records
  rw [settle, if_pos count, bind_lenient_eq within] at lenient
  injection lenient with left
  rw [settle, if_pos count, bind_strict_through within taken, left, length]

/-- Strictly executed, a batch does what it does leniently as long as nothing is passed over; the first
outcome passed over is the one that ends it. -/
theorem strict_restricts_lenient {ρs : List (Read R)} {b : Batch R} {os : List Outcome} {rs : List R}
    {answer : Request → Reply} {block : Nat} (built : ρs.foldlM add [] = .ok b)
    (within : ∀ ρ ∈ ρs, ρ.slot < rs.length) (count : os.length = b.length)
    (same : ∀ mode, answer (b.request mode block) = .ok os) :
    let strict := b.execute answer .strict block rs
    ∃ out flags, b.execute answer .lenient block rs = (out, .ok flags) ∧
      out = bound (b.zip os) rs ∧ flags.length = b.length ∧
      ((∃ flags', strict.2 = .ok flags') ↔ ∀ flag ∈ flags, flag = true) ∧
      ((∀ flag ∈ flags, flag = true) →
        strict = (out, .ok (List.replicate b.length true)) ∧ flags = List.replicate b.length true) ∧
      ∀ i, flags[i]? = some false → (∀ j < i, flags[j]? = some true) →
        ∃ ρ e o, ρs[i]? = some ρ ∧ b[i]? = some e ∧ os[i]? = some o ∧
          strict.1 = bound ((b.zip os).take i) rs ∧
          (¬o.success ∧ strict.2 = .error (.callFailed i ρ.method ρ.contract.address) ∨
            o.success ∧ ∃ reason, e.decode o.data = .error reason ∧
              strict.2 = .error (.decode ρ.method ρ.contract.address reason)) := by
  intro strict
  have made := forall₂_of_added built
  have inside : ∀ p ∈ b.zip os, p.1.slot < rs.length := fun p m =>
    within_of_added built within p.1 (List.of_mem_zip m).1
  have length : (b.zip os).length = b.length := by rw [List.length_zip, count, Nat.min_self]
  have ends : strict = bind .strict 0 (b.zip os) rs := execute_eq_bind (same .strict) count rs
  have takes_iff (p : Entry R × Outcome) : (p.1.change? p.2).isSome = true ↔ p.1.Takes p.2 := by
    rw [Entry.takes_iff, Option.isSome_iff_exists]
  have all_iff : (∀ flag ∈ (b.zip os).map fun p => (p.1.change? p.2).isSome, flag = true) ↔
      ∀ p ∈ b.zip os, p.1.Takes p.2 := by
    simp only [List.forall_mem_map, takes_iff]
  refine ⟨_, _, (execute_eq_bind (same .lenient) count rs).trans (bind_lenient_eq inside 0), rfl, ?length,
    ?exactly, ?through, ?stopped⟩
  case length => rw [List.length_map, length]
  case exactly =>
    rw [all_iff, ends]
    constructor
    · rintro ⟨flags', ok⟩
      exact (passes_of_bind (Prod.ext rfl ok)).takes
    · intro takes
      rw [bind_strict_through inside takes]
      exact ⟨_, rfl⟩
  case through =>
    intro all
    rw [ends, bind_strict_through inside (all_iff.mp all), length]
    refine ⟨rfl, ?_⟩
    rw [List.eq_replicate_iff, List.length_map]
    exact ⟨length, all⟩
  case stopped =>
    intro i flag before
    rw [List.getElem?_map, Option.map_eq_some_iff] at flag
    obtain ⟨⟨e, o⟩, here, not⟩ := flag
    obtain ⟨at_b, at_os⟩ := List.getElem?_zip_eq_some.mp here
    obtain ⟨ρ, at_ρs, made⟩ := Traverse.exists_getElem? made at_b
    have first (err : BatchError) (h : e.effect i o = .error err) :
        strict = (bound ((b.zip os).take i) rs, .error err) := by
      rw [ends]
      refine bind_strict_first inside here ?_ h
      intro j l p there
      have flag := before j l
      rw [List.getElem?_map, there] at flag
      exact (takes_iff p).mp (Option.some.inj flag)
    refine ⟨ρ, e, o, at_ρs, at_b, at_os, ?_⟩
    rw [← Read.name_entry made, ← Read.target_entry made]
    by_cases success : o.success
    · cases d : e.decode o.data with
      | ok g => rw [Entry.change?_eq_some.mpr ⟨success, d⟩] at not; cases not
      | error reason =>
        rw [first _ ((Entry.effect_eq_error success).mpr ⟨reason, d, rfl⟩)]
        exact ⟨rfl, .inr ⟨success, reason, rfl, rfl⟩⟩
    · rw [first _ (by rw [Entry.effect, if_neg success])]
      exact ⟨rfl, .inl ⟨success, rfl⟩⟩

/-- A count that is read, one that is no number and one that is refused: the second ends the strict pass. -/
theorem strict_restricts_lenient_unread :
    let κ : Contract := ⟨.minipoolManager, 7⟩
    let read (slot : Nat) : Read Word := .of slot κ "getMinipoolCount" [] fun _ (v : Word) => v
    let os : List Outcome := [⟨true, Abi.word 5⟩, ⟨true, [1]⟩, ⟨false, []⟩]
    ∃ b reason, [read 1, read 0, read 1].foldlM add [] = .ok b ∧
      b.execute (fun _ => .ok os) .lenient 0 [0, 0] = ([0, 5], .ok [true, false, false]) ∧
      b.execute (fun _ => .ok os) .strict 0 [0, 0] = ([0, 5], .error (.decode "getMinipoolCount" 7 reason)) := by
  intro κ read os
  let f : Abi.Function := .view "getMinipoolCount" [] Interface.word
  let entry (slot : Nat) : Entry Word := ⟨slot, f, ⟨7, f.selector ++ Abi.encode []⟩, (read slot).store⟩
  have built : [read 1, read 0, read 1].foldlM add [] = .ok [entry 1, entry 0, entry 1] := rfl
  have lenient : execute [entry 1, entry 0, entry 1] (fun _ => .ok os) .lenient 0 [0, 0] =
      ([0, 5], .ok [true, false, false]) := rfl
  obtain ⟨out, flags, run, -, -, -, -, stopped⟩ :=
    @strict_restricts_lenient Word _ _ os [0, 0] (fun _ => .ok os) 0 built (by simp [read, Read.of]) rfl
      fun _ => rfl
  cases lenient.symm.trans run
  obtain ⟨ρ, e, o, ⟨⟩, ⟨⟩, ⟨⟩, records, ⟨no, -⟩ | ⟨-, reason, -, error⟩⟩ := stopped 1 rfl (by simp)
  · exact absurd rfl no
  · exact ⟨_, reason, built, lenient, Prod.ext records error⟩

end Batch

end PoolSnapshot
