import PoolSnapshot.Proofs.Batch.Modes

/-!
What a lenient batch leaves of the records: the outcomes that can be read, written to their slots one
after another, and nothing else. A record to which none of them belongs is as it was.
-/
namespace PoolSnapshot

open Abi (Readable Value)

variable {R : Type}

/-- The outcome is good: it succeeded, and the first of its values is stored by `g`. -/
def Entry.Stores (e : Entry R) (o : Outcome) (g : R → R) : Prop :=
  o.success ∧ ∃ v vs, e.function.decodeOutput o.data = .ok (v :: vs) ∧ e.store v = .ok g

theorem Entry.stores_iff {e : Entry R} : e.Stores o g ↔ e.change? o = some g := by
  rw [change?_eq_some, decode_eq_ok]
  rfl

theorem Entry.effect_eq_error_iff {e : Entry R} {o : Outcome} :
    e.effect i o = .error err ↔
      ¬o.success ∧ err = .callFailed i e.function.name e.call.target ∨
      o.success ∧ ∃ reason, e.decode o.data = .error reason ∧
        err = .decode e.function.name e.call.target reason := by
  by_cases success : o.success
  · simp only [effect_eq_error success, success, not_true_eq_false, false_and, false_or, true_and]
  · rw [effect, if_neg success]
    simp [success, eq_comm]

namespace Read

/-- A read of a type stores what can be read as that type. -/
theorem store_of {α : Type} [Readable α] {s : Nat} {κ : Contract} {m : String} {args : List Value}
    {set : R → α → R} {v : Value} :
    (Read.of s κ m args set).store v = .ok g ↔ ∃ a : α, Readable.ofValue? v = some a ∧ g = fun r => set r a := by
  simp only [Read.of, Value.read]
  cases (Readable.ofValue? v : Option α) with
  | none => simp [Except.map]
  | some a => simp [Except.map, eq_comm]

end Read

namespace Batch

variable {b : Batch R} {mode : CallMode} {es : List (Entry R × Outcome)} {rs : List R} {os : List Outcome}

/-- A read that cannot be queued leaves the batch to the next one. -/
def attempt (b : Batch R) (ρ : Read R) : Batch R := (b.add ρ).toOption.getD b

def ofAttempts (ρs : List (Read R)) : Batch R := ρs.foldl attempt []

theorem attempt_eq (b : Batch R) (ρ : Read R) : b.attempt ρ = b ++ ρ.entry.toOption.toList := by
  rw [attempt, add]
  cases ρ.entry with
  | error err => exact (List.append_nil b).symm
  | ok e => rfl

theorem foldl_attempt (ρs : List (Read R)) (b : Batch R) :
    ρs.foldl attempt b = b ++ ρs.filterMap (·.entry.toOption) := by
  induction ρs generalizing b with
  | nil => exact (List.append_nil b).symm
  | cons ρ ρs ih =>
    rw [List.foldl_cons, ih, attempt_eq, List.filterMap_cons, List.append_assoc]
    cases ρ.entry.toOption <;> rfl

theorem ofAttempts_eq (ρs : List (Read R)) : ofAttempts ρs = ρs.filterMap (·.entry.toOption) :=
  foldl_attempt ρs []

/-- The good outcomes, as what they do to which slot, in order. -/
def writes (es : List (Entry R × Outcome)) : List (Nat × (R → R)) :=
  es.filterMap fun p => (p.1.change? p.2).map (p.1.slot, ·)

/-- Writes done one after another. -/
def written (ws : List (Nat × (R → R))) (rs : List R) : List R :=
  ws.foldl (fun rs w => rs.modify w.1 w.2) rs

theorem bound_eq_written (es : List (Entry R × Outcome)) (rs : List R) :
    bound es rs = written (writes es) rs := by
  induction es generalizing rs with
  | nil => rfl
  | cons p es ih =>
    rw [bound, List.foldl_cons, Entry.bound_eq, ← bound, ih, writes, writes, List.filterMap_cons]
    cases p.1.change? p.2 <;> rfl

/-- A record goes through the writes to its own slot alone. -/
theorem getElem?_written (ws : List (Nat × (R → R))) (rs : List R) (s : Nat) :
    (written ws rs)[s]? = rs[s]?.map fun x => (ws.filter (·.1 = s)).foldl (fun x w => w.2 x) x := by
  induction ws generalizing rs with
  | nil => cases h : rs[s]? <;> simp [written, h]
  | cons w ws ih =>
    rw [written, List.foldl_cons, ← written, ih, List.getElem?_modify, Option.map_eq_map, Option.map_map]
    refine congrArg (rs[s]?.map ·) (funext fun x => ?_)
    by_cases here : w.1 = s <;> simp [here]

/-- Those of the list that are flagged. -/
def flagged (flags : List Bool) (es : List α) : List α := ((es.zip flags).filter (·.2)).map (·.1)

theorem flagged_map (f : α → Bool) (es : List α) : flagged (es.map f) es = es.filter f := by
  induction es with
  | nil => rfl
  | cons p es ih =>
    rw [flagged] at ih ⊢
    rw [List.map_cons, List.zip_cons_cons, List.filter_cons, List.filter_cons]
    cases f p <;> simp [ih]

theorem forall₂_writes (es : List (Entry R × Outcome)) :
    List.Forall₂ (fun p w => w.1 = p.1.slot ∧ p.1.Stores p.2 w.2)
      (es.filter fun p => (p.1.change? p.2).isSome) (writes es) := by
  induction es with
  | nil => exact .nil
  | cons p es ih =>
    rw [List.filter_cons, writes, List.filterMap_cons]
    cases h : p.1.change? p.2 with
    | none => exact ih
    | some g => exact .cons ⟨rfl, Entry.stores_iff.mpr h⟩ ih

/-- The records are what the good outcomes make of them, one after another; a flag for each outcome says
whether it is one. -/
structure Folds (es : List (Entry R × Outcome)) (flags : List Bool) (rs out : List R) : Prop where
  length : flags.length = es.length
  flag : ∀ (i : Nat) e o, es[i]? = some (e, o) → (flags[i]? = some true ↔ ∃ g, e.Stores o g)
  fold : ∃ ws, List.Forall₂ (fun p w => w.1 = p.1.slot ∧ p.1.Stores p.2 w.2) (flagged flags es) ws ∧
    out = written ws rs
  frame : ∀ s : Nat, (∀ (i : Nat) e o, es[i]? = some (e, o) → e.slot = s → flags[i]? = some false) →
    out[s]? = rs[s]?

theorem folds_bound (es : List (Entry R × Outcome)) (rs : List R) :
    Folds es (es.map fun p => (p.1.change? p.2).isSome) rs (bound es rs) where
  length := List.length_map _
  flag i e o here := by
    rw [List.getElem?_map, here, Option.map_some, Option.some_inj, Option.isSome_iff_exists]
    simp only [Entry.stores_iff]
  fold := ⟨writes es, flagged_map _ es ▸ forall₂_writes es, bound_eq_written es rs⟩
  frame s none := by
    have passed : (writes es).filter (·.1 = s) = [] := by
      refine List.filter_eq_nil_iff.mpr fun w m => ?_
      obtain ⟨⟨e, o⟩, n, own⟩ := List.mem_filterMap.mp m
      obtain ⟨g, change, rfl⟩ := Option.map_eq_some_iff.mp own
      obtain ⟨i, here⟩ := List.mem_iff_getElem?.mp n
      intro same
      have flag := none i e o here (of_decide_eq_true same)
      rw [List.getElem?_map, here, Option.map_some, change] at flag
      cases flag
    rw [bound_eq_written, getElem?_written, passed]
    exact Option.map_id'

/-- A slot without a record ends the pass in either mode. -/
theorem bind_out {e : Entry R} {o : Outcome} (out : rs.length ≤ e.slot) (i : Nat) :
    bind mode i ((e, o) :: es) rs = (rs, .error (.slotOutOfRange e.slot rs.length)) := by
  simp only [bind, if_neg (Nat.not_lt.mpr out)]

theorem bind_slot_out {pre post : List (Entry R × Outcome)} {e : Entry R} {o : Outcome}
    (within : ∀ p ∈ pre, p.1.slot < rs.length) (takes : mode = .strict → ∀ p ∈ pre, p.1.Takes p.2)
    (out : rs.length ≤ e.slot) :
    bind mode 0 (pre ++ (e, o) :: post) rs = (bound pre rs, .error (.slotOutOfRange e.slot rs.length)) := by
  rw [bind_append mode within takes, bind_out ((length_bound pre rs).symm ▸ out), length_bound]
  rfl

/-- The pass up to the first slot without a record, if it comes so far. -/
theorem bind_first_out {e : Entry R} {o : Outcome} (here : es[i]? = some (e, o)) (out : rs.length ≤ e.slot)
    (before : ∀ p ∈ es.take i, p.1.slot < rs.length) (mode : CallMode) :
    (bind mode 0 es rs = (bound (es.take i) rs, .error (.slotOutOfRange e.slot rs.length)) ∧
      (mode = .strict → ∀ p ∈ es.take i, p.1.Takes p.2)) ∨
    mode = .strict ∧ ∃ j < i, ∃ e' o' err, es[j]? = some (e', o') ∧ (∀ p ∈ es.take j, p.1.Takes p.2) ∧
      e'.effect j o' = .error err ∧ bind mode 0 es rs = (bound (es.take j) rs, .error err) := by
  have split := Traverse.eq_take_cons_drop here
  have through (takes : mode = .strict → ∀ p ∈ es.take i, p.1.Takes p.2) :
      bind mode 0 es rs = (bound (es.take i) rs, .error (.slotOutOfRange e.slot rs.length)) :=
    (congrArg (bind mode 0 · rs) split).trans (bind_slot_out before takes out)
  by_cases takes : mode = .strict → ∀ p ∈ es.take i, p.1.Takes p.2
  · exact .inl ⟨through takes, takes⟩
  obtain ⟨rfl, some⟩ := Classical.not_imp.mp takes
  -- The strict pass over what comes before the slot has ended early.
  cases stopped : bind .strict 0 (es.take i) rs with
  | mk rs' r =>
    cases r with
    | ok flags => exact absurd (passes_of_bind stopped).takes some
    | error err =>
      obtain ⟨pre, e', o', post, first, takes, effect⟩ := stop_of_bind before stopped
      rw [Nat.zero_add] at effect
      rw [first] at before split
      obtain ⟨within, rest⟩ := List.forall_mem_append.mp before
      rw [List.append_assoc, List.cons_append] at split
      have length : pre.length < i := by
        have parts := congrArg List.length first
        simp only [List.length_append, List.length_cons, List.length_take] at parts
        omega
      refine .inr ⟨rfl, pre.length, length, e', o', err, ?_, ?_, effect, ?_⟩
      · rw [split, List.getElem?_append_right (Nat.le_refl _), Nat.sub_self]
        rfl
      · rwa [split, List.take_left]
      · have ends : bind .strict 0 (pre ++ (e', o') :: (post ++ (e, o) :: es.drop (i + 1))) rs =
            (bound pre rs, .error err) :=
          bind_strict_stopped within takes (rest _ List.mem_cons_self) effect
        rw [← split] at ends
        rw [ends, split, List.take_left]

/-- Leniently the outcomes that can be read, and no others, are written in their order. In either mode another
number of outcomes than calls changes nothing, and a slot without a record is where the pass ends, unless
strictly it ended before. -/
theorem execute_folds_good (ρs : List (Read R)) (os : List Outcome) (rs : List R) (answer : Request → Reply)
    (mode : CallMode) (block : Nat) (calls : ofAttempts ρs ≠ [])
    (reply : answer ((ofAttempts ρs).request mode block) = .ok os) :
    let b := ofAttempts ρs
    let done := b.execute answer mode block rs
    (b = ρs.filterMap (·.entry.toOption) ∧
      ∀ e ∈ b, ∃ ρ ∈ ρs, ρ.contract.function ρ.method = .ok e.function ∧
        ρ.contract.call e.function ρ.args = .ok e.call ∧ e.slot = ρ.slot ∧ e.store = ρ.store) ∧
    (∀ (α : Type) [Readable α] s κ m args (set : R → α → R) v g, (Read.of s κ m args set).store v = .ok g ↔
      ∃ a : α, Readable.ofValue? v = some a ∧ g = fun r => set r a) ∧
    (os.length ≠ b.length → done = (rs, .error (.outcomeCount b.length os.length))) ∧
    (os.length = b.length → mode = .lenient → b.Within rs.length →
      ∃ flags out, done = (out, .ok flags) ∧ Folds (b.zip os) flags rs out) ∧
    (os.length = b.length → ∀ i e, b[i]? = some e → rs.length ≤ e.slot → Within rs.length (b.take i) →
      (∃ flags out, done = (out, .error (.slotOutOfRange e.slot rs.length)) ∧
        Folds ((b.zip os).take i) flags rs out ∧ (mode = .strict → ∀ flag ∈ flags, flag = true)) ∨
      mode = .strict ∧ ∃ j < i, ∃ e' o err out, b[j]? = some e' ∧ os[j]? = some o ∧ done = (out, .error err) ∧
        Folds ((b.zip os).take j) (List.replicate j true) rs out ∧
        (¬o.success ∧ err = .callFailed j e'.function.name e'.call.target ∨
          o.success ∧ ∃ reason, e'.decode o.data = .error reason ∧
            err = .decode e'.function.name e'.call.target reason)) := by
  intro b done
  have made : b = ρs.filterMap (·.entry.toOption) := ofAttempts_eq ρs
  have ends : done = b.settle mode (.ok os) rs := by
    rw [← reply]
    exact if_neg (mt List.isEmpty_iff.mp calls)
  refine ⟨⟨made, ?queued⟩, fun α _ s κ m args set v g => Read.store_of, ?count, ?lenient, ?out⟩
  case queued =>
    intro e m
    rw [made] at m
    obtain ⟨ρ, m, queued⟩ := List.mem_filterMap.mp m
    have queued := Traverse.toOption_eq_some.mp queued
    obtain ⟨function, call⟩ := Read.entry_eq_ok queued
    exact ⟨ρ, m, function, call, Read.slot_entry queued, Read.store_entry queued⟩
  case count =>
    intro count
    rw [ends, settle, if_neg count]
  case lenient =>
    rintro count rfl within
    rw [ends, settle, if_pos count, bind_lenient_eq fun p m => within p.1 (List.of_mem_zip m).1]
    exact ⟨_, _, rfl, folds_bound (b.zip os) rs⟩
  case out =>
    intro count i e here out before
    rw [settle, if_pos count] at ends
    have inside : i < os.length := count ▸ (List.getElem?_eq_some_iff.mp here).1
    have pair : (b.zip os)[i]? = some (e, os[i]) :=
      List.getElem?_zip_eq_some.mpr ⟨here, List.getElem?_eq_getElem inside⟩
    have within : ∀ p ∈ (b.zip os).take i, p.1.slot < rs.length := by
      intro p m
      rw [List.zip_eq_zipWith, List.take_zipWith, ← List.zip_eq_zipWith] at m
      exact before p.1 (List.of_mem_zip m).1
    rw [ends]
    rcases bind_first_out pair out within mode with ⟨at_slot, takes⟩ | ⟨strict, j, l, e', o, err, first⟩
    · refine .inl ⟨_, _, at_slot, folds_bound _ rs, fun strict => ?_⟩
      rw [flags_of_takes (takes strict)]
      exact fun flag m => List.eq_of_mem_replicate m
    · obtain ⟨there, takes, h, earlier⟩ := first
      obtain ⟨at_b, at_os⟩ := List.getElem?_zip_eq_some.mp there
      have length : ((b.zip os).take j).length = j :=
        List.length_take_of_le (Nat.le_of_lt (List.getElem?_eq_some_iff.mp there).1)
      have folds := folds_bound ((b.zip os).take j) rs
      rw [flags_of_takes takes, length] at folds
      exact .inr ⟨strict, j, l, e', o, err, _, at_b, at_os, earlier, folds, Entry.effect_eq_error_iff.mp h⟩

/-- An unknown method is not queued and a failed call writes nothing; one outcome too few; and a slot without a
record, which the strict pass does not come to. -/
theorem execute_folds_good_two_of_three :
    let κ : Contract := ⟨.minipoolManager, 7⟩
    let read (slot : Nat) (m : String) : Read Word := .of slot κ m [] fun _ (v : Word) => v
    let count := "getMinipoolCount"
    let ρs := [read 1 count, read 0 "getNothing", read 0 count, read 1 count]
    let far := [read 1 count, read 0 count, read 6 count]
    let os : List Outcome := [⟨true, Abi.word 5⟩, ⟨false, []⟩, ⟨true, Abi.word 9⟩]
    let run (ρs : List (Read Word)) (os : List Outcome) mode :=
      (ofAttempts ρs).execute (fun _ => .ok os) mode 0 [1, 2]
    run ρs os .lenient = ([1, 9], .ok [true, false, true]) ∧
      Folds ((ofAttempts ρs).zip os) [true, false, true] [1, 2] [1, 9] ∧
      (∀ mode, run ρs (os.take 2) mode = ([1, 2], .error (.outcomeCount 3 2))) ∧
      (run far os .lenient = ([1, 5], .error (.slotOutOfRange 6 2)) ∧
        ∃ flags, Folds (((ofAttempts far).zip os).take 2) flags [1, 2] [1, 5]) ∧
      run far os .strict = ([1, 5], .error (.callFailed 1 count 7)) ∧
        Folds (((ofAttempts far).zip os).take 1) [true] [1, 2] [1, 5] := by
  intro κ read count ρs far os run
  let f : Abi.Function := .view count [] Interface.word
  let entry (slot : Nat) : Entry Word := ⟨slot, f, ⟨7, f.selector ++ Abi.encode []⟩, (read slot f.name).store⟩
  have made : ofAttempts ρs = [entry 1, entry 0, entry 1] := rfl
  have far_made : ofAttempts far = [entry 1, entry 0, entry 6] := rfl
  have some : ofAttempts ρs ≠ [] := made ▸ List.cons_ne_nil _ _
  have far_some : ofAttempts far ≠ [] := far_made ▸ List.cons_ne_nil _ _
  have whole : run ρs os .lenient = ([1, 9], .ok [true, false, true]) := rfl
  have within : (ofAttempts ρs).Within 2 := by simp [made, entry, Within]
  have before : Within 2 ((ofAttempts far).take 2) := by simp [far_made, entry, Within]
  obtain ⟨-, -, -, lenient, -⟩ := execute_folds_good ρs os [1, 2] (fun _ => .ok os) .lenient 0 some rfl
  obtain ⟨flags, out, done, folds⟩ := lenient rfl rfl within
  cases whole.symm.trans done
  have at_slot : run far os .lenient = ([1, 5], .error (.slotOutOfRange 6 2)) := rfl
  have stopped : run far os .strict = ([1, 5], .error (.callFailed 1 count 7)) := rfl
  refine ⟨whole, folds, fun mode => ?_, ⟨at_slot, ?_⟩, stopped, ?_⟩
  · obtain ⟨-, -, short, -⟩ :=
      execute_folds_good ρs (os.take 2) [1, 2] (fun _ => .ok (os.take 2)) mode 0 some rfl
    exact short (by decide)
  · obtain ⟨-, -, -, -, out⟩ := execute_folds_good far os [1, 2] (fun _ => .ok os) .lenient 0 far_some rfl
    rcases out rfl 2 _ rfl (by decide) before with ⟨flags, out, done, folds, -⟩ | ⟨no, -⟩
    · cases at_slot.symm.trans done
      exact ⟨flags, folds⟩
    · cases no
  · obtain ⟨-, -, -, -, out⟩ := execute_folds_good far os [1, 2] (fun _ => .ok os) .strict 0 far_some rfl
    rcases out rfl 2 _ rfl (by decide) before with ⟨_, _, done, -⟩ | ⟨-, j, -, e, o, err, out, first⟩
    · cases stopped.symm.trans done
    · obtain ⟨-, -, done, folds, why⟩ := first
      cases stopped.symm.trans done
      rcases why with ⟨-, same⟩ | ⟨-, _, -, same⟩
      · obtain rfl : 1 = j := (BatchError.callFailed.inj same).1
        exact folds
      · cases same

end Batch

end PoolSnapshot
