import PoolSnapshot.Proofs.Batch.Pointwise

/-!
Batches under any reply: which replies they accept, the error that they refuse the others with, and
what stays true of the records whatever is written to them.
-/
namespace PoolSnapshot

open Abi (Value)

variable {R ε : Type}

/-- What answers do to a record, by the value that they bring. -/
abbrev Store (R : Type) := Value → Except String (R → R)

namespace Store

/-- What one answer or another may do to the record. -/
def Changes (s : Store R) (g : R → R) : Prop := ∃ v, s v = .ok g

/-- What `s` wrote, `s'` leaves alone. -/
def Spares (s s' : Store R) : Prop :=
  ∀ g g', s.Changes g → s'.Changes g' → ∀ x, g x = x → g (g' x) = g' x

/-- To write a value again changes nothing. -/
def Settles (s : Store R) : Prop := ∀ g, s.Changes g → ∀ x, g (g x) = g x

end Store

namespace Entry

variable {e : Entry R} {o : Outcome} {g : R → R}

/-- The outcome is the value `v`. -/
def Brings (e : Entry R) (o : Outcome) (v : Value) : Prop :=
  o.success ∧ ∃ vs, e.function.decodeOutput o.data = .ok (v :: vs)

/-- The outcome can be read. -/
def Takes (e : Entry R) (o : Outcome) : Prop := o.success ∧ ∃ g, e.decode o.data = .ok g

theorem change?_eq_some : e.change? o = some g ↔ o.success ∧ e.decode o.data = .ok g := by
  rw [change?, effect]
  cases o.success with
  | false => simp [Except.toOption]
  | true => cases e.decode o.data <;> simp [Except.mapError, Except.toOption]

theorem decode_eq_ok :
    e.decode d = .ok g ↔ ∃ v vs, e.function.decodeOutput d = .ok (v :: vs) ∧ e.store v = .ok g := by
  rw [decode]
  cases e.function.decodeOutput d with
  | error r => simp
  | ok vs => cases vs <;> simp

theorem changes_of_change? (h : e.change? o = some g) : Store.Changes e.store g := by
  obtain ⟨-, d⟩ := change?_eq_some.mp h
  obtain ⟨v, -, -, s⟩ := decode_eq_ok.mp d
  exact ⟨v, s⟩

theorem takes_iff : e.Takes o ↔ ∃ g, e.change? o = some g := by
  simp only [change?_eq_some, exists_and_left, Takes]

theorem change?_of_brings (h : e.Brings o v) (s : e.store v = .ok g) : e.change? o = some g := by
  obtain ⟨success, vs, d⟩ := h
  exact change?_eq_some.mpr ⟨success, decode_eq_ok.mpr ⟨v, vs, d, s⟩⟩

end Entry

namespace Batch

def Within (n : Nat) (b : Batch R) : Prop := ∀ e ∈ b, e.slot < n

/-- A reply that does: no error, an outcome for each call, and unless calls may fail none that did or
that cannot be read. -/
def Accepts (b : Batch R) (mode : CallMode) (reply : Reply) : Prop :=
  ∃ os, reply = .ok os ∧ os.length = b.length ∧ (mode = .strict → ∀ p ∈ b.zip os, p.1.Takes p.2)

/-- Why a reply does not do: the first cause there is. -/
inductive Refuses (b : Batch R) : CallMode → Reply → BatchError → Prop
  | round (err : BatchError) : Refuses b mode (.error err) err
  | count (h : os.length ≠ b.length) : Refuses b mode (.ok os) (.outcomeCount b.length os.length)
  | call (count : os.length = b.length) (split : b.zip os = pre ++ (e, o) :: post)
      (first : ∀ p ∈ pre, p.1.Takes p.2) (failed : ¬o.success) :
      Refuses b .strict (.ok os) (.callFailed pre.length e.function.name e.call.target)
  | output (count : os.length = b.length) (split : b.zip os = pre ++ (e, o) :: post)
      (first : ∀ p ∈ pre, p.1.Takes p.2) (succeeded : o.success) (unread : e.decode o.data = .error r) :
      Refuses b .strict (.ok os) (.decode e.function.name e.call.target r)

/-- A pass that goes through. An outcome without effect is passed over where calls may fail. -/
inductive Passes (mode : CallMode) :
    List (Entry R × Outcome) → List R → List R → List Bool → Prop
  | done : Passes mode [] rs rs []
  | wrote (room : e.slot < rs.length) (h : e.change? o = some g)
      (rest : Passes mode es (rs.modify e.slot g) rs' flags) :
      Passes mode ((e, o) :: es) rs rs' (true :: flags)
  | passed (may : mode = .lenient) (h : e.change? o = none) (rest : Passes mode es rs rs' flags) :
      Passes mode ((e, o) :: es) rs rs' (false :: flags)

variable {mode : CallMode} {es : List (Entry R × Outcome)} {rs rs' : List R} {flags : List Bool}

theorem bind_wrote (room : e.slot < rs.length) (h : e.effect i o = .ok g) :
    bind mode i ((e, o) :: es) rs =
      let r := bind mode (i + 1) es (rs.modify e.slot g)
      (r.1, r.2.map (true :: ·)) := by
  simp only [bind, h, if_pos room]

theorem bind_passed (room : e.slot < rs.length) (h : e.effect i o = .error err) :
    bind .lenient i ((e, o) :: es) rs =
      let r := bind .lenient (i + 1) es rs
      (r.1, r.2.map (false :: ·)) := by
  simp only [bind, h, if_pos room]

theorem bind_stopped (room : e.slot < rs.length) (h : e.effect i o = .error err) :
    bind .strict i ((e, o) :: es) rs = (rs, .error err) := by
  simp only [bind, h, if_pos room]

theorem passes_of_bind (h : bind mode i es rs = (rs', .ok flags)) : Passes mode es rs rs' flags := by
  induction es generalizing i rs rs' flags with
  | nil => cases h; exact .done
  | cons p es ih =>
    obtain ⟨e, o⟩ := p
    by_cases room : e.slot < rs.length
    · cases f : e.effect i o with
      | ok g =>
        rw [bind_wrote room f] at h
        cases rest : bind mode (i + 1) es (rs.modify e.slot g) with
        | mk rs'' r =>
          rw [rest] at h
          cases r <;> cases h
          exact .wrote room (by rw [← e.toOption_effect i, f]; rfl) (ih rest)
      | error err =>
        cases mode with
        | strict => rw [bind_stopped room f] at h; cases h
        | lenient =>
          rw [bind_passed room f] at h
          cases rest : bind .lenient (i + 1) es rs with
          | mk rs'' r =>
            rw [rest] at h
            cases r <;> cases h
            exact .passed rfl (by rw [← e.toOption_effect i, f]; rfl) (ih rest)
    · simp only [bind, if_neg room] at h
      cases h

namespace Passes

theorem length_eq (p : Passes mode es rs rs' flags) : rs'.length = rs.length := by
  induction p with
  | done => rfl
  | wrote _ _ _ ih => exact ih.trans (List.length_modify ..)
  | passed _ _ _ ih => exact ih

theorem takes (p : Passes .strict es rs rs' flags) : ∀ q ∈ es, q.1.Takes q.2 := by
  generalize strict : CallMode.strict = mode at p
  induction p with
  | done => simp
  | wrote _ h _ ih => exact List.forall_mem_cons.mpr ⟨Entry.takes_iff.mpr ⟨_, h⟩, ih⟩
  | passed may => cases strict.trans may

theorem flags_eq (p : Passes mode es rs rs' flags) :
    flags = es.map fun q => (q.1.change? q.2).isSome := by
  induction p with
  | done => rfl
  | wrote _ h _ ih => rw [List.map_cons, h, ← ih]; rfl
  | passed _ h _ ih => rw [List.map_cons, h, ← ih]; rfl

/-- What every write keeps of its own record is kept. -/
theorem keeps {I : Nat → R → Prop} (p : Passes mode es rs rs' flags)
    (each : ∀ q ∈ es, ∀ g, Store.Changes q.1.store g → ∀ x, I q.1.slot x → I q.1.slot (g x))
    (h : ∀ (k : Nat) x, rs[k]? = some x → I k x) : ∀ (k : Nat) x, rs'[k]? = some x → I k x := by
  induction p with
  | done => exact h
  | wrote _ f _ ih =>
    obtain ⟨now, later⟩ := List.forall_mem_cons.mp each
    apply ih later
    intro k x m
    rw [List.getElem?_modify, Option.map_eq_map, Option.map_eq_some_iff] at m
    obtain ⟨y, m, rfl⟩ := m
    split
    · next here =>
      subst here
      exact now _ (Entry.changes_of_change? f) y (h _ y m)
    · exact h k y m
  | passed _ _ _ ih => exact ih (List.forall_mem_cons.mp each).2 h

/-- What was written stays: the same answer would change nothing at the end. -/
theorem holds (p : Passes mode es rs rs' flags)
    (spares : es.Pairwise fun q q' => q.1.slot = q'.1.slot → Store.Spares q.1.store q'.1.store)
    (settles : ∀ q ∈ es, Store.Settles q.1.store) (m : (e, o) ∈ es) (h : e.change? o = some g) :
    ∃ y, rs'[e.slot]? = some y ∧ g y = y := by
  induction p with
  | done => cases m
  | wrote room f rest ih =>
    obtain ⟨apart, spares⟩ := List.pairwise_cons.mp spares
    obtain ⟨still, settles⟩ := List.forall_mem_cons.mp settles
    rcases List.mem_cons.mp m with here | later
    · cases here
      cases h.symm.trans f
      have changes := Entry.changes_of_change? h
      have kept := rest.keeps (I := fun k y => e.slot = k → g y = y)
        (fun q n g' c y fixed same => apart q n same g g' changes c y (fixed same))
        (fun k y n same => by
          subst same
          rw [List.getElem?_modify, Option.map_eq_map, Option.map_eq_some_iff] at n
          obtain ⟨x, -, rfl⟩ := n
          rw [if_pos rfl]
          exact still g changes x)
      have length := rest.length_eq.trans (List.length_modify ..)
      have there := List.getElem?_eq_getElem (length ▸ room)
      exact ⟨_, there, kept _ _ there rfl⟩
    · exact ih spares settles later
  | passed may f _ ih =>
    rcases List.mem_cons.mp m with here | later
    · cases here
      cases h.symm.trans f
    · exact ih (List.pairwise_cons.mp spares).2 (List.forall_mem_cons.mp settles).2 later

end Passes

theorem exists_bind_lenient (within : ∀ p ∈ es, p.1.slot < rs.length) :
    ∃ rs' flags, bind .lenient i es rs = (rs', .ok flags) := by
  induction es generalizing i rs with
  | nil => exact ⟨rs, [], rfl⟩
  | cons p es ih =>
    obtain ⟨e, o⟩ := p
    obtain ⟨room, within⟩ := List.forall_mem_cons.mp within
    cases f : e.effect i o with
    | ok g =>
      rw [bind_wrote room f]
      have room : ∀ p ∈ es, p.1.slot < (rs.modify e.slot g).length := by simpa using within
      obtain ⟨rs', flags, rest⟩ := ih (i := i + 1) room
      exact ⟨rs', true :: flags, by rw [rest]; rfl⟩
    | error err =>
      rw [bind_passed room f]
      obtain ⟨rs', flags, rest⟩ := ih (i := i + 1) within
      exact ⟨rs', false :: flags, by rw [rest]; rfl⟩

/-- The first outcome without effect stops a strict pass. -/
theorem stop_of_bind (within : ∀ p ∈ es, p.1.slot < rs.length)
    (h : bind .strict i es rs = (rs', .error err)) :
    ∃ pre e o post, es = pre ++ (e, o) :: post ∧ (∀ p ∈ pre, p.1.Takes p.2) ∧
      e.effect (i + pre.length) o = .error err := by
  induction es generalizing i rs with
  | nil => cases h
  | cons p es ih =>
    obtain ⟨e, o⟩ := p
    obtain ⟨room, within⟩ := List.forall_mem_cons.mp within
    cases f : e.effect i o with
    | ok g =>
      rw [bind_wrote room f] at h
      have takes : e.Takes o := Entry.takes_iff.mpr ⟨g, by rw [← e.toOption_effect i, f]; rfl⟩
      cases rest : bind .strict (i + 1) es (rs.modify e.slot g) with
      | mk rs'' r =>
        rw [rest] at h
        cases r <;> cases h
        obtain ⟨pre, e', o', post, rfl, first, f⟩ := ih (by simpa using within) rest
        refine ⟨(e, o) :: pre, e', o', post, rfl, List.forall_mem_cons.mpr ⟨takes, first⟩, ?_⟩
        rw [List.length_cons, Nat.add_comm pre.length 1, ← Nat.add_assoc]
        exact f
    | error err' =>
      rw [bind_stopped room f] at h
      cases h
      exact ⟨[], e, o, es, rfl, by simp, f⟩

variable {b : Batch R} {reply : Reply}

theorem passes_of_settle (h : b.settle mode reply rs = (rs', .ok flags)) :
    ∃ os, reply = .ok os ∧ os.length = b.length ∧ Passes mode (b.zip os) rs rs' flags := by
  cases reply with
  | error err => cases h
  | ok os =>
    rw [settle] at h
    split at h
    · next count => exact ⟨os, rfl, count, passes_of_bind h⟩
    · cases h

theorem accepts_of_settle (h : b.settle mode reply rs = (rs', .ok flags)) : b.Accepts mode reply := by
  obtain ⟨os, rfl, count, p⟩ := passes_of_settle h
  refine ⟨os, rfl, count, ?_⟩
  rintro rfl
  exact p.takes

theorem refuses_of_settle (within : b.Within rs.length)
    (h : b.settle mode reply rs = (rs', .error err)) : b.Refuses mode reply err := by
  cases reply with
  | error err =>
    cases h
    exact .round err
  | ok os =>
    have inside : ∀ p ∈ b.zip os, p.1.slot < rs.length := fun _ m => within _ (List.of_mem_zip m).1
    rw [settle] at h
    split at h
    · next count =>
      cases mode with
      | lenient =>
        obtain ⟨rs'', flags, ok⟩ := exists_bind_lenient (i := 0) inside
        rw [ok] at h
        cases h
      | strict =>
        obtain ⟨pre, e, o, post, split, first, f⟩ := stop_of_bind inside h
        rw [Nat.zero_add, Entry.effect] at f
        split at f
        · next success =>
          cases d : e.decode o.data with
          | ok g => rw [d] at f; cases f
          | error r =>
            rw [d] at f
            cases f
            exact .output count split first success d
        · next failed =>
          cases f
          exact .call count split first failed
    · next count =>
      cases h
      exact .count count

end Batch

end PoolSnapshot
