import PoolSnapshot.Proofs.Abi.RoundTrip
import PoolSnapshot.Proofs.Batch.Reply
import PoolSnapshot.Survey.Basic

/-!
Reads of declared functions: the contract has the method, the arguments fit it, and the field takes
whatever the method may answer. Such reads can always be queued.
-/
namespace PoolSnapshot

open Abi (Function Ty Value Readable)

namespace Abi

theorem exists_of_decode (h : decode [t] data = .ok vs) :
    ∃ v off, t.decode data 0 = some (v, off) ∧ vs = [v] := by
  rw [decode] at h
  split at h
  · cases h
  · split at h
    · next each =>
      cases h
      rw [Ty.decodeEach] at each
      obtain ⟨⟨v, off⟩, first, rest⟩ := Option.bind_eq_some_iff.mp each
      cases rest
      exact ⟨v, _, first, rfl⟩
    · cases h

/-- An elementary value of the type's kind, which need not have come out of an encoding. -/
def Value.OfKind : Value → Ty → Prop
  | .address _, .address | .bool _, .bool | .bytes _, .bytes | .string _, .string => True
  | .uint _, .uint _ | .int _, .int _ => True
  | .fixedBytes b, .fixedBytes n => b.length = n
  | _, _ => False

theorem Value.HasTy.ofKind {v : Value} {t : Ty} (h : v.HasTy t) (e : t.isElementary = true) :
    v.OfKind t := by
  cases v <;> cases t <;> simp only [HasTy] at h <;> first | trivial | exact h.1

/-- Whatever was decoded as an elementary type is of its kind. -/
theorem Value.ofKind_of_decode {v : Value} {t : Ty} (e : t.isElementary = true)
    (h : decode [t] data = .ok [v]) : v.OfKind t := by
  obtain ⟨_, off, h, ⟨⟩⟩ := exists_of_decode h
  cases t with
  | array | vector | tuple => cases e
  | bool =>
    rw [Ty.decode] at h
    obtain ⟨n, -, h⟩ := Option.bind_eq_some_iff.mp h
    split at h <;> cases h
    trivial
  | fixedBytes n =>
    rw [Ty.decode] at h
    obtain ⟨b, read, ⟨⟩⟩ := Option.bind_eq_some_iff.mp h
    exact (bytesAt_eq_some.mp read).2
  | address | bytes | string | uint | int =>
    rw [Ty.decode] at h
    obtain ⟨b, -, ⟨⟩⟩ := Option.bind_eq_some_iff.mp h
    trivial

/-- Fields of type `α` are the values of the kind of `t`: each field shows as its value, and each value is read as
the field that shows so. -/
class Reads (α : Type) [Readable α] (t : Ty) (value : outParam (α → Value)) : Prop where
  elementary : t.isElementary = true
  ofValue?_value (a : α) : Readable.ofValue? (value a) = some a
  exists_value {v : Value} : v.OfKind t → ∃ a, v = value a

namespace Reads

variable {α : Type} [Readable α] {value : α → Value} [Reads α t value]

theorem ofValue?_eq_some {v : Value} {a : α} (h : v.OfKind t) : Readable.ofValue? v = some a ↔ v = value a := by
  constructor
  · obtain ⟨a', rfl⟩ : ∃ a' : α, v = value a' := exists_value h
    intro read
    rw [Option.some.inj ((ofValue?_value t a').symm.trans read)]
  · rintro rfl
    exact ofValue?_value t a

instance : Reads Word (.uint n) .uint where
  elementary := rfl
  ofValue?_value _ := rfl
  exists_value {v} h := by
    cases v <;> simp only [Value.OfKind] at h
    exact ⟨_, rfl⟩

instance : Reads Word Interface.word .uint := inferInstanceAs (Reads Word (.uint 256) .uint)

instance : Reads Bool .bool .bool where
  elementary := rfl
  ofValue?_value _ := rfl
  exists_value {v} h := by
    cases v <;> simp only [Value.OfKind] at h
    exact ⟨_, rfl⟩

instance : Reads Address .address .address where
  elementary := rfl
  ofValue?_value _ := rfl
  exists_value {v} h := by
    cases v <;> simp only [Value.OfKind] at h
    exact ⟨_, rfl⟩

instance : Reads Hash (.fixedBytes 32) fun h => .fixedBytes h.bytes where
  elementary := rfl
  ofValue?_value h := (if_pos h.length_bytes).trans (congrArg some h.ofBytes_bytes)
  exists_value {v} h := by
    cases v <;> simp only [Value.OfKind] at h
    exact ⟨_, congrArg Value.fixedBytes (Hash.bytes_ofBytes h).symm⟩

instance : Reads Bytes .bytes .bytes where
  elementary := rfl
  ofValue?_value _ := rfl
  exists_value {v} h := by
    cases v <;> simp only [Value.OfKind] at h
    exact ⟨_, rfl⟩

instance : Reads String .string .string where
  elementary := rfl
  ofValue?_value _ := rfl
  exists_value {v} h := by
    cases v <;> simp only [Value.OfKind] at h
    exact ⟨_, rfl⟩

end Reads

end Abi

namespace Read

variable {R α β : Type} {ρ : Read R}

structure Declares (ρ : Read R) (f : Function) (t : Ty) : Prop where
  found : ρ.contract.function ρ.method = .ok f
  fits : Value.eachFits ρ.args f.inputTypes = true
  answers : f.outputs = [t]
  elementary : t.isElementary = true
  stores : ∀ v, v.OfKind t → ∃ g, ρ.store v = .ok g

def Declared (ρ : Read R) : Prop := ∃ f t, ρ.Declares f t

def queued (ρ : Read R) (f : Function) : Entry R :=
  ⟨ρ.slot, f, ⟨ρ.contract.address, f.selector ++ Abi.encode ρ.args⟩, ρ.store⟩

theorem Declares.of [Readable α] {value : α → Value} [Abi.Reads α t value] {slot : Nat} {κ : Contract} {m : String}
    {args : List Value} {set : R → α → R} (found : κ.function m = .ok f)
    (fits : Value.eachFits args f.inputTypes = true) (answers : f.outputs = [t]) :
    (Read.of slot κ m args set).Declares f t := by
  refine ⟨found, fits, answers, Abi.Reads.elementary α, ?_⟩
  intro v h
  obtain ⟨a, rfl⟩ : ∃ a : α, v = value a := Abi.Reads.exists_value h
  exact ⟨fun r => set r a, by simp only [Read.of, Value.read, Abi.Reads.ofValue?_value t a, Except.map]⟩

theorem entry_eq (found : ρ.contract.function ρ.method = .ok f)
    (fits : Value.eachFits ρ.args f.inputTypes = true) : ρ.entry = .ok (ρ.queued f) := by
  have data : f.encodeInput ρ.args = some (f.selector ++ Abi.encode ρ.args) := if_pos fits
  simp only [entry, found, Contract.call, data, bind, Except.bind]
  rfl

theorem Declares.name_eq (d : ρ.Declares f t) : f.name = ρ.method := Contract.name_of_function d.found

/-- The read as it stands in a batch. -/
def Queues (ρ : Read R) (e : Entry R) : Prop := ∃ f t, ρ.Declares f t ∧ e = ρ.queued f

theorem Declared.queues (d : ρ.Declared) : ∃ e, ρ.entry = .ok e ∧ ρ.Queues e := by
  obtain ⟨f, t, d⟩ := d
  exact ⟨ρ.queued f, entry_eq d.found d.fits, f, t, d, rfl⟩

/-- What `ρ` writes, `ρ'` leaves alone. -/
def Apart (ρ ρ' : Read R) : Prop := ρ.slot = ρ'.slot → Store.Spares ρ.store ρ'.store

theorem changes_of [Readable α] {slot : Nat} {args : List Value} {set : R → α → R}
    (h : Store.Changes (Read.of slot κ m args set).store g) : ∃ a, g = fun r => set r a := by
  obtain ⟨v, h⟩ := h
  simp only [Read.of] at h
  cases e : v.read α with
  | error _ => rw [e] at h; cases h
  | ok a => rw [e] at h; cases h; exact ⟨a, rfl⟩

theorem apart_of [Readable α] [Readable β] {slot slot' : Nat} {args args' : List Value}
    {set : R → α → R} {set' : R → β → R}
    (commute : ∀ r a b, set (set' r b) a = set' (set r a) b) :
    (Read.of slot κ m args set).Apart (Read.of slot' κ' m' args' set') := by
  intro _ g g' c c' x same
  obtain ⟨a, rfl⟩ := changes_of c
  obtain ⟨b, rfl⟩ := changes_of c'
  exact (commute x a b).trans (congrArg (set' · b) same)

theorem settles_of [Readable α] {slot : Nat} {args : List Value} {set : R → α → R}
    (again : ∀ r a, set (set r a) a = set r a) :
    Store.Settles (Read.of slot κ m args set).store := by
  intro g c x
  obtain ⟨a, rfl⟩ := changes_of c
  exact again x a

end Read

namespace Batch

variable {R S : Type} {ρs : List (Read R)} {b : Batch R}

theorem exists_ofReads (h : ∀ ρ ∈ ρs, ρ.Declared) :
    ∃ b, ofReads ρs = .ok b ∧ List.Forall₂ Read.Queues ρs b := by
  obtain ⟨b, each⟩ := Traverse.exists_forall₂.mpr fun ρ m => (h ρ m).queues
  refine ⟨b, Traverse.mapM_eq_ok.mpr (each.imp fun _ _ h => h.1), each.imp fun _ _ h => h.2⟩

theorem pairwise_of_queues (h : List.Forall₂ Read.Queues ρs b) (apart : ρs.Pairwise Read.Apart) :
    b.Pairwise fun e e' => e.slot = e'.slot → Store.Spares e.store e'.store := by
  induction h with
  | nil => exact .nil
  | cons q rest ih =>
    obtain ⟨head, tail⟩ := List.pairwise_cons.mp apart
    refine List.pairwise_cons.mpr ⟨?_, ih tail⟩
    intro e' m
    obtain ⟨ρ', n, f', t', -, rfl⟩ := Traverse.exists_left rest m
    obtain ⟨f, t, -, rfl⟩ := q
    exact head ρ' n

end Batch

namespace Read

variable {R S : Type} {records : List S} {reads : Nat → S → List (Read R)}

theorem mem_readEach {ρ : Read R} :
    ρ ∈ readEach records reads ↔ ∃ (slot : Nat) (r : S), records[slot]? = some r ∧ ρ ∈ reads slot r := by
  simp only [readEach, List.mem_flatMap, Prod.exists, List.mem_zipIdx_iff_getElem?]
  exact exists_comm

theorem pairwise_readEach (apart : ∀ slot r, (reads slot r).Pairwise Apart)
    (placed : ∀ slot r, ∀ ρ ∈ reads slot r, ρ.slot = slot) : (readEach records reads).Pairwise Apart := by
  have slots : (records.zipIdx.map Prod.snd).Pairwise (· ≠ ·) := by
    rw [List.zipIdx_map_snd]
    exact List.nodup_range'
  rw [readEach, List.pairwise_flatMap]
  refine ⟨fun p _ => apart p.2 p.1, (List.pairwise_map.mp slots).imp ?_⟩
  intro p p' ne ρ m ρ' m' same
  exact absurd (((placed _ _ ρ m).symm.trans same).trans (placed _ _ ρ' m')) ne

end Read

end PoolSnapshot
