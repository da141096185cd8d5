import PoolSnapshot.Proofs.Batch.Declared

/-!
Sound reads: they can be queued, no two write the same part of a record, and a value without meaning
shows in the record that took it.
-/
namespace PoolSnapshot

open Abi (Value Readable)

/-- Methods whose numbers have a meaning from one number up to, not including, another. -/
def spans : List (String × Nat × Nat) :=
  [("version", 1, 4), ("getStatus", 0, 5), ("getMinipoolDepositType", 0, 5),
    ("getMinipoolCount", 0, 2 ^ 64), ("getNodeMinipoolCount", 0, 2 ^ 64),
    ("getMemberCount", 0, 2 ^ 64), ("getStatusBlock", 0, 2 ^ 64),
    ("getStatusTime", 0, 8210266876800), ("getUserDepositAssignedTime", 0, 8210266876800),
    ("getReduceBondTime", 0, 8210266876800), ("getLastBondReductionTime", 0, 8210266876800),
    ("getEthBalance", 0, 2 ^ 255), ("getNodeRefundBalance", 0, 2 ^ 255)]

/-- Answers of the right type that no record may have. -/
inductive Improper (method : String) : Value → Prop
  | number (span : spans.lookup method = some (least, bound))
      (h : ¬(least ≤ w.toNat ∧ w.toNat < bound)) : Improper method (.uint w)
  | key (m : method = "getMinipoolPubkey") (h : b ≠ []) (l : b.length ≠ 48) : Improper method (.bytes b)

namespace Read

variable {R S α β : Type} {F : R → Prop} {slot : Nat} {args : List Value}

/-- A record that took an improper value is one of `F`. -/
def Shows (F : R → Prop) (ρ : Read R) : Prop :=
  ∀ v, Improper ρ.method v → ∃ g, ρ.store v = .ok g ∧ ∀ y, g y = y → F y

structure Sound (slot : Nat) (F : R → Prop) (ρ : Read R) : Prop where
  declared : ρ.Declared
  slot_eq : ρ.slot = slot
  settles : Store.Settles ρ.store
  shows : ρ.Shows F

theorem Sound.of [Readable α] {value : α → Value} [Abi.Reads α t value] {set : R → α → R} (found : κ.function m = .ok f)
    (fits : Value.eachFits args f.inputTypes = true) (answers : f.outputs = [t])
    (again : ∀ r a, set (set r a) a = set r a) (shows : (Read.of slot κ m args set).Shows F) :
    (Read.of slot κ m args set).Sound slot F :=
  ⟨⟨f, t, .of found fits answers⟩, rfl, settles_of again, shows⟩

theorem shows_of_none [Readable α] {set : R → α → R} (span : spans.lookup m = none)
    (k : m ≠ "getMinipoolPubkey") : (Read.of slot κ m args set).Shows F := by
  intro v im
  cases im with
  | number span' => cases span.symm.trans span'
  | key m' => exact absurd m' k

theorem shows_number {set : R → Word → R} (span : spans.lookup m = some (least, bound))
    (k : m ≠ "getMinipoolPubkey")
    (h : ∀ y w, ¬(least ≤ w.toNat ∧ w.toNat < bound) → F (set y w)) :
    (Read.of slot κ m args set).Shows F := by
  intro v im
  cases im with
  | number span' out =>
    cases span.symm.trans span'
    exact ⟨_, rfl, fun y same => same ▸ h y _ out⟩
  | key m' => exact absurd m' k

theorem shows_key {set : R → Bytes → R} (span : spans.lookup m = none)
    (h : ∀ y b, b ≠ [] → b.length ≠ 48 → F (set y b)) : (Read.of slot κ m args set).Shows F := by
  intro v im
  cases im with
  | number span' => cases span.symm.trans span'
  | key _ ne l => exact ⟨_, rfl, fun y same => same ▸ h y _ ne l⟩

/-- Reads that `n` records can be read by. -/
structure Ready (n : Nat) (F : R → Prop) (ρs : List (Read R)) : Prop where
  sound : ∀ ρ ∈ ρs, ∃ slot < n, ρ.Sound slot F
  apart : ρs.Pairwise Apart

theorem ready_readEach {records : List S} {reads : Nat → S → List (Read R)}
    (sound : ∀ slot x, ∀ ρ ∈ reads slot x, ρ.Sound slot F)
    (apart : ∀ slot x, (reads slot x).Pairwise Apart) :
    Ready records.length F (readEach records reads) := by
  constructor
  · intro ρ m
    obtain ⟨slot, x, here, n⟩ := mem_readEach.mp m
    obtain ⟨inside, rfl⟩ := List.getElem?_eq_some_iff.mp here
    exact ⟨slot, inside, sound slot _ ρ n⟩
  · exact pairwise_readEach apart fun slot x ρ m => (sound slot x ρ m).slot_eq

end Read

/-- A batch that was made of such reads. -/
structure Batch.Ready (n : Nat) (F : R → Prop) (b : Batch R) : Prop where
  within : b.Within n
  apart : b.Pairwise fun e e' => e.slot = e'.slot → Store.Spares e.store e'.store
  settles : ∀ e ∈ b, Store.Settles e.store
  shows : ∀ e ∈ b, ∀ v, Improper e.function.name v → ∃ g, e.store v = .ok g ∧ ∀ y, g y = y → F y

theorem Read.Ready.exists_batch {ρs : List (Read R)} (h : Ready n F ρs) :
    ∃ b, Batch.ofReads ρs = .ok b ∧ b.Ready n F ∧ List.Forall₂ Read.Queues ρs b := by
  obtain ⟨b, made, queued⟩ := Batch.exists_ofReads fun ρ m => by
    obtain ⟨slot, -, s⟩ := h.sound ρ m
    exact s.declared
  refine ⟨b, made, ⟨?within, Batch.pairwise_of_queues queued h.apart, ?settles, ?shows⟩, queued⟩
  case within =>
    intro e m
    obtain ⟨ρ, n, f, t, -, rfl⟩ := Traverse.exists_left queued m
    obtain ⟨slot, inside, s⟩ := h.sound ρ n
    exact Nat.lt_of_le_of_lt (Nat.le_of_eq s.slot_eq) inside
  case settles =>
    intro e m
    obtain ⟨ρ, n, f, t, -, rfl⟩ := Traverse.exists_left queued m
    obtain ⟨slot, -, s⟩ := h.sound ρ n
    exact s.settles
  case shows =>
    intro e m
    obtain ⟨ρ, n, f, t, d, rfl⟩ := Traverse.exists_left queued m
    obtain ⟨slot, -, s⟩ := h.sound ρ n
    intro v im
    exact s.shows v (d.name_eq ▸ im)

/-- The record that took an improper value shows it at the end. -/
theorem Batch.Ready.flawed {b : Batch R} (h : b.Ready n F) (count : os.length = b.length)
    (p : Passes mode (b.zip os) rs rs' flags) (m : (e, o) ∈ b.zip os) (brings : e.Brings o v)
    (im : Improper e.function.name v) : ∃ y, rs'[e.slot]? = some y ∧ F y := by
  obtain ⟨g, s, all⟩ := h.shows e (List.of_mem_zip m).1 v im
  have entries : (b.zip os).map Prod.fst = b := List.map_fst_zip (Nat.le_of_eq count.symm)
  have apart := h.apart
  rw [← entries, List.pairwise_map] at apart
  obtain ⟨y, here, same⟩ := p.holds apart (fun q m => h.settles q.1 (List.of_mem_zip m).1) m
    (Entry.change?_of_brings brings s)
  exact ⟨y, here, all y same⟩

end PoolSnapshot
