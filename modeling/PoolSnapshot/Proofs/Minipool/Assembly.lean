import PoolSnapshot.Proofs.Minipool.Amounts
import PoolSnapshot.Proofs.OracleDao.Members

/-!
A record is assembled when nothing is wrong with it. What is wrong is looked for field by field, and the first
flaw that is found is the one that is reported.
-/
namespace PoolSnapshot

open Minipool (Raw Shares Details Status Deposit Pubkey)

/-- Something that may be wrong, and how it is reported. -/
structure Flaw where
  Found : Prop
  [decidable : Decidable Found]
  report : SnapshotError

namespace Flaw

attribute [instance] Flaw.decidable

inductive First : List Flaw → SnapshotError → Prop where
  | here (found : φ.Found) : First (φ :: φs) φ.report
  | later (passed : ¬φ.Found) (h : First φs e) : First (φ :: φs) e

/-- There is a value like this if there is no flaw, or else the report on the first. -/
def Judged (φs : List Flaw) (P : α → Prop) : Except SnapshotError α → Prop
  | .ok a => (∀ φ ∈ φs, ¬φ.Found) ∧ P a
  | .error e => First φs e

variable {φ : Flaw} {φs φs' : List Flaw} {e e' : SnapshotError} {P : α → Prop} {x : Except SnapshotError α}

theorem First.exists_found (h : First φs e) : ∃ φ ∈ φs, φ.Found := by
  induction h with
  | here found => exact ⟨_, List.mem_cons_self, found⟩
  | later _ _ ih =>
    obtain ⟨φ, m, found⟩ := ih
    exact ⟨φ, List.mem_cons_of_mem _ m, found⟩

theorem First.unique (h : First φs e) (h' : First φs e') : e = e' := by
  induction h with
  | here found =>
    cases h' with
    | here => rfl
    | later passed => exact absurd found passed
  | later passed _ ih =>
    cases h' with
    | here found => exact absurd found passed
    | later _ h' => exact ih h'

theorem First.append_left (h : First φs e) (φs' : List Flaw) : First (φs ++ φs') e := by
  induction h with
  | here found => exact .here found
  | later passed _ ih => exact .later passed ih

theorem First.append_right (passed : ∀ φ ∈ φs, ¬φ.Found) (h : First φs' e) : First (φs ++ φs') e := by
  induction φs with
  | nil => exact h
  | cons φ φs ih =>
    obtain ⟨now, later⟩ := List.forall_mem_cons.mp passed
    exact .later now (ih later)

namespace Judged

theorem bind {k : α → Except SnapshotError β} {R : β → Prop} (now : Judged φs P x)
    (later : ∀ a, P a → Judged φs' R (k a)) : Judged (φs ++ φs') R (x >>= k) := by
  cases x with
  | error e => exact First.append_left now φs'
  | ok a =>
    obtain ⟨passed, here⟩ := now
    change Judged _ R (k a)
    have rest := later a here
    cases r : k a with
    | error e =>
      rw [r] at rest
      exact .append_right passed rest
    | ok b =>
      rw [r] at rest
      obtain ⟨passed', there⟩ := rest
      exact ⟨List.forall_mem_append.mpr ⟨passed, passed'⟩, there⟩

theorem map {f : α → β} {R : β → Prop} (now : Judged φs P x) (later : ∀ a, P a → R (f a)) :
    Judged φs R (x >>= fun a => pure (f a)) := by
  cases x with
  | error e => exact now
  | ok a => exact ⟨now.1, later a now.2⟩

theorem exists_ok_iff (h : Judged φs P x) : (∃ a, x = .ok a) ↔ ∀ φ ∈ φs, ¬φ.Found := by
  cases x with
  | ok a => exact ⟨fun _ => h.1, fun _ => ⟨a, rfl⟩⟩
  | error e =>
    obtain ⟨φ, m, found⟩ := First.exists_found h
    exact ⟨nofun, fun passed => absurd found (passed φ m)⟩

theorem eq_error_iff (h : Judged φs P x) : x = .error e ↔ First φs e := by
  cases x with
  | ok a =>
    refine ⟨nofun, fun first => ?_⟩
    obtain ⟨φ, m, found⟩ := first.exists_found
    exact absurd found (h.1 φ m)
  | error e' =>
    rw [Except.error.injEq]
    constructor
    · rintro rfl
      exact h
    · exact First.unique h

end Judged

end Flaw

namespace Minipool

theorem ofCode?_status (n : Nat) :
    Coded.ofCode? n = [Status.initialized, .prelaunch, .staking, .withdrawable, .dissolved][n]? := by
  rcases n with _ | _ | _ | _ | _ | n <;> rfl

theorem ofCode?_deposit (n : Nat) :
    Coded.ofCode? n = [Deposit.none, .full, .half, .empty, .variable][n]? := by
  rcases n with _ | _ | _ | _ | _ | n <;> rfl

end Minipool

namespace Word

/-- The low byte of a number that needs no more. -/
def low8? (w : Word) : Option (BitVec 8) := if 255 < w.toNat then none else some ((w.setWidth 32).setWidth 8)

def low64? (w : Word) : Option (BitVec 64) := if 2 ^ 64 - 1 < w.toNat then none else some (w.setWidth 64)

/-- The low bits as a signed number, if the sign bit is clear. -/
def signed64? (w : Word) : Option (BitVec 64) := (low64? w).bind fun b => if b.msb then none else some b

/-- Codes, blocks and seconds go through fewer bits. No number is taken for another on the way. -/
structure Narrowed (w : Word) : Prop where
  status : ((low8? w).bind fun b => Coded.ofCode? b.toNat) = (Coded.ofCode? w.toNat : Option Status)
  deposit : ((low8? w).bind fun b => Coded.ofCode? b.toNat) = (Coded.ofCode? w.toNat : Option Deposit)
  block : w.toU64 = (low64? w).elim (.error .overflow) fun b => .ok b.toNat
  time : w.toTime = (signed64? w).elim (.error .overflow) fun b =>
    if b.toNat ≤ Timestamp.latest then .ok ⟨b.toNat⟩ else .error (.invalidTimestamp b.toNat)

variable {w : Word}

theorem low8?_of_le (fits : w.toNat ≤ 255) : ∃ b, low8? w = some b ∧ b.toNat = w.toNat := by
  refine ⟨_, if_neg (Nat.not_lt.mpr fits), ?_⟩
  rw [BitVec.toNat_setWidth, BitVec.toNat_setWidth]
  omega

theorem low64?_of_lt (fits : w.toNat < 2 ^ 64) : ∃ b, low64? w = some b ∧ b.toNat = w.toNat := by
  refine ⟨_, if_neg (by omega), ?_⟩
  rw [BitVec.toNat_setWidth]
  omega

theorem signed64?_of_lt (fits : w.toNat < 2 ^ 63) : ∃ b, signed64? w = some b ∧ b.toNat = w.toNat := by
  obtain ⟨b, low, same⟩ := low64?_of_lt (w := w) (by omega)
  have clear : b.msb = false := by
    rw [BitVec.msb_eq_false_iff_two_mul_lt]
    omega
  refine ⟨b, ?_, same⟩
  rw [signed64?, low, Option.bind_some, clear]
  rfl

theorem signed64?_of_le (wide : 2 ^ 63 ≤ w.toNat) : signed64? w = none := by
  by_cases fits : w.toNat < 2 ^ 64
  · obtain ⟨b, low, same⟩ := low64?_of_lt fits
    have set : b.msb = true := by
      rw [BitVec.msb_eq_true_iff_two_mul_ge]
      omega
    rw [signed64?, low, Option.bind_some, set]
    rfl
  · rw [signed64?, low64?, if_pos (by omega)]
    rfl

theorem bind_low8? [Coded α] (none : ∀ n, 255 < n → (Coded.ofCode? n : Option α) = .none) (w : Word) :
    ((low8? w).bind fun b => Coded.ofCode? b.toNat) = (Coded.ofCode? w.toNat : Option α) := by
  by_cases fits : w.toNat ≤ 255
  · obtain ⟨b, low, same⟩ := low8?_of_le fits
    rw [low, Option.bind_some, same]
  · have wide := Nat.lt_of_not_le fits
    rw [low8?, if_pos wide, none _ wide]
    rfl

theorem narrowed (w : Word) : w.Narrowed where
  status := bind_low8? (fun n wide =>
    (Minipool.ofCode?_status n).trans (List.getElem?_eq_none (Nat.le_trans (by decide) wide))) w
  deposit := bind_low8? (fun n wide =>
    (Minipool.ofCode?_deposit n).trans (List.getElem?_eq_none (Nat.le_trans (by decide) wide))) w
  block := by
    rw [toU64, below, Nat.pow_eq]
    split
    · next fits =>
      obtain ⟨b, low, same⟩ := low64?_of_lt fits
      rw [low, Option.elim_some, same]
    · next wide =>
      rw [low64?, if_pos (by omega)]
      rfl
  time := by
    rw [toTime, below, Nat.pow_eq]
    split
    · next fits =>
      obtain ⟨b, low, same⟩ := signed64?_of_lt fits
      rw [low, Option.elim_some, same]
      rfl
    · next wide =>
      rw [signed64?_of_le (Nat.le_of_not_lt wide)]
      rfl

end Word

namespace Minipool.Raw

variable (r : Raw)

def codeFlaw (field : String) (w : Word) : Flaw :=
  ⟨4 < w.toNat, .invalidValue (.minipool r.address) field (toString w.toNat)⟩

def keyFlaw : Flaw :=
  ⟨r.pubkey.length ≠ 0 ∧ r.pubkey.length ≠ 48,
    .invalidValue (.minipool r.address) "pubkey" s!"{r.pubkey.length} bytes"⟩

def blockFlaw (field : String) (w : Word) : Flaw :=
  ⟨2 ^ 64 ≤ w.toNat, .conversion (.account r.address) field .overflow⟩

def timeFlaws (field : String) (w : Word) : List Flaw :=
  [⟨2 ^ 63 ≤ w.toNat, .conversion (.account r.address) field .overflow⟩,
    ⟨8210266876799 < w.toNat, .conversion (.account r.address) field (.invalidTimestamp w.toNat)⟩]

/-- Whatever can be wrong with a record, in the order in which it is looked for. -/
def flaws : List Flaw :=
  codeFlaw r "status" r.status :: codeFlaw r "deposit type" r.depositType :: keyFlaw r ::
    blockFlaw r "status block" r.statusBlock ::
    (timeFlaws r "status time" r.statusTime ++
      (timeFlaws r "user deposit assigned time" r.userDepositAssignedTime ++
        (timeFlaws r "reduce bond time" r.atlas.reduceBondTime ++
          timeFlaws r "last bond reduction time" r.atlas.lastBondReductionTime)))

structure Valid : Prop where
  status : r.status.toNat ≤ 4
  depositType : r.depositType.toNat ≤ 4
  pubkey : r.pubkey.length = 0 ∨ r.pubkey.length = 48
  statusBlock : r.statusBlock.toNat < 2 ^ 64
  statusTime : r.statusTime.toNat ≤ 8210266876799
  userDepositAssignedTime : r.userDepositAssignedTime.toNat ≤ 8210266876799
  reduceBondTime : r.atlas.reduceBondTime.toNat ≤ 8210266876799
  lastBondReductionTime : r.atlas.lastBondReductionTime.toNat ≤ 8210266876799

variable {r}

theorem valid_iff : r.Valid ↔ ∀ φ ∈ r.flaws, ¬φ.Found := by
  simp only [flaws, timeFlaws, List.cons_append, List.nil_append, List.forall_mem_cons, List.not_mem_nil,
    false_implies, implies_true, and_true, codeFlaw, keyFlaw, blockFlaw, not_and_or, not_not, Nat.not_lt,
    Nat.not_le]
  constructor
  · rintro ⟨status, deposit, key, block, time, time', time'', time'''⟩
    exact ⟨status, deposit, key, block, by omega, time, by omega, time', by omega, time'', by omega, time'''⟩
  · rintro ⟨status, deposit, key, block, -, time, -, time', -, time'', -, time'''⟩
    exact ⟨status, deposit, key, block, time, time', time'', time'''⟩

end Minipool.Raw

namespace Minipool.Details

/-- The record and its shares field by field, where codes, times and the key have their meaning. -/
structure Of (r : Raw) (s : Shares) (d : Details) : Prop where
  address : d.address = r.address
  version : d.version = r.version
  registered : d.registered = r.registered
  without : r.pubkey.length = 0 → d.pubkey = none
  pubkey : r.pubkey.length = 48 → ∃ k, d.pubkey = some k ∧ k.bytes = r.pubkey
  withdrawalCredentials : d.withdrawalCredentials = r.withdrawalCredentials
  rplSlashed : d.rplSlashed = r.rplSlashed
  depositType : [Deposit.none, .full, .half, .empty, .variable][r.depositType.toNat]? = some d.depositType
  status : [Status.initialized, .prelaunch, .staking, .withdrawable, .dissolved][r.status.toNat]? = some d.status
  statusBlock : d.statusBlock = r.statusBlock.toNat
  statusTime : d.statusTime.seconds = r.statusTime.toNat
  finalised : d.finalised = r.finalised
  nodeFee : d.nodeFee = r.nodeFee
  nodeDepositBalance : d.nodeDepositBalance = r.nodeDepositBalance
  nodeDepositAssigned : d.nodeDepositAssigned = r.nodeDepositAssigned
  userDepositBalance : d.userDepositBalance = r.userDepositBalance
  userDepositAssigned : d.userDepositAssigned = r.userDepositAssigned
  userDepositAssignedTime : d.userDepositAssignedTime.seconds = r.userDepositAssignedTime.toNat
  useLatestDelegate : d.useLatestDelegate = r.useLatestDelegate
  delegate : d.delegate = r.delegate
  previousDelegate : d.previousDelegate = r.previousDelegate
  effectiveDelegate : d.effectiveDelegate = r.effectiveDelegate
  nodeAddress : d.nodeAddress = r.nodeAddress
  nodeRefundBalance : d.nodeRefundBalance = r.nodeRefundBalance
  penaltyCount : d.penaltyCount = r.penaltyCount
  penaltyRate : d.penaltyRate = r.penaltyRate
  balance : d.balance = r.balance
  distributableBalance : d.distributableBalance = s.distributableBalance
  nodeShareOfBalance : d.nodeShareOfBalance = s.nodeShareOfBalance
  userShareOfBalance : d.userShareOfBalance = s.userShareOfBalance
  userDistributed : d.userDistributed = r.atlas.userDistributed
  isVacant : d.isVacant = r.atlas.isVacant
  preMigrationBalance : d.preMigrationBalance = r.atlas.preMigrationBalance
  reduceBondTime : d.reduceBondTime.seconds = r.atlas.reduceBondTime.toNat
  reduceBondValue : d.reduceBondValue = r.atlas.reduceBondValue
  reduceBondCancelled : d.reduceBondCancelled = r.atlas.reduceBondCancelled
  lastBondReductionTime : d.lastBondReductionTime.seconds = r.atlas.lastBondReductionTime.toNat
  lastBondReductionPrevValue : d.lastBondReductionPrevValue = r.atlas.lastBondReductionPrevValue
  lastBondReductionPrevNodeFee : d.lastBondReductionPrevNodeFee = r.atlas.lastBondReductionPrevNodeFee

open Flaw (Judged)

variable (r : Raw) (field : String) (w : Word)

theorem judged_coded [Coded α] {order : List α} (length : order.length = 5)
    (codes : ∀ n, Coded.ofCode? n = order[n]?) :
    Judged [r.codeFlaw field w] (order[w.toNat]? = some ·) (coded r field w) := by
  rw [coded, codes]
  cases found : order[w.toNat]? with
  | none =>
    refine .here ?_
    rw [List.getElem?_eq_none_iff, length] at found
    exact found
  | some a =>
    obtain ⟨inside, -⟩ := List.getElem?_eq_some_iff.mp found
    rw [length] at inside
    exact ⟨List.forall_mem_singleton.mpr (Nat.not_lt.mpr (Nat.le_of_lt_succ inside)), rfl⟩

theorem judged_key : Judged [r.keyFlaw]
    (fun k => (r.pubkey.length = 0 → k = none) ∧ (r.pubkey.length = 48 → ∃ k', k = some k' ∧ k'.bytes = r.pubkey))
    (key r) := by
  rw [key, Pubkey.ofBytes?]
  split
  · next none =>
    have empty := List.length_eq_zero_iff.mpr (List.isEmpty_iff.mp none)
    exact ⟨List.forall_mem_singleton.mpr fun h => h.1 empty, fun _ => rfl, fun long => by omega⟩
  · next some =>
    have full : r.pubkey.length ≠ 0 := fun h => some (List.isEmpty_iff.mpr (List.length_eq_zero_iff.mp h))
    by_cases long : r.pubkey.length = 48
    · rw [dif_pos long]
      exact ⟨List.forall_mem_singleton.mpr fun h => h.2 long, fun h => absurd h full, fun _ => ⟨_, rfl, rfl⟩⟩
    · rw [dif_neg long]
      exact .here ⟨full, long⟩

theorem judged_block : Judged [r.blockFlaw field w] (· = w.toNat) (block r field w) := by
  rw [block, Word.toU64, Word.below, Nat.pow_eq]
  split
  · next fits => exact ⟨List.forall_mem_singleton.mpr (Nat.not_le.mpr fits), rfl⟩
  · next wide => exact .here (Nat.le_of_not_lt wide)

theorem judged_time : Judged (r.timeFlaws field w) (·.seconds = w.toNat) (time r field w) := by
  rw [time, Word.toTime_eq, Word.timeFault]
  split
  · next early =>
    refine ⟨List.forall_mem_cons.mpr ⟨?_, List.forall_mem_singleton.mpr ?_⟩, rfl⟩
    · exact Nat.not_le.mpr (Nat.lt_of_lt_of_le early (by decide))
    · exact Nat.not_lt.mpr (Nat.le_of_lt_succ early)
  · next late =>
    split
    · next fits => exact .later (Nat.not_le.mpr fits) (.here (Nat.lt_of_succ_le (Nat.le_of_not_lt late)))
    · next wide => exact .here (Nat.le_of_not_lt wide)

variable {r : Raw} {s : Shares} {d : Details}

theorem judged_assemble (r : Raw) (s : Shares) : Judged r.flaws (Of r s) (assemble r s) := by
  refine Judged.bind (judged_coded r "status" r.status rfl ofCode?_status) fun _ status => ?_
  refine Judged.bind (judged_coded r "deposit type" r.depositType rfl ofCode?_deposit) fun _ deposit => ?_
  refine Judged.bind (judged_key r) fun _ key => ?_
  refine Judged.bind (judged_block r "status block" r.statusBlock) fun _ block => ?_
  refine Judged.bind (judged_time r "status time" r.statusTime) fun _ time => ?_
  refine Judged.bind (judged_time r "user deposit assigned time" r.userDepositAssignedTime) fun _ assigned => ?_
  refine Judged.bind (judged_time r "reduce bond time" r.atlas.reduceBondTime) fun _ reduced => ?_
  refine Judged.map (judged_time r "last bond reduction time" r.atlas.lastBondReductionTime) fun _ last => ?_
  constructor
  case without => exact key.1
  case pubkey => exact key.2
  case status => exact status
  case depositType => exact deposit
  case statusBlock => exact block
  case statusTime => exact time
  case userDepositAssignedTime => exact assigned
  case reduceBondTime => exact reduced
  case lastBondReductionTime => exact last
  all_goals rfl

/-- Exactly the valid records are assembled, field by field, and of any other the first flaw is reported. -/
theorem assemble_exact (r : Raw) (s : Shares) :
    ((∃ d, assemble r s = .ok d) ↔ r.Valid) ∧
    (∀ d, assemble r s = .ok d → d.Of r s) ∧
    (∀ e, assemble r s = .error e ↔ Flaw.First r.flaws e) ∧
    ∀ w : Word, w.Narrowed := by
  have judged := judged_assemble r s
  refine ⟨?exactly, ?fields, fun e => judged.eq_error_iff, Word.narrowed⟩
  case exactly =>
    rw [Raw.valid_iff]
    exact judged.exists_ok_iff
  case fields =>
    intro d made
    rw [made] at judged
    exact judged.2

/-- Of an unknown deposit type and a time that is too late, the type is reported. The last second is a time. -/
theorem assemble_exact_latest :
    let r : Raw := { address := 10, version := .v1, depositType := 4, statusTime := 8210266876799 }
    (∃ d, assemble r {} = .ok d ∧ d.depositType = .variable ∧ d.pubkey = none ∧
      d.statusTime.seconds = 8210266876799) ∧
    assemble { r with depositType := 260, statusTime := 8210266876800 } {} =
      .error (.invalidValue (.minipool 10) "deposit type" "260") ∧
    assemble { r with statusTime := 8210266876800 } {} =
      .error (.conversion (.account 10) "status time" (.invalidTimestamp 8210266876800)) := by
  intro r
  refine ⟨?_, ?_, ?_⟩
  · obtain ⟨exactly, fields, -⟩ := assemble_exact r {}
    obtain ⟨d, made⟩ := exactly.mpr (by constructor <;> decide)
    have own := fields d made
    exact ⟨d, made, (Option.some.inj own.depositType).symm, own.without rfl, own.statusTime⟩
  · refine ((assemble_exact _ _).2.2.1 _).mpr ?_
    have unknown : (Raw.codeFlaw { r with depositType := 260 } "deposit type" 260).Found := by decide
    exact .later (by decide) (.here unknown)
  · refine ((assemble_exact _ _).2.2.1 _).mpr ?_
    exact .later (by decide) (.later (by decide) (.later (by decide) (.later (by decide) (.later (by decide)
      (.here (by decide))))))

end Minipool.Details

end PoolSnapshot
