import PoolSnapshot.Minipool.Details
import PoolSnapshot.Proofs.Time.Calendar

/-!
Finished records read back from what they are written as. Every field has a form of its own that is read back
without loss, so a record is known from the values under its names.
-/
namespace PoolSnapshot

/-- A value as it is written down and read back. -/
class Json.Shown (α : Type) where
  toJson : α → Json
  ofJson? : Json → Option α
  ofJson?_toJson : ∀ a, ofJson? (toJson a) = some a

namespace Word

/-- A number in sixteens, of no more digits than it takes. -/
def ofHex? (s : String) : Option Word :=
  match s.toList with
  | '0' :: 'x' :: ds =>
    if Text.Minimal ds then ((Hex.toNat? ds).filter (· < 2 ^ 256)).map (BitVec.ofNat 256) else none
  | _ => none

theorem ofHex?_hex (w : Word) : ofHex? w.hex = some w := by
  have written : w.hex.toList = '0' :: 'x' :: Nat.toDigits 16 w.toNat := by
    rw [hex, Hex.quantity, String.toList_append]
    exact congrArg (['0', 'x'] ++ ·) String.toList_ofList
  rw [ofHex?, written]
  simp only [if_pos (Text.minimal_toDigits (by decide : 1 < 16) (by decide) w.toNat), Hex.toNat?_toDigits,
    Option.filter_some, w.isLt, decide_true, if_true, Option.map_some, BitVec.ofNat_toNat, BitVec.setWidth_eq]

end Word

/-- The bytes of a text with two digits for each. -/
def Hex.exactly? (n : Nat) (s : String) : Option Bytes := (toBytes? s).filter (·.length = n)

theorem Hex.exactly?_ofBytes {b : Bytes} (h : b.length = n) : exactly? n (ofBytes b) = some b := by
  rw [exactly?, toBytes?_ofBytes, Option.filter_some, if_pos (decide_eq_true h)]

namespace Minipool

/-- A number in tens with a sign if it is negative, of no more digits than it takes. -/
def signed? (s : String) : Option Int :=
  match s.toList with
  | '-' :: ds => if Text.Minimal ds ∧ ds ≠ ['0'] then (Text.digits? ds).map fun n => -Int.ofNat n else none
  | ds => if Text.Minimal ds then (Text.digits? ds).map Int.ofNat else none

theorem signed?_signed (i : Int) : signed? (signed i) = some i := by
  have all (n : Nat) : Text.Minimal (Nat.toDigits 10 n) := Text.minimal_toDigits (by decide) (by decide) n
  have figures (n : Nat) : (toString n).toList = Nat.toDigits 10 n := by
    rw [Nat.toString_eq_ofList_toDigits, String.toList_ofList]
  match i with
  | .ofNat n =>
    have unsigned (ds : List Char) : Nat.toDigits 10 n ≠ '-' :: ds := by
      intro sign
      have digit := Nat.isDigit_of_mem_toDigits (b := 10) (by decide) (by decide) (sign ▸ List.mem_cons_self)
      exact absurd digit (by decide)
    rw [signed?, signed, figures]
    split
    · next ds sign => exact absurd sign (unsigned ds)
    · rw [if_pos (all n), Text.digits?_toDigits, Option.map_some]
  | .negSucc n =>
    have nonzero : Nat.toDigits 10 (n + 1) ≠ ['0'] := fun zero =>
      Text.head?_toDigits (by decide : 1 < 10) (by decide) n.succ_pos (zero ▸ rfl)
    have written : (signed (.negSucc n)).toList = '-' :: Nat.toDigits 10 (n + 1) := by
      rw [signed, String.toList_append, figures]
      rfl
    rw [signed?, written]
    simp only [if_pos (And.intro (all (n + 1)) nonzero), Text.digits?_toDigits, Option.map_some]
    rfl

end Minipool

namespace Json.Shown

instance : Shown Bool where
  toJson := .bool
  ofJson?
    | .bool b => some b
    | _ => none
  ofJson?_toJson _ := rfl

instance : Shown Nat where
  toJson := .nat
  ofJson?
    | .nat n => some n
    | _ => none
  ofJson?_toJson _ := rfl

/-- What is written as a text. -/
@[reducible] def ofText (text : α → String) (ofText? : String → Option α) (back : ∀ a, ofText? (text a) = some a) : Shown α where
  toJson a := .text (text a)
  ofJson?
    | .text s => ofText? s
    | _ => none
  ofJson?_toJson := back

instance : Shown Word := ofText Word.hex Word.ofHex? Word.ofHex?_hex

instance : Shown Int := ofText Minipool.signed Minipool.signed? Minipool.signed?_signed

instance : Shown Timestamp := ofText Timestamp.text Timestamp.ofText? Timestamp.ofText?_text

instance : Shown Address :=
  ofText Address.text (fun s => (Hex.exactly? 20 s).map Address.ofBytes) fun a => by
    rw [Address.text, Hex.exactly?_ofBytes a.length_bytes, Option.map_some, Address.ofBytes_bytes]

instance : Shown Hash :=
  ofText Hash.text (fun s => (Hex.exactly? 32 s).map Hash.ofBytes) fun h => by
    rw [Hash.text, Hex.exactly?_ofBytes h.length_bytes, Option.map_some, Hash.ofBytes_bytes]

/-- A key, or nothing where there is none. -/
instance : Shown (Option Minipool.Pubkey) where
  toJson
    | some k => .text k.text
    | none => .null
  ofJson?
    | .null => some none
    | .text s => ((Hex.exactly? 48 s).bind Minipool.Pubkey.ofBytes?).map some
    | _ => none
  ofJson?_toJson
    | none => rfl
    | some k => by
      have back : Minipool.Pubkey.ofBytes? k.bytes = some k := dif_pos k.length_eq
      simp only [Minipool.Pubkey.text, Hex.exactly?_ofBytes k.length_eq, Option.bind_some, back, Option.map_some]

/-- States are written by their names. -/
@[reducible] def ofNames [Coded α] (known : ∀ a : α, Coded.ofName (Coded.name a) = .ok a) : Shown α :=
  ofText Coded.name (fun s => (Coded.ofName s).toOption) fun a => congrArg Except.toOption (known a)

instance : Shown Minipool.Version := ofNames fun v => by cases v <;> rfl

instance : Shown Minipool.Status := ofNames fun v => by cases v <;> rfl

instance : Shown Minipool.Deposit := ofNames fun v => by cases v <;> rfl

end Json.Shown

namespace Json

def field? : Json → String → Option Json
  | object fs, name => fs.lookup name
  | _, _ => none

/-- The value under a name, if it is one of the kind. -/
def read? [Shown α] (value? : String → Option Json) (name : String) : Option α :=
  (value? name).bind Shown.ofJson?

theorem read?_of [Shown α] {value? : String → Option Json} {a : α} (here : value? name = some (Shown.toJson a)) :
    read? value? name = some a := by
  rw [read?, here, Option.bind_some, Shown.ofJson?_toJson]

end Json

namespace Minipool.Details

/-- The record whose values stand under its names. -/
def ofFields? (value? : String → Option Json) : Option Details :=
  return {
    address := ← Json.read? value? "address"
    version := ← Json.read? value? "version"
    registered := ← Json.read? value? "exists"
    pubkey := ← Json.read? value? "pubkey"
    withdrawalCredentials := ← Json.read? value? "withdrawal_credentials"
    rplSlashed := ← Json.read? value? "rpl_slashed"
    depositType := ← Json.read? value? "deposit_type"
    status := ← Json.read? value? "status"
    statusBlock := ← Json.read? value? "status_block"
    statusTime := ← Json.read? value? "status_time"
    finalised := ← Json.read? value? "finalised"
    nodeFee := ← Json.read? value? "node_fee"
    nodeDepositBalance := ← Json.read? value? "node_deposit_balance"
    nodeDepositAssigned := ← Json.read? value? "node_deposit_assigned"
    userDepositBalance := ← Json.read? value? "user_deposit_balance"
    userDepositAssigned := ← Json.read? value? "user_deposit_assigned"
    userDepositAssignedTime := ← Json.read? value? "user_deposit_assigned_time"
    useLatestDelegate := ← Json.read? value? "use_latest_delegate"
    delegate := ← Json.read? value? "delegate"
    previousDelegate := ← Json.read? value? "previous_delegate"
    effectiveDelegate := ← Json.read? value? "effective_delegate"
    nodeAddress := ← Json.read? value? "node_address"
    nodeRefundBalance := ← Json.read? value? "node_refund_balance"
    penaltyCount := ← Json.read? value? "penalty_count"
    penaltyRate := ← Json.read? value? "penalty_rate"
    balance := ← Json.read? value? "balance"
    distributableBalance := ← Json.read? value? "distributable_balance"
    nodeShareOfBalance := ← Json.read? value? "node_share_of_balance"
    userShareOfBalance := ← Json.read? value? "user_share_of_balance"
    userDistributed := ← Json.read? value? "user_distributed"
    isVacant := ← Json.read? value? "is_vacant"
    preMigrationBalance := ← Json.read? value? "pre_migration_balance"
    reduceBondTime := ← Json.read? value? "reduce_bond_time"
    reduceBondValue := ← Json.read? value? "reduce_bond_value"
    reduceBondCancelled := ← Json.read? value? "reduce_bond_cancelled"
    lastBondReductionTime := ← Json.read? value? "last_bond_reduction_time"
    lastBondReductionPrevValue := ← Json.read? value? "last_bond_reduction_prev_value"
    lastBondReductionPrevNodeFee := ← Json.read? value? "last_bond_reduction_prev_node_fee" }

theorem ofFields?_toJson (d : Details) : ofFields? d.toJson.field? = some d := by
  rw [ofFields?]
  -- One step for each name: the value that was written under it.
  repeat refine Option.bind_eq_some_iff.mpr ⟨_, Json.read?_of rfl, ?_⟩
  rfl

/-- A record is written down without loss: it is read back from the values under its names, so that records written
alike are the same. -/
theorem toJson_lossless (a b : Details) :
    ofFields? a.toJson.field? = some a ∧ (a.toJson = b.toJson ↔ a = b) ∧
      (a.toJson.field? = b.toJson.field? ↔ a = b) := by
  have back (same : a.toJson.field? = b.toJson.field?) : a = b := by
    have read := ofFields?_toJson a
    rw [same, ofFields?_toJson b] at read
    exact (Option.some.inj read).symm
  refine ⟨ofFields?_toJson a, ⟨fun same => back (congrArg Json.field? same), congrArg toJson⟩, back, ?_⟩
  rintro rfl
  rfl

end Minipool.Details

end PoolSnapshot
