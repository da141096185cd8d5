import PoolSnapshot.Proofs.Abi.RoundTrip
import PoolSnapshot.Proofs.Batch.Modes
import PoolSnapshot.Proofs.Program.Returns
import PoolSnapshot.Proofs.Survey.Calls

/-!
Finding the contracts of a network. All names are looked up in one request, each answer goes to the
contract of its own name, and the first contract that has to be there and is not is the one reported.
-/
namespace PoolSnapshot

open Abi (Value)

namespace Network

variable (storage multicall : Address) (block : Nat)

/-- The read that finds a contract, as it stands in a batch. -/
def lookup (slot : Nat) (ι : Interface) : Entry Address :=
  ⟨slot, .view "getAddress" [("key", .fixedBytes 32)] .address,
    .to storage "getAddress(bytes32)" [.fixedBytes (StorageKey.ofContract ι.name).bytes],
    fun v => (v.read Address).map fun a _ => a⟩

def lookups (ιs : List Interface) : Batch Address :=
  (ιs.map (lookup storage 0)).zipIdx.map fun p => p.1.inSlot p.2

theorem ofReads_resolution : Batch.ofReads (resolution storage) = .ok (lookups storage resolved) := by
  rw [lookups, List.zipIdx_map, List.map_map, resolution]
  refine Traverse.mapM_eq_ok.mpr ?_
  refine List.forall₂_map_left_iff.mpr (List.forall₂_map_right_iff.mpr (List.forall₂_same.mpr ?_))
  exact fun p _ => Read.entry_eq rfl rfl

theorem request_lookups (ιs : List Interface) (block : Nat) :
    (lookups storage ιs).request .strict block =
      ⟨ιs.map fun ι => .to storage "getAddress(bytes32)" [.fixedBytes (StorageKey.ofContract ι.name).bytes],
        false, block⟩ := by
  have calls : (lookups storage ιs).map (·.call) = ιs.map fun ι => (lookup storage 0 ι).call := by
    rw [lookups, List.zipIdx_map, List.map_map, List.map_map]
    change List.map ((fun ι => (lookup storage 0 ι).call) ∘ Prod.fst) _ = _
    rw [← List.map_map, List.zipIdx_map_fst]
  rw [Batch.request, calls]
  rfl

theorem change?_lookup (slot : Nat) (ι : Interface) (h : o.Is .address (.address a)) :
    (lookup storage slot ι).change? o = some fun _ => a := by
  obtain ⟨success, decoded⟩ := h
  have brings : (lookup storage slot ι).Brings o (.address a) := ⟨success, [], decoded⟩
  exact Entry.change?_of_brings brings rfl

/-- Names that are all answered leave each its own address. -/
theorem settle_lookups {ιs : List Interface} {found : Interface → Address}
    (each : List.Forall₂ (fun ι o => o.Is .address (.address (found ι))) ιs os) :
    (lookups storage ιs).settle .strict (.ok os) (List.replicate ιs.length 0) =
      (ιs.map found, .ok (List.replicate ιs.length true)) := by
  have bring : List.Forall₂ Entry.Takes (ιs.map (lookup storage 0)) os :=
    List.forall₂_map_left_iff.mpr
      (each.imp fun ι o h => Entry.takes_iff.mpr ⟨_, change?_lookup storage 0 ι h⟩)
  obtain ⟨count, takes⟩ := List.forall₂_iff_zip.mp bring
  have room : (ιs.map (lookup storage 0)).length = (List.replicate ιs.length (0 : Address)).length := by
    rw [List.length_map, List.length_replicate]
  have written : List.zipWith (fun p x => (p.1.change? p.2).elim x (· x))
      ((ιs.map (lookup storage 0)).zip os) (List.replicate ιs.length 0) = ιs.map found := by
    -- Each name's read stands at its own record, so the two lists go down together.
    clear bring count takes room
    induction each with
    | nil => rfl
    | @cons ι o ιs os h _ ih =>
      simp only [List.map_cons, List.zip_cons_cons, List.length_cons, List.replicate_succ,
        List.zipWith_cons_cons, ih, change?_lookup storage 0 ι h]
      rfl
  rw [lookups, Batch.settle_probes_strict count.symm room fun p => takes, written, List.length_map]

/-- What the reply to the request for all names comes to. -/
def ofReply (reply : Reply) : Except ContractError Network :=
  match (lookups storage resolved).settle .strict reply (List.replicate resolved.length 0) with
  | (found, .ok _) => ofResolved storage multicall found
  | (_, .error err) => .error (.resolution err)

theorem asked_load (run : (load storage multicall block).Run asked r) :
    ∃ reply, asked = [((lookups storage resolved).request .strict block, reply)] ∧
      r = ofReply storage multicall reply := by
  obtain ⟨parts, course, rfl⟩ := run.course
  have worker : Read.worker (resolution storage) block ContractError.resolution =
      (lookups storage resolved).worker .strict block .resolution fun _ rs => rs := by
    rw [Read.worker, Read.workerWith, ofReads_resolution]
  rw [load, worker] at course
  have full : lookups storage resolved ≠ [] := List.cons_ne_nil _ _
  obtain ⟨reply, part, rest, rfl, asked, ends⟩ := Program.Course.of_batch_bind full course
  have last : rest = [] ∧ r = ofReply storage multicall reply := by
    rw [ofReply]
    cases settled : (lookups storage resolved).settle .strict reply (List.replicate resolved.length 0) with
    | mk found ended =>
      rw [settled] at ends
      cases ended with
      | ok flags => exact Program.Course.of_done ends
      | error err => exact ends
  obtain ⟨rfl, rfl⟩ := last
  refine ⟨reply, ?_, rfl⟩
  rw [List.flatMap_singleton, asked]

/-- What the answers come to when each is an address: each required name has its own, and the verifier's
comes last. -/
theorem ofReply_answered (found : Interface → Address)
    (each : List.Forall₂ (fun ι o => o.Is .address (.address (found ι))) resolved os) :
    ofReply storage multicall (.ok os) =
      (required.find? fun ι => found ι = 0).elim
        (.ok <| ofAddresses ⟨storage, multicall, found .minipoolManager, found .bondReducer,
          found .oracleDao, found .memberSettings, found .minipoolSettings, found .proposalSettings,
          found .verifier⟩)
        fun ι => .error (.notDeployed ι.name) := by
  have zip : required.zip (resolved.map found) = required.map fun ι => (ι, found ι) := rfl
  have first : (required.zip (resolved.map found)).find? (·.2 = 0) =
      (required.find? fun ι => found ι = 0).map fun ι => (ι, found ι) := by
    rw [zip, List.find?_map]
    rfl
  rw [ofReply, settle_lookups storage each]
  change ofResolved storage multicall (resolved.map found) = _
  rw [ofResolved, first]
  cases required.find? fun ι => found ι = 0 <;> rfl

/-- The verifier is there exactly if its address is not zero. -/
theorem protocolVerifier_eq_ok {α : Addresses} :
    (ofAddresses α).protocolVerifier = .ok κ ↔ α.verifier ≠ 0 ∧ κ = ⟨.verifier, α.verifier⟩ := by
  have verifier : (ofAddresses α).verifier =
      if α.verifier = 0 then none else some ⟨.verifier, α.verifier⟩ := rfl
  rw [protocolVerifier, verifier]
  by_cases zero : α.verifier = 0
  · rw [if_pos zero]
    exact ⟨nofun, fun h => absurd zero h.1⟩
  · rw [if_neg zero]
    exact ⟨fun h => ⟨zero, (Except.ok.inj h).symm⟩, fun h => congrArg Except.ok h.2.symm⟩

/-- Loading makes one request, for the addresses under the names' own keys. A request that fails is
reported; else the first required contract at zero is, and with none of them each contract stands at the
address under its own name. -/
theorem load_resolves (storage multicall : Address) (block : Nat) :
    let required : List Interface :=
      [.minipoolManager, .bondReducer, .oracleDao, .memberSettings, .minipoolSettings, .proposalSettings]
    let key (ι : Interface) : Hash := Keccak.hash (Bytes.ofText "contract.address" ++ Bytes.ofText ι.name)
    let request : Request :=
      ⟨(required ++ [Interface.verifier]).map fun ι =>
        .to storage "getAddress(bytes32)" [.fixedBytes (key ι).bytes], false, block⟩
    ∃ b, (resolution storage).foldlM Batch.add [] = .ok b ∧ b.request .strict block = request ∧
      (∀ answer, ∃ r, (load storage multicall block).Comes answer r) ∧
      ∀ asked r, (load storage multicall block).Run asked r → ∃ reply, asked = [(request, reply)] ∧
        (∀ err, (b.execute (fun _ => reply) .strict block (List.replicate 7 0)).2 = .error err →
          r = .error (.resolution err)) ∧
        ∀ (stored : Hash → Address) os, reply = .ok os →
          List.Forall₂ (fun ι o => o.Is .address (.address (stored (key ι))))
            (required ++ [Interface.verifier]) os →
          (∀ ι, required.find? (fun ι => stored (key ι) = 0) = some ι →
            r = .error (.notDeployed ι.name)) ∧
          ((∀ ι ∈ required, stored (key ι) ≠ 0) → ∃ ν, r = .ok ν ∧
            ν.storage = ⟨.storage, storage⟩ ∧ ν.multicall = ⟨.multicall, multicall⟩ ∧
            [ν.minipoolManager, ν.bondReducer, ν.oracleDao, ν.memberSettings, ν.minipoolSettings,
              ν.proposalSettings] = required.map (fun ι => ⟨ι, stored (key ι)⟩) ∧
            ∀ κ, ν.protocolVerifier = .ok κ ↔
              stored (key .verifier) ≠ 0 ∧ κ = ⟨.verifier, stored (key .verifier)⟩) := by
  intro required key request
  have built : (resolution storage).foldlM Batch.add [] = .ok (lookups storage resolved) := by
    rw [Batch.foldlM_add, ofReads_resolution]
    rfl
  have one := request_lookups storage resolved block
  refine ⟨_, built, one, fun answer => Program.exists_comes answer _, fun asked r run => ?_⟩
  obtain ⟨reply, asked, rfl⟩ := asked_load storage multicall block run
  refine ⟨reply, asked, ?failed, ?answered⟩
  case failed =>
    intro err failed
    change ((lookups storage resolved).settle .strict reply (List.replicate 7 0)).2 = .error err at failed
    rw [ofReply]
    split
    · next settled => cases (congrArg Prod.snd settled).symm.trans failed
    · next settled =>
      cases (congrArg Prod.snd settled).symm.trans failed
      rfl
  case answered =>
    rintro stored os rfl each
    have comes := ofReply_answered storage multicall (fun ι => stored (key ι)) each
    rw [comes]
    constructor
    · intro ι first
      have first : Network.required.find? (fun ι => stored (key ι) = 0) = some ι := first
      rw [first]
      rfl
    · intro all
      have none : Network.required.find? (fun ι => stored (key ι) = 0) = none :=
        List.find?_eq_none.mpr fun ι m => by simpa using all ι m
      rw [none]
      exact ⟨_, rfl, rfl, rfl, rfl, fun κ => protocolVerifier_eq_ok⟩

/-- A network may lack the verifier but none of the others. -/
theorem load_resolves_one_missing :
    let key (ι : Interface) : Hash := Keccak.hash (Bytes.ofText "contract.address" ++ Bytes.ofText ι.name)
    let stored (missing : Interface) (k : Hash) : Address := if k = key missing then 0 else 7
    let reply (missing : Interface) : Reply :=
      .ok (resolved.map fun ι => ⟨true, Abi.encode [.address (stored missing (key ι))]⟩)
    (∃ ν, (load 1 2 3).Comes (fun _ => reply .verifier) (.ok ν) ∧
      ν.minipoolManager = ⟨.minipoolManager, 7⟩ ∧ ∀ κ, ν.protocolVerifier ≠ .ok κ) ∧
    (load 1 2 3).Comes (fun _ => reply .oracleDao) (.error (.notDeployed "rocketDAONodeTrusted")) := by
  intro key stored reply
  obtain ⟨b, -, -, comes, each⟩ := load_resolves 1 2 3
  have answered (missing : Interface) :
      List.Forall₂ (fun ι (o : Outcome) => o.Is .address (.address (stored missing (key ι)))) resolved
        (resolved.map fun ι => ⟨true, Abi.encode [.address (stored missing (key ι))]⟩) := by
    refine List.forall₂_map_right_iff.mpr (List.forall₂_same.mpr fun ι _ => ⟨rfl, ?_⟩)
    exact Abi.Value.decode_encode_elementary trivial rfl trivial
  have elsewhere {missing ι : Interface} (other : key ι ≠ key missing) : stored missing (key ι) = 7 :=
    if_neg other
  have zero (missing : Interface) : stored missing (key missing) = 0 := if_pos rfl
  constructor
  · have others : ∀ ι ∈ required, key ι ≠ key .verifier := by decide +kernel
    obtain ⟨r, asked, run, now⟩ := comes fun _ => reply .verifier
    obtain ⟨_, rfl, -, ends⟩ := each asked r run
    obtain ⟨-, found⟩ := ends (stored .verifier) _ (now _ (List.mem_singleton_self _)) (answered .verifier)
    have deployed : ∀ ι ∈ required, stored .verifier (key ι) ≠ 0 := by
      intro ι m
      rw [elsewhere (others ι m)]
      decide
    obtain ⟨ν, rfl, -, -, handles, verifier⟩ := found deployed
    obtain ⟨manager, -⟩ := List.cons.inj handles
    refine ⟨ν, ⟨_, run, now⟩, ?_, fun κ h => ((verifier κ).mp h).1 (zero .verifier)⟩
    exact manager.trans (congrArg (Contract.mk .minipoolManager) (elsewhere (others _ List.mem_cons_self)))
  · have earlier : ∀ ι ∈ required.take 2, key ι ≠ key .oracleDao := by decide +kernel
    obtain ⟨r, asked, run, now⟩ := comes fun _ => reply .oracleDao
    obtain ⟨_, rfl, -, ends⟩ := each asked r run
    obtain ⟨missing, -⟩ := ends (stored .oracleDao) _ (now _ (List.mem_singleton_self _)) (answered .oracleDao)
    have first : required.find? (fun ι => stored .oracleDao (key ι) = 0) = some .oracleDao := by
      refine List.find?_eq_some_iff_append.mpr ⟨?_, required.take 2, required.drop 3, rfl, fun ι m => ?_⟩
      · exact decide_eq_true (zero .oracleDao)
      · rw [elsewhere (earlier ι m)]
        rfl
    exact missing _ first ▸ ⟨_, run, now⟩

end Network

end PoolSnapshot
