import PoolSnapshot.Abi.Signature
import PoolSnapshot.Call

/-!
Interfaces, the functions a kind of contract has, and contracts: an interface at an address.
-/
namespace PoolSnapshot

open Abi (Function)

structure Interface where
  name : String
  functions : List Function

structure Contract where
  interface : Interface
  address : Address

inductive ContractError where
  | invalidAbi (contract : String) (fault : Abi.Signature.Fault)
  | notDeployed (contract : String)
  | resolution (source : BatchError)
  deriving DecidableEq

namespace ContractError

def message : ContractError → String
  | invalidAbi c f => s!"invalid ABI for {c}: {f.message}"
  | notDeployed c => s!"contract {c} is not deployed on this network"
  | resolution e => s!"failed to resolve network contract addresses: {e.message}"

end ContractError

namespace Interface

def ofSignatures (name : String) (lines : List String) : Except ContractError Interface :=
  match Abi.Signature.functions lines with
  | .ok fs => .ok ⟨name, fs⟩
  | .error f => .error (.invalidAbi name f)

/-- Sorted by name; functions of one name stay in their order. -/
def listing (ι : Interface) : List Function := ι.functions.mergeSort (·.name ≤ ·.name)

end Interface

namespace Contract

def name (κ : Contract) : String := κ.interface.name

/-- The same interface at another address. -/
def moved (κ : Contract) (a : Address) : Contract := { κ with address := a }

/-- The first function of that name. -/
def function (κ : Contract) (method : String) : Except BatchError Function :=
  match κ.interface.functions.find? (·.name = method) with
  | some f => .ok f
  | none => .error (.unknownMethod κ.name method)

def call (κ : Contract) (f : Function) (args : List Abi.Value) : Except BatchError Call :=
  match f.encodeInput args with
  | some data => .ok ⟨κ.address, data⟩
  | none => .error (.encode f.name "Invalid data")

theorem name_of_function {κ : Contract} {method : String} {f : Function} (h : κ.function method = .ok f) :
    f.name = method := by
  rw [function] at h
  split at h
  · next here =>
    cases h
    simpa using List.find?_some here
  · cases h

theorem target_of_call {κ : Contract} {f : Function} {args : List Abi.Value} {c : Call}
    (h : κ.call f args = .ok c) : c.target = κ.address := by
  rw [call] at h
  split at h <;> cases h
  rfl

end Contract

end PoolSnapshot
