import PoolSnapshot.Abi.Encode
import PoolSnapshot.Abi.Decode
import PoolSnapshot.Keccak

/-!
Functions of a contract: what they are called with and what they answer. A call starts with the four
bytes that the name and the argument types hash to.
-/
namespace PoolSnapshot.Abi

inductive Mutability where
  | pure
  | view
  | nonpayable
  | payable
  deriving DecidableEq

structure Function where
  name : String
  inputs : List (String × Ty)
  outputs : List Ty
  mutability : Mutability

namespace Function

/-- A read: one answer, nothing changed. -/
def view (name : String) (inputs : List (String × Ty)) (output : Ty) : Function :=
  ⟨name, inputs, [output], .view⟩

def inputTypes (f : Function) : List Ty := f.inputs.map (·.2)

def signature (f : Function) : String :=
  f.name ++ "(" ++ ",".intercalate (Ty.texts f.inputTypes) ++ ")"

def selector (f : Function) : Bytes := (Keccak.digest (Bytes.ofText f.signature)).take 4

@[simp] theorem length_selector (f : Function) : f.selector.length = 4 := by simp [selector]

def encodeInput (f : Function) (args : List Value) : Option Bytes :=
  if Value.eachFits args f.inputTypes then some (f.selector ++ encode args) else none

def decodeInput (f : Function) (data : Bytes) : Except DecodeError (List Value) :=
  decode f.inputTypes (data.drop 4)

def decodeOutput (f : Function) (data : Bytes) : Except DecodeError (List Value) :=
  decode f.outputs data

end Function

end PoolSnapshot.Abi
