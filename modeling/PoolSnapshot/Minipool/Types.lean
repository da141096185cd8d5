import PoolSnapshot.Coded
import PoolSnapshot.Hex

/-!
The states of a minipool, the versions of its contract, and the key of its validator.
-/
namespace PoolSnapshot.Minipool

inductive Version where
  | v1
  | v2
  | v3
  deriving DecidableEq, Inhabited

namespace Version

/-- Vacancy, distribution and bond reduction came with the third version. -/
def hasAtlas : Version → Bool
  | v1 | v2 => false
  | v3 => true

end Version

instance : Coded Version where
  all := [.v1, .v2, .v3]
  code
    | .v1 => 1
    | .v2 => 2
    | .v3 => 3
  name
    | .v1 => "V1"
    | .v2 => "V2"
    | .v3 => "V3"
  label
    | .v1 => "V1"
    | .v2 => "V2"
    | .v3 => "V3"

inductive Status where
  | initialized
  | prelaunch
  | staking
  | withdrawable
  | dissolved
  deriving DecidableEq

instance : Coded Status where
  all := [.initialized, .prelaunch, .staking, .withdrawable, .dissolved]
  code
    | .initialized => 0
    | .prelaunch => 1
    | .staking => 2
    | .withdrawable => 3
    | .dissolved => 4
  name
    | .initialized => "initialized"
    | .prelaunch => "prelaunch"
    | .staking => "staking"
    | .withdrawable => "withdrawable"
    | .dissolved => "dissolved"
  label
    | .initialized => "Initialized"
    | .prelaunch => "Prelaunch"
    | .staking => "Staking"
    | .withdrawable => "Withdrawable"
    | .dissolved => "Dissolved"

inductive Deposit where
  | none
  | full
  | half
  | empty
  | variable
  deriving DecidableEq

instance : Coded Deposit where
  all := [.none, .full, .half, .empty, .variable]
  code
    | .none => 0
    | .full => 1
    | .half => 2
    | .empty => 3
    | .variable => 4
  name
    | .none => "none"
    | .full => "full"
    | .half => "half"
    | .empty => "empty"
    | .variable => "variable"
  label
    | .none => "None"
    | .full => "Full"
    | .half => "Half"
    | .empty => "Empty"
    | .variable => "Variable"

structure Pubkey where
  bytes : Bytes
  length_eq : bytes.length = 48
  deriving DecidableEq

namespace Pubkey

def ofBytes? (b : Bytes) : Option Pubkey := if h : b.length = 48 then some ⟨b, h⟩ else Option.none

def text (k : Pubkey) : String := Hex.ofBytes k.bytes

def label (k : Pubkey) : String := s!"ValidatorPubkey({k.text})"

end Pubkey

end PoolSnapshot.Minipool
