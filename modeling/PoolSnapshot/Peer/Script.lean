import PoolSnapshot.Peer.Answer
import PoolSnapshot.Contract.Catalogue
import PoolSnapshot.Program

/-!
A scripted network: it answers calls by the keys of its script, takes its time over them, breaks
where the script says so, and keeps a log of all round trips.
-/
namespace PoolSnapshot.Peer

open Abi (Function)

/-- A fault hits the round trips that hold a call or have a number; without either, all of them. -/
structure Fault where
  call : Option String := none
  trip : Option Nat := none
  error : Option BatchError := none
  drop : Nat := 0
  extra : Nat := 0

structure Script where
  net : List (String × Answer) := []
  delays : List Nat := []
  faults : List Fault := []
  /-- Failed calls of a strict round trip are handed on; else the round trip reverts. -/
  keepsFailures : Bool := false

structure Entry where
  time : Nat
  allowFailure : Bool
  block : Nat
  calls : List String
  packed : Bytes

namespace Entry

def digest (e : Entry) : Hash := Keccak.hash e.packed

end Entry

structure State where
  trip : Nat := 0
  log : List Entry := []

/-- The functions a call may be of, by selector. -/
def directory : List (Bytes × Function) := Interface.knownFunctions.map fun f => (f.selector, f)

def asked? (c : Call) : Option Asked := do
  let f ← directory.lookup (c.data.take 4)
  match f.decodeInput c.data with
  | .ok args => some ⟨c.target, f, args⟩
  | .error _ => none

namespace Fault

def hits (f : Fault) (trip : Nat) (keys : List String) : Bool :=
  match f.call, f.trip with
  | none, none => true
  | call, n => call.any keys.contains || n = some trip

end Fault

namespace Script

def set (s : Script) (key : String) (a : Answer) : Script :=
  { s with net := (key, a) :: s.net.filter (·.1 ≠ key) }

def unset (s : Script) (key : String) : Script := { s with net := s.net.filter (·.1 ≠ key) }

def outcome (s : Script) (block : Nat) (q : Asked) : Outcome :=
  let a := (q.keys.findSome? fun k => s.net.lookup k).getD .nothing
  let (success, data) := a.resolve q block
  ⟨success, data⟩

def delay (s : Script) (trip : Nat) : Nat := s.delays.getD (trip % s.delays.length) 0

/-- What becomes of the outcomes on their way back. The last fault says how many are lost and added. -/
def reply (s : Script) (trip : Nat) (allowFailure : Bool) (keys : List String)
    (os : List Outcome) : Reply :=
  let hits := s.faults.filter (·.hits trip keys)
  match hits.findSome? (·.error) with
  | some e => .error e
  | none =>
    if !allowFailure && !s.keepsFailures && os.any (!·.success) then
      .error (.reverted "execution reverted")
    else
      let f := hits.getLastD {}
      .ok (os.take (os.length - f.drop) ++ List.replicate f.extra ⟨true, []⟩)

def peer (s : Script) : Clock.Peer State Request Reply := fun now ρ σ =>
  let asked := ρ.calls.map asked?
  let os := asked.map fun q => q.elim ⟨false, []⟩ (s.outcome ρ.block)
  let entry : Entry :=
    { time := now, allowFailure := ρ.allowFailure, block := ρ.block
      calls := asked.map fun q => q.elim "" Asked.text
      packed := ρ.calls.flatMap fun c => c.target.bytes ++ c.data }
  let keys := asked.flatMap fun q => q.elim [] Asked.keys
  ({ trip := σ.trip + 1, log := σ.log ++ [entry] }, s.reply σ.trip ρ.allowFailure keys os,
    s.delay σ.trip)

end Script

end PoolSnapshot.Peer
