import PoolSnapshot.Json
import PoolSnapshot.Survey.Enumeration

/-!
Members of the oracle DAO.
-/
namespace PoolSnapshot.OracleDao

open Abi (Readable)

structure MemberRaw where
  address : Address
  registered : Bool := false
  id : String := ""
  url : String := ""
  joinedTime : Word := 0
  lastProposalTime : Word := 0
  rplBondAmount : Word := 0
  replacementAddress : Address := 0
  isChallenged : Bool := false
  deriving DecidableEq, Inhabited

structure Member where
  address : Address
  registered : Bool
  id : String
  url : String
  joinedTime : Timestamp
  lastProposalTime : Timestamp
  rplBondAmount : Word
  replacementAddress : Address
  isChallenged : Bool
  deriving DecidableEq

namespace MemberRaw

variable (ν : Network) (slot : Nat) (a : Address)

def ask {α : Type} [Readable α] (method : String) (set : MemberRaw → α → MemberRaw) :
    Read MemberRaw :=
  .of slot ν.oracleDao method [.address a] set

def reads : List (Read MemberRaw) :=
  [ask ν slot a "getMemberIsValid" fun m v => { m with registered := v },
    ask ν slot a "getMemberID" fun m v => { m with id := v },
    ask ν slot a "getMemberUrl" fun m v => { m with url := v },
    ask ν slot a "getMemberJoinedTime" fun m v => { m with joinedTime := v },
    ask ν slot a "getMemberLastProposalTime" fun m v => { m with lastProposalTime := v },
    ask ν slot a "getMemberRPLBondAmount" fun m v => { m with rplBondAmount := v },
    ask ν slot a "getMemberReplacedAddress" fun m v => { m with replacementAddress := v },
    ask ν slot a "getMemberIsChallenged" fun m v => { m with isChallenged := v }]

end MemberRaw

namespace Member

def time (a : Address) (field : String) (w : Word) : Except SnapshotError Timestamp :=
  w.toTime.mapError (.conversion (.account a) field)

def assemble (r : MemberRaw) : Except SnapshotError Member := do
  let joinedTime ← time r.address "joined time" r.joinedTime
  let lastProposalTime ← time r.address "last proposal time" r.lastProposalTime
  return {
    address := r.address
    registered := r.registered
    id := r.id
    url := r.url
    joinedTime
    lastProposalTime
    rplBondAmount := r.rplBondAmount
    replacementAddress := r.replacementAddress
    isChallenged := r.isChallenged }

def assembleAll (rs : List MemberRaw) : Except SnapshotError (List Member) := rs.mapM assemble

def toJson (m : Member) : Json :=
  .object
    [("address", .text m.address.text),
      ("exists", .bool m.registered),
      ("id", .text m.id),
      ("url", .text m.url),
      ("joinedTime", .text m.joinedTime.text),
      ("lastProposalTime", .text m.lastProposalTime.text),
      ("rplBondAmount", .text m.rplBondAmount.hex),
      ("replacementAddress", .text m.replacementAddress.text),
      ("isChallenged", .bool m.isChallenged)]

end Member

end PoolSnapshot.OracleDao

namespace PoolSnapshot.Survey

open OracleDao (Member MemberRaw)

def membersFor (ς : Survey) (addresses : List Address) : Snapshot (List Member) := do
  let raw ← ς.inChunks ς.batching.odaoDetails
    (addresses.map fun a => ({ address := a } : MemberRaw)) fun _ ms =>
    ς.reader .members (readEach ms fun slot m => MemberRaw.reads ς.network slot m.address)
  Member.assembleAll raw

def member (ς : Survey) (a : Address) : Snapshot Member := do
  match (← ς.membersFor [a]).getLast? with
  | some m => return m
  | none => .done (.error (.lengthMismatch "oracle DAO member snapshots" 1 0))

def members (ς : Survey) : Snapshot (List Member) := do
  ς.membersFor (← ς.addresses .oracleDaoMembers)

end PoolSnapshot.Survey
