import PoolSnapshot.Json
import PoolSnapshot.Survey.Basic

/-!
The settings of the oracle DAO, from three contracts in one request.
-/
namespace PoolSnapshot.OracleDao

open Abi (Readable)

structure SettingsRaw where
  quorum : Word := 0
  rplBond : Word := 0
  unbondedMinipoolMax : Word := 0
  unbondedMinipoolMinFee : Word := 0
  challengeCooldown : Word := 0
  challengeWindow : Word := 0
  challengeCost : Word := 0
  scrubPeriod : Word := 0
  promotionScrubPeriod : Word := 0
  scrubPenaltyEnabled : Bool := false
  bondReductionWindowStart : Word := 0
  bondReductionWindowLength : Word := 0
  proposalCooldownTime : Word := 0
  voteTime : Word := 0
  voteDelayTime : Word := 0
  executeTime : Word := 0
  actionTime : Word := 0
  deriving DecidableEq, Inhabited

structure MemberSettings where
  /-- The fraction of members that a proposal needs. -/
  quorum : Decimal
  rplBond : Word
  unbondedMinipoolMax : Nat
  unbondedMinipoolMinFee : Decimal
  challengeCooldown : Duration
  challengeWindow : Duration
  challengeCost : Word
  deriving DecidableEq

structure MinipoolSettings where
  scrubPeriod : Duration
  promotionScrubPeriod : Duration
  isScrubPenaltyEnabled : Bool
  bondReductionWindowStart : Duration
  bondReductionWindowLength : Duration
  deriving DecidableEq

structure ProposalSettings where
  cooldownTime : Duration
  voteTime : Duration
  voteDelayTime : Duration
  executeTime : Duration
  actionTime : Duration
  deriving DecidableEq

structure Settings where
  members : MemberSettings
  minipools : MinipoolSettings
  proposals : ProposalSettings
  deriving DecidableEq

namespace SettingsRaw

def ask {α : Type} [Readable α] (κ : Contract) (method : String)
    (set : SettingsRaw → α → SettingsRaw) : Read SettingsRaw :=
  .of 0 κ method [] set

def reads (ν : Network) : List (Read SettingsRaw) :=
  [ask ν.memberSettings "getQuorum" fun s v => { s with quorum := v },
    ask ν.memberSettings "getRPLBond" fun s v => { s with rplBond := v },
    ask ν.memberSettings "getMinipoolUnbondedMax" fun s v => { s with unbondedMinipoolMax := v },
    ask ν.memberSettings "getMinipoolUnbondedMinFee" fun s v =>
      { s with unbondedMinipoolMinFee := v },
    ask ν.memberSettings "getChallengeCooldown" fun s v => { s with challengeCooldown := v },
    ask ν.memberSettings "getChallengeWindow" fun s v => { s with challengeWindow := v },
    ask ν.memberSettings "getChallengeCost" fun s v => { s with challengeCost := v },
    ask ν.minipoolSettings "getScrubPeriod" fun s v => { s with scrubPeriod := v },
    ask ν.minipoolSettings "getPromotionScrubPeriod" fun s v => { s with promotionScrubPeriod := v },
    ask ν.minipoolSettings "getScrubPenaltyEnabled" fun s v => { s with scrubPenaltyEnabled := v },
    ask ν.minipoolSettings "getBondReductionWindowStart" fun s v =>
      { s with bondReductionWindowStart := v },
    ask ν.minipoolSettings "getBondReductionWindowLength" fun s v =>
      { s with bondReductionWindowLength := v },
    ask ν.proposalSettings "getCooldownTime" fun s v => { s with proposalCooldownTime := v },
    ask ν.proposalSettings "getVoteTime" fun s v => { s with voteTime := v },
    ask ν.proposalSettings "getVoteDelayTime" fun s v => { s with voteDelayTime := v },
    ask ν.proposalSettings "getExecuteTime" fun s v => { s with executeTime := v },
    ask ν.proposalSettings "getActionTime" fun s v => { s with actionTime := v }]

end SettingsRaw

namespace Settings

variable (source : Address)

def fraction (field : String) (w : Word) : Except SnapshotError Decimal :=
  w.toFraction.mapError (.conversion (.account source) field)

def count (field : String) (w : Word) : Except SnapshotError Nat :=
  w.toU64.mapError (.conversion (.account source) field)

def duration (field : String) (w : Word) : Except SnapshotError Duration :=
  w.toDuration.mapError (.conversion (.account source) field)

def assembleMembers (r : SettingsRaw) : Except SnapshotError MemberSettings :=
  return {
    quorum := ← fraction source "quorum" r.quorum
    rplBond := r.rplBond
    unbondedMinipoolMax := ← count source "unbonded minipool max" r.unbondedMinipoolMax
    unbondedMinipoolMinFee := ← fraction source "unbonded minipool min fee" r.unbondedMinipoolMinFee
    challengeCooldown := ← duration source "challenge cooldown" r.challengeCooldown
    challengeWindow := ← duration source "challenge window" r.challengeWindow
    challengeCost := r.challengeCost }

def assembleMinipools (r : SettingsRaw) : Except SnapshotError MinipoolSettings :=
  return {
    scrubPeriod := ← duration source "scrub period" r.scrubPeriod
    promotionScrubPeriod := ← duration source "promotion scrub period" r.promotionScrubPeriod
    isScrubPenaltyEnabled := r.scrubPenaltyEnabled
    bondReductionWindowStart :=
      ← duration source "bond reduction window start" r.bondReductionWindowStart
    bondReductionWindowLength :=
      ← duration source "bond reduction window length" r.bondReductionWindowLength }

def assembleProposals (r : SettingsRaw) : Except SnapshotError ProposalSettings :=
  return {
    cooldownTime := ← duration source "proposal cooldown time" r.proposalCooldownTime
    voteTime := ← duration source "vote time" r.voteTime
    voteDelayTime := ← duration source "vote delay time" r.voteDelayTime
    executeTime := ← duration source "execute time" r.executeTime
    actionTime := ← duration source "action time" r.actionTime }

def assemble (r : SettingsRaw) : Except SnapshotError Settings :=
  return {
    members := ← assembleMembers source r
    minipools := ← assembleMinipools source r
    proposals := ← assembleProposals source r }

end Settings

def span (d : Duration) : Json := .object [("secs", .nat d.seconds), ("nanos", .nat d.nanos)]

def Settings.toJson (s : Settings) : Json :=
  .object
    [("members", .object
        [("quorum", .text s.members.quorum.text),
          ("rplBond", .text s.members.rplBond.hex),
          ("unbondedMinipoolMax", .nat s.members.unbondedMinipoolMax),
          ("unbondedMinipoolMinFee", .text s.members.unbondedMinipoolMinFee.text),
          ("challengeCooldown", span s.members.challengeCooldown),
          ("challengeWindow", span s.members.challengeWindow),
          ("challengeCost", .text s.members.challengeCost.hex)]),
      ("minipools", .object
        [("scrubPeriod", span s.minipools.scrubPeriod),
          ("promotionScrubPeriod", span s.minipools.promotionScrubPeriod),
          ("isScrubPenaltyEnabled", .bool s.minipools.isScrubPenaltyEnabled),
          ("bondReductionWindowStart", span s.minipools.bondReductionWindowStart),
          ("bondReductionWindowLength", span s.minipools.bondReductionWindowLength)]),
      ("proposals", .object
        [("cooldownTime", span s.proposals.cooldownTime),
          ("voteTime", span s.proposals.voteTime),
          ("voteDelayTime", span s.proposals.voteDelayTime),
          ("executeTime", span s.proposals.executeTime),
          ("actionTime", span s.proposals.actionTime)])]

end PoolSnapshot.OracleDao

namespace PoolSnapshot.Survey

open OracleDao (SettingsRaw)

def odaoSettings (ς : Survey) : Snapshot OracleDao.Settings := do
  let raw ← Program.alone [({} : SettingsRaw)]
    (ς.reader .settings (SettingsRaw.reads ς.network))
  OracleDao.Settings.assemble ς.network.memberSettings.address (raw.headD {})

end PoolSnapshot.Survey
