import PoolSnapshot.Contract.Basic

/-!
The interfaces of the network's contracts, as far as snapshots read them.
-/
namespace PoolSnapshot.Interface

open Abi Abi.Function

def word : Ty := .uint 256

def storage : Interface where
  name := "rocketStorage"
  functions :=
    [view "getAddress" [("key", .fixedBytes 32)] .address,
      view "getUint" [("key", .fixedBytes 32)] word,
      view "getBool" [("key", .fixedBytes 32)] .bool]

def multicall : Interface where
  name := "multicall3"
  functions := [view "getEthBalance" [("addr", .address)] word, view "getBlockNumber" [] word]

def minipoolManager : Interface where
  name := "rocketMinipoolManager"
  functions :=
    [view "getMinipoolCount" [] word,
      view "getMinipoolAt" [("index", word)] .address,
      view "getNodeMinipoolCount" [("nodeAddress", .address)] word,
      view "getNodeMinipoolAt" [("nodeAddress", .address), ("index", word)] .address,
      view "getMinipoolExists" [("minipoolAddress", .address)] .bool,
      view "getMinipoolPubkey" [("minipoolAddress", .address)] .bytes,
      view "getMinipoolWithdrawalCredentials" [("minipoolAddress", .address)] (.fixedBytes 32),
      view "getMinipoolRPLSlashed" [("minipoolAddress", .address)] .bool,
      view "getMinipoolDepositType" [("minipoolAddress", .address)] (.uint 8)]

/-- Every minipool has this interface; only the address differs. -/
def minipool : Interface where
  name := "rocketMinipoolDelegate"
  functions :=
    [view "version" [] (.uint 8),
      view "getStatus" [] (.uint 8),
      view "getStatusBlock" [] word,
      view "getStatusTime" [] word,
      view "getFinalised" [] .bool,
      view "getNodeAddress" [] .address,
      view "getNodeFee" [] word,
      view "getNodeDepositBalance" [] word,
      view "getNodeRefundBalance" [] word,
      view "getNodeDepositAssigned" [] .bool,
      view "getUserDepositBalance" [] word,
      view "getUserDepositAssigned" [] .bool,
      view "getUserDepositAssignedTime" [] word,
      view "getUseLatestDelegate" [] .bool,
      view "getDelegate" [] .address,
      view "getPreviousDelegate" [] .address,
      view "getEffectiveDelegate" [] .address,
      view "getUserDistributed" [] .bool,
      view "getVacant" [] .bool,
      view "getPreMigrationBalance" [] word,
      view "calculateNodeShare" [("balance", word)] word,
      view "calculateUserShare" [("balance", word)] word]

def bondReducer : Interface where
  name := "rocketMinipoolBondReducer"
  functions :=
    [view "getReduceBondTime" [("minipoolAddress", .address)] word,
      view "getReduceBondValue" [("minipoolAddress", .address)] word,
      view "getReduceBondCancelled" [("minipoolAddress", .address)] .bool,
      view "getLastBondReductionTime" [("minipoolAddress", .address)] word,
      view "getLastBondReductionPrevValue" [("minipoolAddress", .address)] word,
      view "getLastBondReductionPrevNodeFee" [("minipoolAddress", .address)] word]

def oracleDao : Interface where
  name := "rocketDAONodeTrusted"
  functions :=
    [view "getMemberCount" [] word,
      view "getMemberAt" [("index", word)] .address,
      view "getMemberIsValid" [("nodeAddress", .address)] .bool,
      view "getMemberID" [("nodeAddress", .address)] .string,
      view "getMemberUrl" [("nodeAddress", .address)] .string,
      view "getMemberJoinedTime" [("nodeAddress", .address)] word,
      view "getMemberLastProposalTime" [("nodeAddress", .address)] word,
      view "getMemberRPLBondAmount" [("nodeAddress", .address)] word,
      view "getMemberReplacedAddress" [("nodeAddress", .address)] .address,
      view "getMemberIsChallenged" [("nodeAddress", .address)] .bool]

def memberSettings : Interface where
  name := "rocketDAONodeTrustedSettingsMembers"
  functions :=
    [view "getQuorum" [] word,
      view "getRPLBond" [] word,
      view "getMinipoolUnbondedMax" [] word,
      view "getMinipoolUnbondedMinFee" [] word,
      view "getChallengeCooldown" [] word,
      view "getChallengeWindow" [] word,
      view "getChallengeCost" [] word]

def minipoolSettings : Interface where
  name := "rocketDAONodeTrustedSettingsMinipool"
  functions :=
    [view "getScrubPeriod" [] word,
      view "getPromotionScrubPeriod" [] word,
      view "getScrubPenaltyEnabled" [] .bool,
      view "getBondReductionWindowStart" [] word,
      view "getBondReductionWindowLength" [] word]

def proposalSettings : Interface where
  name := "rocketDAONodeTrustedSettingsProposals"
  functions :=
    [view "getCooldownTime" [] word,
      view "getVoteTime" [] word,
      view "getVoteDelayTime" [] word,
      view "getExecuteTime" [] word,
      view "getActionTime" [] word]

/-- Missing on older networks. -/
def verifier : Interface where
  name := "rocketDAOProtocolVerifier"
  functions := [view "getChallengeState" [("proposalId", word), ("index", word)] (.uint 8)]

def catalogue : List Interface :=
  [storage, multicall, minipoolManager, minipool, bondReducer, oracleDao, memberSettings,
    minipoolSettings, proposalSettings, verifier]

/-- Every function that a snapshot may call. -/
def knownFunctions : List Function := catalogue.flatMap listing

end PoolSnapshot.Interface
