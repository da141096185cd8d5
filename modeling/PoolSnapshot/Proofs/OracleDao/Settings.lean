import PoolSnapshot.OracleDao.Settings
import PoolSnapshot.Proofs.Conversion.Scaling
import PoolSnapshot.Proofs.OracleDao.Check
import PoolSnapshot.Proofs.Survey.Calls
import PoolSnapshot.Proofs.Survey.Stage

/-!
The settings of the oracle DAO. Every getter has its own field, no fraction is rounded and no number is
cut; the first number without a meaning is the one reported.
-/
namespace PoolSnapshot

open Abi (Value)

namespace OracleDao

namespace Check

def fraction (field : String) (w : Word) : Check :=
  ⟨field, w, 2 ^ 96, .invalidDecimal "Invalid decimal: overflow from too many digits"⟩

def whole (field : String) (w : Word) : Check := ⟨field, w, 2 ^ 64, .overflow⟩

end Check

namespace SettingsRaw

variable (r : SettingsRaw)

/-- The numbers that have a bound, in the order in which they are looked at. -/
def checks : List Check :=
  [.fraction "quorum" r.quorum,
    .whole "unbonded minipool max" r.unbondedMinipoolMax,
    .fraction "unbonded minipool min fee" r.unbondedMinipoolMinFee,
    .whole "challenge cooldown" r.challengeCooldown,
    .whole "challenge window" r.challengeWindow,
    .whole "scrub period" r.scrubPeriod,
    .whole "promotion scrub period" r.promotionScrubPeriod,
    .whole "bond reduction window start" r.bondReductionWindowStart,
    .whole "bond reduction window length" r.bondReductionWindowLength,
    .whole "proposal cooldown time" r.proposalCooldownTime,
    .whole "vote time" r.voteTime,
    .whole "vote delay time" r.voteDelayTime,
    .whole "execute time" r.executeTime,
    .whole "action time" r.actionTime]

/-- The numbers of seconds. -/
def times : List Word :=
  [r.challengeCooldown, r.challengeWindow, r.scrubPeriod, r.promotionScrubPeriod,
    r.bondReductionWindowStart, r.bondReductionWindowLength, r.proposalCooldownTime, r.voteTime,
    r.voteDelayTime, r.executeTime, r.actionTime]

structure InRange : Prop where
  quorum : r.quorum.toNat < 2 ^ 96
  unbondedMinipoolMinFee : r.unbondedMinipoolMinFee.toNat < 2 ^ 96
  unbondedMinipoolMax : r.unbondedMinipoolMax.toNat < 2 ^ 64
  times : ∀ t ∈ r.times, t.toNat < 2 ^ 64

theorem inRange_iff : r.InRange ↔ r.checks.find? Check.Fails = none := by
  simp only [Check.find?_eq_none, checks, List.forall_mem_cons, List.not_mem_nil, false_implies,
    implies_true, and_true]
  constructor
  · rintro ⟨quorum, fee, most, spans⟩
    simp only [times, List.forall_mem_cons, List.not_mem_nil, false_implies, implies_true, and_true] at spans
    exact ⟨quorum, most, fee, spans⟩
  · rintro ⟨quorum, most, fee, spans⟩
    refine ⟨quorum, fee, most, ?_⟩
    simp only [times, List.forall_mem_cons, List.not_mem_nil, false_implies, implies_true, and_true]
    exact spans

/-- The settings, as far as the numbers are in bounds. -/
def meant : Settings where
  members :=
    { quorum := .ofScaled r.quorum.toNat 18
      rplBond := r.rplBond
      unbondedMinipoolMax := r.unbondedMinipoolMax.toNat
      unbondedMinipoolMinFee := .ofScaled r.unbondedMinipoolMinFee.toNat 18
      challengeCooldown := .ofSeconds r.challengeCooldown.toNat
      challengeWindow := .ofSeconds r.challengeWindow.toNat
      challengeCost := r.challengeCost }
  minipools :=
    { scrubPeriod := .ofSeconds r.scrubPeriod.toNat
      promotionScrubPeriod := .ofSeconds r.promotionScrubPeriod.toNat
      isScrubPenaltyEnabled := r.scrubPenaltyEnabled
      bondReductionWindowStart := .ofSeconds r.bondReductionWindowStart.toNat
      bondReductionWindowLength := .ofSeconds r.bondReductionWindowLength.toNat }
  proposals :=
    { cooldownTime := .ofSeconds r.proposalCooldownTime.toNat
      voteTime := .ofSeconds r.voteTime.toNat
      voteDelayTime := .ofSeconds r.voteDelayTime.toNat
      executeTime := .ofSeconds r.executeTime.toNat
      actionTime := .ofSeconds r.actionTime.toNat }

/-- The getters of the three contracts are answered with the values of the record. -/
structure Told (f : Call → Outcome) (α : Addresses) (r : SettingsRaw) : Prop where
  quorum : (f (.to α.memberSettings "getQuorum()" [])).Is (.uint 256) (.uint r.quorum)
  rplBond : (f (.to α.memberSettings "getRPLBond()" [])).Is (.uint 256) (.uint r.rplBond)
  unbondedMinipoolMax :
    (f (.to α.memberSettings "getMinipoolUnbondedMax()" [])).Is (.uint 256) (.uint r.unbondedMinipoolMax)
  unbondedMinipoolMinFee :
    (f (.to α.memberSettings "getMinipoolUnbondedMinFee()" [])).Is (.uint 256)
      (.uint r.unbondedMinipoolMinFee)
  challengeCooldown :
    (f (.to α.memberSettings "getChallengeCooldown()" [])).Is (.uint 256) (.uint r.challengeCooldown)
  challengeWindow :
    (f (.to α.memberSettings "getChallengeWindow()" [])).Is (.uint 256) (.uint r.challengeWindow)
  challengeCost :
    (f (.to α.memberSettings "getChallengeCost()" [])).Is (.uint 256) (.uint r.challengeCost)
  scrubPeriod : (f (.to α.minipoolSettings "getScrubPeriod()" [])).Is (.uint 256) (.uint r.scrubPeriod)
  promotionScrubPeriod :
    (f (.to α.minipoolSettings "getPromotionScrubPeriod()" [])).Is (.uint 256)
      (.uint r.promotionScrubPeriod)
  scrubPenaltyEnabled :
    (f (.to α.minipoolSettings "getScrubPenaltyEnabled()" [])).Is .bool (.bool r.scrubPenaltyEnabled)
  bondReductionWindowStart :
    (f (.to α.minipoolSettings "getBondReductionWindowStart()" [])).Is (.uint 256)
      (.uint r.bondReductionWindowStart)
  bondReductionWindowLength :
    (f (.to α.minipoolSettings "getBondReductionWindowLength()" [])).Is (.uint 256)
      (.uint r.bondReductionWindowLength)
  proposalCooldownTime :
    (f (.to α.proposalSettings "getCooldownTime()" [])).Is (.uint 256) (.uint r.proposalCooldownTime)
  voteTime : (f (.to α.proposalSettings "getVoteTime()" [])).Is (.uint 256) (.uint r.voteTime)
  voteDelayTime :
    (f (.to α.proposalSettings "getVoteDelayTime()" [])).Is (.uint 256) (.uint r.voteDelayTime)
  executeTime : (f (.to α.proposalSettings "getExecuteTime()" [])).Is (.uint 256) (.uint r.executeTime)
  actionTime : (f (.to α.proposalSettings "getActionTime()" [])).Is (.uint 256) (.uint r.actionTime)

def memberGetters : List String :=
  ["getQuorum()", "getRPLBond()", "getMinipoolUnbondedMax()", "getMinipoolUnbondedMinFee()",
    "getChallengeCooldown()", "getChallengeWindow()", "getChallengeCost()"]

def minipoolGetters : List String :=
  ["getScrubPeriod()", "getPromotionScrubPeriod()", "getScrubPenaltyEnabled()",
    "getBondReductionWindowStart()", "getBondReductionWindowLength()"]

def proposalGetters : List String :=
  ["getCooldownTime()", "getVoteTime()", "getVoteDelayTime()", "getExecuteTime()", "getActionTime()"]

/-- Which contract is asked for what. -/
def getters (α : Addresses) : List (Address × String) :=
  memberGetters.map (α.memberSettings, ·) ++ minipoolGetters.map (α.minipoolSettings, ·) ++
    proposalGetters.map (α.proposalSettings, ·)

def calls (α : Addresses) : List Call := (getters α).map fun (target, s) => .to target s []

variable (α : Addresses) {r : SettingsRaw} {f : Call → Outcome}

theorem calls_reads : List.Forall₂ Read.Calls (reads (.ofAddresses α)) (calls α) := by
  simp only [reads, calls, getters, memberGetters, minipoolGetters, proposalGetters, List.map_cons,
    List.map_nil, List.cons_append, List.nil_append, List.forall₂_cons, List.forall₂_nil_left_iff, and_true]
  and_intros <;> exact Read.calls_of rfl rfl rfl rfl

/-- No two getters have a name in common, wherever the contracts stand. -/
theorem nodup_calls : (calls α).Nodup := by
  have names : (getters α).map (·.2) = memberGetters ++ minipoolGetters ++ proposalGetters := rfl
  have apart : ((getters α).map (·.2)).Nodup := by
    rw [names]
    decide
  have known : ∀ p ∈ getters α, Interface.Known p.2 := by
    intro p m
    have here := List.mem_map_of_mem (f := (·.2)) m
    rw [names] at here
    exact Interface.known_of_mem ((by decide : _ ⊆ Interface.signatures) here)
  refine List.pairwise_map.mpr ((List.pairwise_map.mp apart).imp_of_mem ?_)
  intro p q mp mq differ same
  exact differ (Call.to_inj (known p mp) (known q mq) same).2.1

theorem slot_reads : ∀ ρ ∈ reads (.ofAddresses α), ρ.slot = 0 := by
  simp only [reads, List.forall_mem_cons, List.not_mem_nil, false_implies, implies_true, and_true]
  and_intros <;> rfl

theorem apply_reads (told : r.Told f α) : Read.apply f {} (reads (.ofAddresses α)) = some r := by
  rw [reads]
  refine Read.apply_cons_of told.quorum rfl rfl rfl rfl ?_
  refine Read.apply_cons_of told.rplBond rfl rfl rfl rfl ?_
  refine Read.apply_cons_of told.unbondedMinipoolMax rfl rfl rfl rfl ?_
  refine Read.apply_cons_of told.unbondedMinipoolMinFee rfl rfl rfl rfl ?_
  refine Read.apply_cons_of told.challengeCooldown rfl rfl rfl rfl ?_
  refine Read.apply_cons_of told.challengeWindow rfl rfl rfl rfl ?_
  refine Read.apply_cons_of told.challengeCost rfl rfl rfl rfl ?_
  refine Read.apply_cons_of told.scrubPeriod rfl rfl rfl rfl ?_
  refine Read.apply_cons_of told.promotionScrubPeriod rfl rfl rfl rfl ?_
  refine Read.apply_cons_of told.scrubPenaltyEnabled rfl rfl rfl rfl ?_
  refine Read.apply_cons_of told.bondReductionWindowStart rfl rfl rfl rfl ?_
  refine Read.apply_cons_of told.bondReductionWindowLength rfl rfl rfl rfl ?_
  refine Read.apply_cons_of told.proposalCooldownTime rfl rfl rfl rfl ?_
  refine Read.apply_cons_of told.voteTime rfl rfl rfl rfl ?_
  refine Read.apply_cons_of told.voteDelayTime rfl rfl rfl rfl ?_
  refine Read.apply_cons_of told.executeTime rfl rfl rfl rfl ?_
  refine Read.apply_cons_of told.actionTime rfl rfl rfl rfl ?_
  rfl

end SettingsRaw

namespace Settings

/-- The settings say what the values of the record say. -/
structure Exact (r : SettingsRaw) (s : Settings) : Prop where
  quorum : s.members.quorum.value = r.quorum.toNat / 10 ^ 18
  rplBond : s.members.rplBond = r.rplBond
  unbondedMinipoolMax : s.members.unbondedMinipoolMax = r.unbondedMinipoolMax.toNat
  unbondedMinipoolMinFee : s.members.unbondedMinipoolMinFee.value = r.unbondedMinipoolMinFee.toNat / 10 ^ 18
  challengeCooldown : s.members.challengeCooldown = ⟨r.challengeCooldown.toNat, 0⟩
  challengeWindow : s.members.challengeWindow = ⟨r.challengeWindow.toNat, 0⟩
  challengeCost : s.members.challengeCost = r.challengeCost
  scrubPeriod : s.minipools.scrubPeriod = ⟨r.scrubPeriod.toNat, 0⟩
  promotionScrubPeriod : s.minipools.promotionScrubPeriod = ⟨r.promotionScrubPeriod.toNat, 0⟩
  isScrubPenaltyEnabled : s.minipools.isScrubPenaltyEnabled = r.scrubPenaltyEnabled
  bondReductionWindowStart :
    s.minipools.bondReductionWindowStart = ⟨r.bondReductionWindowStart.toNat, 0⟩
  bondReductionWindowLength :
    s.minipools.bondReductionWindowLength = ⟨r.bondReductionWindowLength.toNat, 0⟩
  cooldownTime : s.proposals.cooldownTime = ⟨r.proposalCooldownTime.toNat, 0⟩
  voteTime : s.proposals.voteTime = ⟨r.voteTime.toNat, 0⟩
  voteDelayTime : s.proposals.voteDelayTime = ⟨r.voteDelayTime.toNat, 0⟩
  executeTime : s.proposals.executeTime = ⟨r.executeTime.toNat, 0⟩
  actionTime : s.proposals.actionTime = ⟨r.actionTime.toNat, 0⟩

theorem exact_meant (r : SettingsRaw) : r.meant.Exact r := by
  constructor <;> first | rfl | exact Decimal.value_ofScaled _ 18

variable {source : Address}

theorem fraction_eq (field : String) (w : Word) :
    fraction source field w = Check.behind source [.fraction field w] (.ofScaled w.toNat 18) :=
  Check.behind_one (c := .fraction field w) rfl

theorem count_eq (field : String) (w : Word) :
    count source field w = Check.behind source [.whole field w] w.toNat :=
  Check.behind_one (c := .whole field w) rfl

theorem duration_eq (field : String) (w : Word) :
    duration source field w = Check.behind source [.whole field w] (.ofSeconds w.toNat) := by
  refine Check.behind_one (c := .whole field w) ?_
  rw [Word.toDuration, Word.toU64, Word.below, Nat.pow_eq]
  change _ = if w.toNat < 2 ^ 64 then _ else _
  split <;> rfl

/-- The settings are assembled check by check. -/
theorem assemble_eq (r : SettingsRaw) : assemble source r = Check.behind source r.checks r.meant := by
  have members : assembleMembers source r = Check.behind source (r.checks.take 5) r.meant.members :=
    Check.behind_append (fraction_eq _ _) <| Check.behind_append (count_eq _ _) <|
      Check.behind_append (fraction_eq _ _) <| Check.behind_append (duration_eq _ _) <|
      Check.behind_append (duration_eq _ _) rfl
  have minipools : assembleMinipools source r =
      Check.behind source ((r.checks.drop 5).take 4) r.meant.minipools :=
    Check.behind_append (duration_eq _ _) <| Check.behind_append (duration_eq _ _) <|
      Check.behind_append (duration_eq _ _) <| Check.behind_append (duration_eq _ _) rfl
  have proposals : assembleProposals source r = Check.behind source (r.checks.drop 9) r.meant.proposals :=
    Check.behind_append (duration_eq _ _) <| Check.behind_append (duration_eq _ _) <|
      Check.behind_append (duration_eq _ _) <| Check.behind_append (duration_eq _ _) <|
      Check.behind_append (duration_eq _ _) rfl
  exact Check.behind_append members <| Check.behind_append minipools <| Check.behind_append proposals rfl

end Settings

end OracleDao

namespace Survey

open OracleDao (SettingsRaw Check)

/-- One record is one request, and what follows asks nothing. -/
theorem asked_alone {ς : Survey} {s : Stage} {x : R} {k : List R → Except SnapshotError α}
    (calls : List.Forall₂ Read.Calls ρs cs) (some : cs ≠ [])
    (run : (Program.alone [x] (ς.reader s ρs) >>= fun rs => liftM (k rs)).Run asked r) :
    asked.map (·.1) = [⟨cs, false, ς.block⟩] := by
  obtain ⟨b, made, rfl⟩ := Read.exists_ofReads calls
  have worker : ς.reader s ρs = b.worker .strict ς.block (.batch s) fun _ rs => rs := by
    rw [reader, Read.worker, Read.workerWith, made]
  obtain ⟨parts, course, rfl⟩ := run.course
  rw [worker] at course
  have full : b ≠ [] := fun none => some (none ▸ rfl)
  obtain ⟨reply, part, rest, rfl, asked, ends⟩ := Program.Course.of_batch_bind full course
  have last : rest = [] := by
    split at ends
    · exact (Program.Course.of_done ends).1
    · exact ends.1
  subst last
  rw [List.flatMap_singleton, asked]
  rfl

variable {ς : Survey} {α : Addresses} {f : Call → Outcome} {reason : Request → String} {r : SettingsRaw}

/-- All that comes of the answers comes of the checks. -/
theorem comes_odaoSettings (deployed : ς.network = .ofAddresses α) (told : r.Told f α) :
    ς.odaoSettings.Comes (pointwise f reason) res ↔
      res = Check.behind α.memberSettings r.checks r.meant := by
  have raw : (Program.alone [({} : SettingsRaw)]
      (ς.reader .settings (SettingsRaw.reads ς.network))).Returns (pointwise f reason) [r] := by
    rw [Program.returns_iff, ← Traverse.toOption_eq_some, deployed,
      toOption_alone ς .settings (SettingsRaw.slot_reads α), SettingsRaw.apply_reads α told]
    rfl
  have source : ς.network.memberSettings.address = α.memberSettings := by
    rw [deployed]
    rfl
  rw [odaoSettings, Program.comes_bind_iff raw, source, ← OracleDao.Settings.assemble_eq]
  exact Program.comes_lift

/-- One strict request reads each getter once. Each setting is what its getter answered, whole and unrounded,
if all numbers are in range; else the first that is not is reported. -/
theorem odaoSettings_exact (f : Call → Outcome) (reason : Request → String) (α : Addresses) (β : Batching)
    (block : Nat) (r : SettingsRaw) (told : r.Told f α) :
    let settings := (⟨.ofAddresses α, β, block⟩ : Survey).odaoSettings
    let answer := pointwise f reason
    (SettingsRaw.calls α).length = 17 ∧ (SettingsRaw.calls α).Nodup ∧
    (∀ asked res, settings.Run asked res → asked.map (·.1) = [⟨SettingsRaw.calls α, false, block⟩]) ∧
    ((∃ s, settings.Returns answer s) ↔ r.InRange) ∧ (∀ s, settings.Returns answer s → s.Exact r) ∧
    (¬r.InRange → ∃ c, r.checks.find? Check.Fails = some c ∧
      ∀ res, settings.Comes answer res ↔ res = .error (.conversion (.account α.memberSettings) c.field c.fault)) := by
  intro settings answer
  have comes {res} : settings.Comes answer res ↔ res = Check.behind α.memberSettings r.checks r.meant :=
    comes_odaoSettings rfl told
  have returns (s : OracleDao.Settings) :
      settings.Returns answer s ↔ Check.behind α.memberSettings r.checks r.meant = .ok s :=
    Program.returns_iff_of_comes fun _ => comes
  refine ⟨rfl, SettingsRaw.nodup_calls α, ?requests, ?inRange, ?exact, ?first⟩
  case requests =>
    exact fun asked res run => asked_alone (SettingsRaw.calls_reads α) (List.cons_ne_nil _ _) run
  case inRange =>
    simp only [returns, Check.behind_eq_ok, SettingsRaw.inRange_iff, exists_and_left, exists_eq', and_true]
  case exact =>
    intro s back
    obtain ⟨-, rfl⟩ := Check.behind_eq_ok.mp ((returns s).mp back)
    exact OracleDao.Settings.exact_meant r
  case first =>
    intro out
    rw [SettingsRaw.inRange_iff] at out
    obtain ⟨c, found⟩ := Option.ne_none_iff_exists'.mp out
    refine ⟨c, found, fun res => ?_⟩
    rw [comes, Check.behind_eq_error found]
    rfl

/-- The member settings are all one number, and the count is the first that it is too large for. -/
theorem odaoSettings_exact_alike :
    let α : Addresses := ⟨1, 2, 3, 4, 5, 6, 7, 8, 9⟩
    let settings := (⟨.ofAddresses α, { address := 1 }, 0⟩ : Survey).odaoSettings
    let answer (n : Word) := pointwise
      (fun c => ⟨true, Abi.encode [.uint (if c.target = α.memberSettings then n else 1)]⟩) fun _ => ""
    (∃ s, settings.Returns (answer 7) s) ∧
      ∀ res, settings.Comes (answer 0x10000000000000000) res ↔
        res = .error (.conversion (.account α.memberSettings) "unbonded minipool max" .overflow) := by
  intro α settings answer
  let f (n : Word) (c : Call) : Outcome :=
    ⟨true, Abi.encode [.uint (if c.target = α.memberSettings then n else 1)]⟩
  let r (n : Word) : SettingsRaw := ⟨n, n, n, n, n, n, n, 1, 1, true, 1, 1, 1, 1, 1, 1, 1⟩
  have told (n : Word) : (r n).Told (f n) α := by
    have same : Abi.encode [.uint 1] = Abi.encode [.bool true] := by decide
    have one : Outcome.Is ⟨true, Abi.encode [.uint 1]⟩ .bool (.bool true) :=
      ⟨rfl, same ▸ Value.decode_encode_elementary (v := .bool true) trivial rfl trivial⟩
    have words (w : Word) : Outcome.Is ⟨true, Abi.encode [.uint w]⟩ (.uint 256) (.uint w) :=
      ⟨rfl, Value.decode_encode_elementary trivial rfl trivial⟩
    constructor <;> first | exact words _ | exact one
  have whole := odaoSettings_exact (f 7) (fun _ => "") α { address := 1 } 0 (r 7) (told 7)
  have cut := odaoSettings_exact (f 0x10000000000000000) (fun _ => "") α { address := 1 } 0 _ (told _)
  have inside : (r 7).InRange := ⟨by decide, by decide, by decide, by simp [SettingsRaw.times, r]⟩
  have first (n : Word) (fits : n.toNat < 2 ^ 96) (large : 2 ^ 64 ≤ n.toNat) :
      (r n).checks.find? Check.Fails = some (.whole "unbonded minipool max" n) := by
    have passes : ¬(Check.fraction "quorum" n).Fails := Nat.not_le.mpr fits
    have fails : (Check.whole "unbonded minipool max" n).Fails := large
    rw [SettingsRaw.checks, List.find?_cons_of_neg (by simpa using passes)]
    exact List.find?_cons_of_pos (decide_eq_true fails)
  have out : ¬(r 0x10000000000000000).InRange := fun inside =>
    absurd inside.unbondedMinipoolMax (by decide)
  refine ⟨whole.2.2.2.1.mpr inside, ?_⟩
  obtain ⟨c, found, comes⟩ := cut.2.2.2.2.2 out
  cases (first _ (by decide) (by decide)).symm.trans found
  exact comes

end Survey

end PoolSnapshot
