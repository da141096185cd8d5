import PoolSnapshot.OracleDao.Member
import PoolSnapshot.Proofs.Abi.RoundTrip
import PoolSnapshot.Proofs.OracleDao.Check
import PoolSnapshot.Proofs.Survey.Calls
import PoolSnapshot.Proofs.Survey.Stage
import PoolSnapshot.Proofs.Text.Lossy

/-!
Members of the oracle DAO. Each address is read by its own eight getters, and no chunk and no other
address has a part in it.
-/
namespace PoolSnapshot

open Abi (Value Ty)

theorem Outcome.Is.unique {o : Outcome} (h : o.Is t v) (h' : o.Is t v') : v = v' := by
  have same := h.2.symm.trans h'.2
  injection same with same
  exact List.head_eq_of_cons_eq same

/-- A text comes through in whatever characters, if its length can be written. -/
theorem Outcome.is_text {s : String} (short : (Bytes.ofText s).length < 2 ^ 32) :
    Is ⟨true, Abi.encode [.string s]⟩ .string (.string s) :=
  ⟨rfl, Value.decode_encode_elementary (Text.lossy_ofText s) rfl short⟩

/-- Why a number of seconds is no time. -/
def Word.timeFault (w : Word) : ConversionError :=
  if w.toNat < 2 ^ 63 then .invalidTimestamp w.toNat else .overflow

theorem Word.toTime_eq (w : Word) :
    w.toTime = if w.toNat < Timestamp.latest + 1 then .ok ⟨w.toNat⟩ else .error w.timeFault := by
  rw [toTime, below, Nat.pow_eq, timeFault, Timestamp.latest]
  by_cases fits : w.toNat < 2 ^ 63
  · rw [if_pos fits, if_pos fits]
    change (if w.toNat ≤ 8210266876799 then _ else _) = _
    split <;> split <;> first | rfl | omega
  · rw [if_neg fits, if_neg fits, if_neg (by omega)]
    rfl

namespace OracleDao

def Check.time (field : String) (w : Word) : Check := ⟨field, w, Timestamp.latest + 1, w.timeFault⟩

namespace MemberRaw

variable (r : MemberRaw)

/-- The numbers that have a bound, in the order in which they are looked at. -/
def checks : List Check :=
  [.time "joined time" r.joinedTime, .time "last proposal time" r.lastProposalTime]

def InTime : Prop := r.joinedTime.toNat ≤ 8210266876799 ∧ r.lastProposalTime.toNat ≤ 8210266876799

instance : DecidablePred InTime := fun _ => inferInstanceAs (Decidable (_ ∧ _))

theorem inTime_iff : r.InTime ↔ r.checks.find? Check.Fails = none := by
  simp only [Check.find?_eq_none, checks, List.forall_mem_cons, List.not_mem_nil, false_implies,
    implies_true, and_true]
  exact and_congr Nat.lt_succ_iff.symm Nat.lt_succ_iff.symm

/-- The member, as far as the times are times. -/
def meant : Member where
  address := r.address
  registered := r.registered
  id := r.id
  url := r.url
  joinedTime := ⟨r.joinedTime.toNat⟩
  lastProposalTime := ⟨r.lastProposalTime.toNat⟩
  rplBondAmount := r.rplBondAmount
  replacementAddress := r.replacementAddress
  isChallenged := r.isChallenged

/-- The getters are answered for the record's address with the values of the record. -/
structure Told (f : Call → Outcome) (α : Addresses) (r : MemberRaw) : Prop where
  registered : (f (.to α.oracleDao "getMemberIsValid(address)" [.address r.address])).Is .bool
    (.bool r.registered)
  id : (f (.to α.oracleDao "getMemberID(address)" [.address r.address])).Is .string (.string r.id)
  url : (f (.to α.oracleDao "getMemberUrl(address)" [.address r.address])).Is .string (.string r.url)
  joinedTime : (f (.to α.oracleDao "getMemberJoinedTime(address)" [.address r.address])).Is (.uint 256)
    (.uint r.joinedTime)
  lastProposalTime :
    (f (.to α.oracleDao "getMemberLastProposalTime(address)" [.address r.address])).Is (.uint 256)
      (.uint r.lastProposalTime)
  rplBondAmount :
    (f (.to α.oracleDao "getMemberRPLBondAmount(address)" [.address r.address])).Is (.uint 256)
      (.uint r.rplBondAmount)
  replacementAddress :
    (f (.to α.oracleDao "getMemberReplacedAddress(address)" [.address r.address])).Is .address
      (.address r.replacementAddress)
  isChallenged : (f (.to α.oracleDao "getMemberIsChallenged(address)" [.address r.address])).Is .bool
    (.bool r.isChallenged)

variable (α : Addresses) {f : Call → Outcome} {reason : Request → String} {a : Address} {r}

theorem placed_reads (ν : Network) : Placed (reads ν) := fun _ _ => rfl

theorem apply_reads :
    Read.apply f { address := a } (reads (.ofAddresses α) 0 a) = some r ↔ r.address = a ∧ r.Told f α := by
  rw [reads]
  constructor
  · intro h
    obtain ⟨_, registered, h⟩ :=
      (Read.apply_of (t := .bool) (s := "getMemberIsValid(address)") rfl rfl rfl rfl).mp h
    obtain ⟨_, id, h⟩ :=
      (Read.apply_of (t := .string) (s := "getMemberID(address)") rfl rfl rfl rfl).mp h
    obtain ⟨_, url, h⟩ :=
      (Read.apply_of (t := .string) (s := "getMemberUrl(address)") rfl rfl rfl rfl).mp h
    obtain ⟨_, joined, h⟩ :=
      (Read.apply_of (t := .uint 256) (s := "getMemberJoinedTime(address)") rfl rfl rfl rfl).mp h
    obtain ⟨_, proposed, h⟩ :=
      (Read.apply_of (t := .uint 256) (s := "getMemberLastProposalTime(address)") rfl rfl rfl rfl).mp h
    obtain ⟨_, bond, h⟩ :=
      (Read.apply_of (t := .uint 256) (s := "getMemberRPLBondAmount(address)") rfl rfl rfl rfl).mp h
    obtain ⟨_, replacement, h⟩ :=
      (Read.apply_of (t := .address) (s := "getMemberReplacedAddress(address)") rfl rfl rfl rfl).mp h
    obtain ⟨_, challenged, h⟩ :=
      (Read.apply_of (t := .bool) (s := "getMemberIsChallenged(address)") rfl rfl rfl rfl).mp h
    cases h
    exact ⟨rfl, registered, id, url, joined, proposed, bond, replacement, challenged⟩
  · rintro ⟨rfl, told⟩
    refine Read.apply_cons_of told.registered rfl rfl rfl rfl ?_
    refine Read.apply_cons_of told.id rfl rfl rfl rfl ?_
    refine Read.apply_cons_of told.url rfl rfl rfl rfl ?_
    refine Read.apply_cons_of told.joinedTime rfl rfl rfl rfl ?_
    refine Read.apply_cons_of told.lastProposalTime rfl rfl rfl rfl ?_
    refine Read.apply_cons_of told.rplBondAmount rfl rfl rfl rfl ?_
    refine Read.apply_cons_of told.replacementAddress rfl rfl rfl rfl ?_
    refine Read.apply_cons_of told.isChallenged rfl rfl rfl rfl ?_
    rfl

end MemberRaw

namespace Member

theorem time_eq (a : Address) (field : String) (w : Word) :
    time a field w = Check.behind a [.time field w] ⟨w.toNat⟩ :=
  Check.behind_one (c := .time field w) w.toTime_eq

/-- A member is assembled check by check. -/
theorem assemble_eq (r : MemberRaw) : assemble r = Check.behind r.address r.checks r.meant :=
  Check.behind_append (time_eq _ _ _) <| Check.behind_append (time_eq _ _ _) rfl

theorem assemble_eq_ok {r : MemberRaw} {m : Member} : assemble r = .ok m ↔ r.InTime ∧ m = r.meant := by
  rw [assemble_eq, Check.behind_eq_ok, r.inTime_iff, eq_comm (a := m)]

/-- The member is what the getters of its address say. -/
def Reported (f : Call → Outcome) (α : Addresses) (a : Address) (m : Member) : Prop :=
  ∃ r : MemberRaw, r.address = a ∧ r.Told f α ∧ r.InTime ∧ m = r.meant

end Member

end OracleDao

namespace Survey

open OracleDao (Member MemberRaw Check)

variable {ς : Survey} {α : Addresses} {f : Call → Outcome} {reason : Request → String} {as : List Address}
  (deployed : ς.network = .ofAddresses α)

/-- What the members say of themselves. -/
def memberRecords (ς : Survey) (as : List Address) : Snapshot (List MemberRaw) :=
  ς.inChunks ς.batching.odaoDetails (as.map fun a => ({ address := a } : MemberRaw)) fun _ ms =>
    ς.reader .members (readEach ms fun slot m => MemberRaw.reads ς.network slot m.address)

theorem membersFor_eq (ς : Survey) (as : List Address) :
    ς.membersFor as = ς.memberRecords as >>= fun rs => liftM (rs.mapM Member.assemble) := rfl

theorem toOption_memberRecords : ((ς.memberRecords as).eval (pointwise f reason)).toOption =
    as.mapM fun a => Read.apply f { address := a } (MemberRaw.reads ς.network 0 a) := by
  refine ς.toOption_readers .members (MemberRaw.placed_reads ς.network) fun r _ => ?_
  rw [readEach_map]

include deployed

theorem eval_memberRecords {rs : List MemberRaw} : (ς.memberRecords as).eval (pointwise f reason) = .ok rs ↔
    List.Forall₂ (fun a r => r.address = a ∧ r.Told f α) as rs := by
  rw [← Traverse.toOption_eq_some, toOption_memberRecords, Traverse.mapM_eq_some, deployed]
  simp only [MemberRaw.apply_reads]

/-- Each member is what its address reports. -/
theorem returns_membersFor {ms : List Member} : (ς.membersFor as).Returns (pointwise f reason) ms ↔
    List.Forall₂ (Member.Reported f α) as ms := by
  have each (a : Address) (m : Member) :
      ((Read.apply f { address := a } (MemberRaw.reads ς.network 0 a)).bind fun r =>
        (Member.assemble r).toOption) = some m ↔ Member.Reported f α a m := by
    simp only [Option.bind_eq_some_iff, deployed, MemberRaw.apply_reads, Traverse.toOption_eq_some,
      Member.assemble_eq_ok, Member.Reported, and_assoc]
  rw [Program.returns_iff, membersFor_eq, Program.eval_bind, ← Traverse.toOption_eq_some,
    Traverse.toOption_bind, toOption_memberRecords]
  simp only [Program.eval_lift, Traverse.toOption_mapM, Traverse.mapM_bind_mapM, Traverse.mapM_eq_some, each]

theorem returns_member {m : Member} (reported : Member.Reported f α a m) :
    (ς.member a).Returns (pointwise f reason) m := by
  have one : (ς.membersFor [a]).Returns (pointwise f reason) [m] :=
    (returns_membersFor deployed).mpr (.cons reported .nil)
  refine (Program.returns_iff_of_comes (x := .ok m) fun r => ?_).mpr rfl
  exact (Program.comes_bind_iff one r).trans Program.comes_lift

/-- The first address whose times are no times is the one that is reported. -/
theorem comes_membersFor_late {rs : List MemberRaw} {r : MemberRaw} (told : ∀ r ∈ rs, r.Told f α)
    (found : rs.find? (¬MemberRaw.InTime ·) = some r) :
    ∃ c, r.checks.find? Check.Fails = some c ∧ ∀ res,
      (ς.membersFor (rs.map (·.address))).Comes (pointwise f reason) res ↔
        res = .error (.conversion (.account r.address) c.field c.fault) := by
  have records : (ς.memberRecords (rs.map (·.address))).Returns (pointwise f reason) rs := by
    rw [Program.returns_iff, eval_memberRecords deployed, List.forall₂_map_left_iff, List.forall₂_same]
    exact fun r m => ⟨rfl, told r m⟩
  obtain ⟨late, pre, post, rfl, sooner⟩ := List.find?_eq_some_iff_append.mp found
  have late : ¬r.InTime := of_decide_eq_true late
  obtain ⟨c, first⟩ := Option.ne_none_iff_exists'.mp fun none => late (r.inTime_iff.mpr none)
  have here : Member.assemble r = .error (c.report r.address) := by
    rw [Member.assemble_eq, Check.behind_eq_error first]
  have before : ∀ p ∈ pre, ∃ m, Member.assemble p = .ok m := by
    intro p m
    have inTime : p.InTime := by simpa using sooner p m
    exact ⟨_, Member.assemble_eq_ok.mpr ⟨inTime, rfl⟩⟩
  refine ⟨c, first, fun res => ?_⟩
  rw [membersFor_eq, Program.comes_bind_iff records, Program.comes_lift, Traverse.mapM_eq_error before here]
  rfl

omit deployed

/-- A list of members is there if all getters answer and all times are times, and each member is what the
getters of its own address answer, as if it had been the only one. If only times are amiss, the first address
that has one is reported, with its first. -/
theorem membersFor_told (f : Call → Outcome) (reason : Request → String) (α : Addresses) (β : Batching)
    (block : Nat) (as : List Address) :
    let ς : Survey := ⟨.ofAddresses α, β, block⟩
    let answer := pointwise f reason
    ((∃ ms, (ς.membersFor as).Returns answer ms) ↔
      ∀ a ∈ as, ∃ r : MemberRaw, r.address = a ∧ r.Told f α ∧ r.InTime) ∧
    (∀ ms, (ς.membersFor as).Returns answer ms → ms.length = as.length ∧
      ∀ (i : Nat) a m, as[i]? = some a → ms[i]? = some m →
        (∃ r : MemberRaw, r.address = a ∧ r.Told f α ∧ m = r.meant) ∧ (ς.member a).Returns answer m) ∧
    (∀ r : MemberRaw, r.Told f α → ∀ s, (Bytes.ofText s).length < 2 ^ 32 →
      (f (.to α.oracleDao "getMemberID(address)" [.address r.address]) = ⟨true, Abi.encode [.string s]⟩ →
        r.id = s) ∧
      (f (.to α.oracleDao "getMemberUrl(address)" [.address r.address]) = ⟨true, Abi.encode [.string s]⟩ →
        r.url = s)) ∧
    ∀ rs : List MemberRaw, rs.map (·.address) = as → (∀ r ∈ rs, r.Told f α) →
      ∀ r, rs.find? (¬MemberRaw.InTime ·) = some r →
        ∃ c, r.checks.find? Check.Fails = some c ∧ ∀ res, (ς.membersFor as).Comes answer res ↔
          res = .error (.conversion (.account r.address) c.field c.fault) := by
  intro ς answer
  have returns {ms : List Member} :
      (ς.membersFor as).Returns answer ms ↔ List.Forall₂ (Member.Reported f α) as ms :=
    returns_membersFor rfl
  refine ⟨?some, ?each, ?texts, ?late⟩
  case some =>
    simp only [returns, Traverse.exists_forall₂]
    refine forall₂_congr fun a _ => ?_
    constructor
    · rintro ⟨_, r, here, told, inTime, -⟩
      exact ⟨r, here, told, inTime⟩
    · rintro ⟨r, here, told, inTime⟩
      exact ⟨_, r, here, told, inTime, rfl⟩
  case each =>
    intro ms back
    obtain ⟨length, each⟩ := Traverse.forall₂_iff_getElem?.mp (returns.mp back)
    refine ⟨length, fun i a m here there => ?_⟩
    have reported := each i a m here there
    refine ⟨?_, returns_member rfl reported⟩
    obtain ⟨r, here, told, -, rfl⟩ := reported
    exact ⟨r, here, told, rfl⟩
  case texts =>
    intro r told s short
    have text {o : Outcome} {t : String} (is : o.Is .string (.string t))
        (encoded : o = ⟨true, Abi.encode [.string s]⟩) : t = s := by
      subst encoded
      exact Value.string.inj (is.unique (Outcome.is_text short))
    exact ⟨text told.id, text told.url⟩
  case late =>
    rintro rs rfl told r found
    exact comes_membersFor_late rfl told found

/-- An address that is listed twice is reported twice. -/
theorem membersFor_told_twice :
    let α : Addresses := ⟨1, 2, 3, 4, 5, 6, 7, 8, 9⟩
    let ς : Survey := ⟨.ofAddresses α, { address := 1, odaoDetails := 0 }, 0⟩
    let texts := ["getMemberID(address)", "getMemberUrl(address)"]
    let f (c : Call) : Outcome :=
      ⟨true, if c.data.take 4 ∈ texts.map fun s => (Keccak.digest (Bytes.ofText s)).take 4
        then Abi.encode [.string "Ω"] else Abi.word 1⟩
    ∃ ms, (ς.membersFor [7, 7]).Returns (pointwise f fun _ => "") ms := by
  intro α ς texts f
  have names : ∀ s ∈ texts, Interface.Known s := fun s m =>
    Interface.known_of_mem ((by decide : texts ⊆ Interface.signatures) m)
  have answer {s : String} (known : Interface.Known s) (args : List Value) :
      f (.to α.oracleDao s args) =
        ⟨true, if s ∈ texts then Abi.encode [.string "Ω"] else Abi.word 1⟩ := by
    obtain ⟨F, here, rfl⟩ := known
    have selector : (Call.to α.oracleDao F.signature args).data.take 4 = F.selector :=
      List.take_left' F.length_selector
    have named : F.selector ∈ texts.map (fun s => (Keccak.digest (Bytes.ofText s)).take 4) ↔
        F.signature ∈ texts := by
      refine ⟨fun m => ?_, fun m => List.mem_map_of_mem m⟩
      obtain ⟨s, m, same⟩ := List.mem_map.mp m
      obtain ⟨G, there, rfl⟩ := names s m
      rwa [Interface.selector_inj here there same.symm]
    simp only [f, selector, named]
  have one {t : Ty} {v : Value} {s : String} (decoded : Abi.decode [t] (Abi.word 1) = .ok [v])
      (known : s ∈ Interface.signatures) (other : s ∉ texts) :
      (f (.to α.oracleDao s [.address 7])).Is t v := by
    rw [answer (Interface.known_of_mem known), if_neg other]
    exact ⟨rfl, decoded⟩
  have text {s : String} (m : s ∈ texts) : (f (.to α.oracleDao s [.address 7])).Is .string (.string "Ω") := by
    rw [answer (names s m), if_pos m]
    refine Outcome.is_text ?_
    rw [Bytes.ofText_eq]
    decide
  have flag : Abi.decode [.bool] (Abi.word 1) = .ok [.bool true] :=
    Value.decode_encode_elementary (v := .bool true) trivial rfl trivial
  have word : Abi.decode [.uint 256] (Abi.word 1) = .ok [.uint 1] := rfl
  have account : Abi.decode [.address] (Abi.word 1) = .ok [.address 1] := rfl
  have told : MemberRaw.Told f α ⟨7, true, "Ω", "Ω", 1, 1, 1, 1, true⟩ :=
    { registered := one flag (by decide) (by decide)
      id := text (by decide)
      url := text (by decide)
      joinedTime := one word (by decide) (by decide)
      lastProposalTime := one word (by decide) (by decide)
      rplBondAmount := one word (by decide) (by decide)
      replacementAddress := one account (by decide) (by decide)
      isChallenged := one flag (by decide) (by decide) }
  refine (membersFor_told f (fun _ => "") α { address := 1, odaoDetails := 0 } 0 [7, 7]).1.mpr ?_
  intro a m
  obtain rfl : a = 7 := by simpa using m
  exact ⟨_, rfl, told, by decide⟩

end Survey

end PoolSnapshot
