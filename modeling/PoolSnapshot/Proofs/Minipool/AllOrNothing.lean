import PoolSnapshot.Proofs.Minipool.Told
import PoolSnapshot.Proofs.Survey.Enumerated

/-!
All or nothing, over a whole snapshot: of every minipool, of those of a node, or of a list. Each stage that
asked gives a verdict on the outcome, and after one that failed there is no record and no further stage.
-/
namespace PoolSnapshot

open Minipool (Raw Shares Details)

/-- Which minipools a snapshot is of. -/
inductive Selection where
  | all
  | ofNode (node : Address)
  | listed (addresses : List Address)

namespace Selection

def snapshot (ς : Survey) : Selection → Snapshot (List Details)
  | all => ς.allMinipools
  | ofNode a => ς.nodeMinipools a
  | listed as => ς.minipoolsFor as

def stages : Selection → List Stage
  | all | ofNode _ => [.count, .addresses, .versions, .details, .shares]
  | listed _ => [.versions, .details, .shares]

end Selection

namespace Survey

/-- How the replies to a stage bear on the outcome. `last` says that nothing was asked after it. A reply
that no worker took in was overtaken by a failure. -/
structure Verdict (ς : Survey) (s : Stage) (part : Part Request Reply) (last : Prop)
    (r : Except SnapshotError (List Details)) : Prop where
  fails : ∀ x ∈ part.asked, ∃ κ : ς.Query s x.1,
    (¬κ.Accepts x.2 → last ∧ ∃ e, r = .error e ∧
      (x ∈ part.heard → ∃ err, κ.Refuses x.2 err ∧ e = .batch s err) ∧
      (s ≠ .shares → ∃ err, e = .batch s err)) ∧
    (κ.Improper x.2 → (∃ e, r = .error e) ∧ (s ≠ .details → last))
  blames : ∀ err, r = .error (.batch s err) →
    last ∧ ∃ x ∈ part.heard, ∃ κ : ς.Query s x.1, κ.Refuses x.2 err

/-- A verdict for every stage that asked, from the first one on. -/
inductive Verdicts (ς : Survey) (r : Except SnapshotError (List Details)) :
    List Stage → List (Part Request Reply) → Prop
  | nil : Verdicts ς r stages []
  | cons (v : Verdict ς s part (parts = []) r) (rest : Verdicts ς r stages parts) :
      Verdicts ς r (s :: stages) (part :: parts)

section

variable {R : Type} {ς : Survey} {s : Stage} {F : R → Prop}
  {τs : List (Task Request Reply SnapshotError R)} {part : Part Request Reply} {last : Prop}

theorem Verdict.stop (here : last) (round : Round τs part (.error e)) (told : Tells ς s F τs) :
    Verdict ς s part last (.error e) := by
  obtain ⟨answered, source⟩ := round.refused told
  constructor
  · intro x m
    obtain ⟨κ, taken⟩ := answered x m
    refine ⟨κ, fun no => ⟨here, e, rfl, ?_, ?_⟩, fun _ => ⟨⟨e, rfl⟩, fun _ => here⟩⟩
    · exact fun n => (taken n).resolve_left no
    · intro ne
      rcases source with ⟨err, rfl, -⟩ | ⟨shares, -⟩
      · exact ⟨err, rfl⟩
      · exact absurd shares ne
  · rintro err ⟨⟩
    rcases source with ⟨_, ⟨⟩, x, m, refused⟩ | ⟨-, other⟩
    · exact ⟨here, x, m, refused⟩
    · exact absurd rfl (other s err)

theorem Verdict.next {r : Except SnapshotError (List Details)} (round : Round τs part (.ok out))
    (told : Tells ς s F τs) (other : ∀ err, r ≠ .error (.batch s err))
    (flawed : ∀ y ∈ out, F y → (∃ e, r = .error e) ∧ (s ≠ .details → last)) :
    Verdict ς s part last r := by
  constructor
  · intro x m
    obtain ⟨κ, accepts, shows⟩ := round.accepted told x m
    refine ⟨κ, fun no => absurd accepts no, ?_⟩
    intro im
    obtain ⟨y, n, bad⟩ := shows im
    exact flawed y n bad
  · exact fun err h => absurd h (other err)

/-- A stage that fails blames itself or nobody. -/
theorem stage_of_error (round : Round τs part (.error e)) (told : Tells ς s F τs)
    (h : e = .batch s' err) : s' = s := by
  rcases (round.refused told).2 with ⟨_, rfl, -⟩ | ⟨-, other⟩
  · cases h
    rfl
  · exact absurd h (other s' err)

end

theorem count_lt {ς : Survey}
    (c : (Program.alone [0] (ς.reader .count [κ.countRead ς.network])).Course parts (.ok ws))
    (h : countOf κ ws = .ok n) : ∀ w ∈ ws, ¬2 ^ 64 ≤ w.toNat := by
  obtain ⟨part, rfl, round⟩ := Program.Course.of_together c
  obtain ⟨heard, due, g⟩ := round.of_single
  obtain ⟨b, es, flags, -, -, p⟩ := Read.finished_worker g
  obtain ⟨w, rfl⟩ := List.length_eq_one_iff.mp p.length_eq
  have small := (Minipool.below_eq_ok.mp (Traverse.mapError_eq_ok.mp h)).2
  exact List.forall_mem_singleton.mpr (Nat.not_le_of_lt small)

variable {ς : Survey} {α : Addresses} (deployed : ς.network = .ofAddresses α)
  {r : Except SnapshotError (List Details)} {as : List Address}

include deployed

theorem Stages.verdicts (h : ς.Stages as parts r) :
    Verdicts ς r [.versions, .details, .shares] parts ∧ (∀ ds, r = .ok ds → parts.length = 3) ∧
      ∀ s err, r = .error (.batch s err) → s ∈ [Stage.versions, .details, .shares] := by
  have versions := tells_versions deployed as
  have details := tells_details deployed
  have shares := tells_shares deployed
  cases h with
  | versions v =>
    obtain ⟨_, ⟨⟩, first⟩ := Program.Course.of_together v
    refine ⟨.cons (.stop rfl first versions) .nil, nofun, ?_⟩
    rintro s err ⟨⟩
    rw [stage_of_error first versions rfl]
    decide
  | @start _ ws e v h =>
    obtain ⟨_, ⟨⟩, first⟩ := Program.Course.of_together v
    have other : Blameless (.error e : Except SnapshotError (List Details)) :=
      (blameless_startRecords as ws).of_error h
    refine ⟨.cons (.next first versions (other.ne _) fun _ _ _ => ⟨⟨_, rfl⟩, fun _ => rfl⟩) .nil, nofun, ?_⟩
    exact fun s err failed => absurd failed (other.ne s err)
  | details v h d =>
    obtain ⟨_, ⟨⟩, first⟩ := Program.Course.of_together v
    obtain ⟨_, ⟨⟩, second⟩ := Program.Course.of_together d
    have good := supported_of_start v h
    refine ⟨.cons (.next first versions ?_ fun w m bad => absurd (good w m) bad)
      (.cons (.stop rfl second (details _)) .nil), nofun, ?_⟩
    · rintro err ⟨⟩
      cases stage_of_error second (details _) rfl
    · rintro s err ⟨⟩
      rw [stage_of_error second (details _) rfl]
      decide
  | shares v h d s =>
    obtain ⟨_, ⟨⟩, first⟩ := Program.Course.of_together v
    obtain ⟨_, ⟨⟩, second⟩ := Program.Course.of_together d
    obtain ⟨_, ⟨⟩, third⟩ := Program.Course.of_together s
    have good := supported_of_start v h
    refine ⟨.cons (.next first versions ?_ fun w m bad => absurd (good w m) bad)
      (.cons (.next second (details _) ?_ fun _ _ _ => ⟨⟨_, rfl⟩, fun ne => absurd rfl ne⟩)
      (.cons (.stop rfl third (shares _)) .nil)), nofun, ?_⟩
    · rintro err ⟨⟩
      cases stage_of_error third (shares _) rfl
    · rintro err ⟨⟩
      cases stage_of_error third (shares _) rfl
    · rintro s err ⟨⟩
      rw [stage_of_error third (shares _) rfl]
      decide
  | @all _ ws raw _ raws _ ss v h d s =>
    obtain ⟨_, ⟨⟩, first⟩ := Program.Course.of_together v
    obtain ⟨_, ⟨⟩, second⟩ := Program.Course.of_together d
    obtain ⟨_, ⟨⟩, third⟩ := Program.Course.of_together s
    have other := Details.blameless_assembleAll raws ss
    have good := supported_of_start v h
    refine ⟨.cons (.next first versions (other.ne _) fun w m bad => absurd (good w m) bad)
      (.cons (.next second (details _) (other.ne _) ?_)
      (.cons (.next third (shares _) (other.ne _) nofun) .nil)), fun _ _ => rfl, ?_⟩
    · intro y m bad
      refine ⟨?_, fun ne => absurd rfl ne⟩
      cases all : Details.assembleAll raws ss with
      | error e => exact ⟨e, rfl⟩
      | ok ds => exact absurd (proper_of_finish s all y m) bad
    · exact fun s err failed => absurd failed (other.ne s err)

theorem verdicts_of_course (h : (ς.minipoolsFor as).Course parts r) :
    Verdicts ς r [.versions, .details, .shares] parts ∧ ∀ ds, r = .ok ds → parts.length = 3 := by
  obtain ⟨verdicts, all, -⟩ := (stages_of_course h).verdicts deployed
  exact ⟨verdicts, all⟩

theorem verdicts_of_listing {κ : Collection} (course : (ς.addresses κ >>= ς.minipoolsFor).Course parts r) :
    Verdicts ς r [.count, .addresses, .versions, .details, .shares] parts ∧
      ∀ ds, r = .ok ds → parts.length = 5 := by
  have counts := tells_count deployed κ
  have lists := tells_addresses deployed κ
  rcases Program.Course.of_bind course with ⟨as, parts₁, parts₂, rfl, first, rest⟩ | ⟨e, first, rfl⟩
  · obtain ⟨verdicts, all, own⟩ := (stages_of_course rest).verdicts deployed
    have other (s : Stage) (no : s ∉ [Stage.versions, .details, .shares]) (err : BatchError) :
        r ≠ .error (.batch s err) := fun failed => no (own s err failed)
    generalize listed : Except.ok as = r' at first
    cases listing_of_course first with
    | count | convert | noRoom => cases listed
    | listed c h l =>
      cases listed
      obtain ⟨_, ⟨⟩, counted⟩ := Program.Course.of_together c
      obtain ⟨_, ⟨⟩, found⟩ := Program.Course.of_together l
      refine ⟨.cons (.next counted counts (other _ (by decide)) ?_)
        (.cons (.next found (lists _) (other _ (by decide)) nofun) verdicts), ?_⟩
      · exact fun w m large => absurd large (count_lt c h w m)
      · exact fun ds ok => congrArg (· + 2) (all ds ok)
  · refine ⟨?_, nofun⟩
    generalize failed : Except.error e = r' at first
    cases listing_of_course first with
    | count c =>
      cases failed
      obtain ⟨_, ⟨⟩, counted⟩ := Program.Course.of_together c
      exact .cons (.stop rfl counted counts) .nil
    | @convert _ ws _ c h =>
      cases failed
      obtain ⟨_, ⟨⟩, counted⟩ := Program.Course.of_together c
      have other : Blameless (.error e : Except SnapshotError (List Details)) :=
        (blameless_countOf κ ws).of_error h
      exact .cons (.next counted counts (other.ne _) fun _ _ _ => ⟨⟨_, rfl⟩, fun _ => rfl⟩) .nil
    | noRoom c h =>
      cases failed
      obtain ⟨_, ⟨⟩, counted⟩ := Program.Course.of_together c
      exact .cons (.next counted counts nofun fun _ _ _ => ⟨⟨_, rfl⟩, fun _ => rfl⟩) .nil
    | listed c h l =>
      cases failed
      obtain ⟨_, ⟨⟩, counted⟩ := Program.Course.of_together c
      obtain ⟨_, ⟨⟩, found⟩ := Program.Course.of_together l
      refine .cons (.next counted counts ?_ ?_) (.cons (.stop rfl found (lists _)) .nil)
      · rintro err ⟨⟩
        cases stage_of_error found (lists _) rfl
      · exact fun w m large => absurd large (count_lt c h w m)

end Survey

namespace Selection

/-- A snapshot goes from stage to stage, and each stage decides over it as a whole. -/
theorem all_or_nothing (α : Addresses) (β : Batching) (block : Nat) (σ : Selection)
    (h : (σ.snapshot ⟨.ofAddresses α, β, block⟩).Run asked r) :
    let ς : Survey := ⟨.ofAddresses α, β, block⟩
    ∃ parts, (σ.snapshot ς).Course parts r ∧ parts.flatMap Part.asked = asked ∧
      ς.Verdicts r σ.stages parts ∧ ∀ ds, r = .ok ds → parts.length = σ.stages.length := by
  intro ς
  obtain ⟨parts, course, all⟩ := h.course
  refine ⟨parts, course, all, ?_⟩
  cases σ with
  | all => exact Survey.verdicts_of_listing rfl course
  | ofNode a => exact Survey.verdicts_of_listing rfl course
  | listed as => exact Survey.verdicts_of_course rfl course

/-- Every call fails: the minipool counts as old, and its details are refused. -/
theorem all_or_nothing_reverted :
    let ς : Survey := ⟨.ofAddresses ⟨1, 2, 3, 4, 5, 6, 7, 8, 9⟩, {}, 0⟩
    ∃ asked e parts, (ς.minipoolsFor [10]).Run asked (.error e) ∧ parts.flatMap Part.asked = asked ∧
      ς.Verdicts (.error e) [.versions, .details, .shares] parts := by
  intro ς
  let f (_ : Call) : Outcome := ⟨false, []⟩
  have none : Minipool.snapshot ς.network f 10 = none := by subst ς f; rfl
  have no : ¬∃ ds, (ς.minipoolsFor [10]).Returns (pointwise f fun _ => "") ds := by
    rintro ⟨ds, returns⟩
    cases (Survey.minipoolsFor_returns_iff ς [10] ds).mp returns with
    | cons some _ => cases none.symm.trans some
  obtain ⟨r, comes⟩ := Program.exists_comes (pointwise f fun _ => "") (ς.minipoolsFor [10])
  obtain ⟨e, rfl⟩ := comes.fails no
  obtain ⟨asked, run, -⟩ := comes
  obtain ⟨parts, -, all, verdicts, -⟩ :=
    all_or_nothing ⟨1, 2, 3, 4, 5, 6, 7, 8, 9⟩ {} 0 (.listed [10]) run
  exact ⟨asked, e, parts, run, all, verdicts⟩

end Selection

end PoolSnapshot
