import PoolSnapshot.Proofs.Minipool.Topics

/-!
Old minipools are left alone. Reads that came with the third version are made of a minipool only if its
probe was answered with that version, so what a node would answer to them for another minipool has no
say in a snapshot.
-/
namespace PoolSnapshot

open Minipool (Raw Shares Details answered probeRequest atlasCalls detailCalls)

/-- The reply answers the probe of `a` with `w`. -/
def Probes (x : Request × Reply) (a : Address) (w : Word) : Prop :=
  ∃ (os : List Outcome) (i : Nat) (o : Outcome), x.2 = .ok os ∧
    x.1.calls[i]? = some (.to a "version()" []) ∧ os[i]? = some o ∧ w = answered o

namespace Probes

variable {x : Request × Reply} {a : Address} {w : Word}

theorem exists_on (h : Probes x a w) : ∃ c ∈ x.1.calls, c.On .version := by
  obtain ⟨_, i, _, -, here, -⟩ := h
  exact ⟨_, List.mem_of_getElem? here, _, List.mem_singleton_self _, a, [], rfl⟩

theorem probeRequest_iff {as : List Address} {os : List Outcome} :
    Probes (probeRequest block as, .ok os) a w ↔
      ∃ (i : Nat) (o : Outcome), as[i]? = some a ∧ os[i]? = some o ∧ w = answered o := by
  constructor
  · rintro ⟨_, i, o, ⟨⟩, here, outcome, rfl⟩
    simp only [probeRequest, List.getElem?_map, Option.map_eq_some_iff] at here
    obtain ⟨b, here, same⟩ := here
    cases congrArg Call.target same
    exact ⟨i, o, here, outcome, rfl⟩
  · rintro ⟨i, o, here, outcome, rfl⟩
    refine ⟨os, i, o, rfl, ?_, outcome, rfl⟩
    simp only [probeRequest, List.getElem?_map, here, Option.map_some]

theorem of_pointwise {f : Call → Outcome} (h : Probes x a w) (reply : x.2 = pointwise f reason x.1) :
    w = answered (f (.to a "version()" [])) := by
  obtain ⟨os, i, o, all, here, outcome, rfl⟩ := h
  rw [all, pointwise] at reply
  split at reply
  · cases reply
    rw [List.getElem?_map, here] at outcome
    cases outcome
    rfl
  · cases reply

end Probes

namespace Minipool

theorem supported_iff {a : Address} {w : Word} {ω : Version} (h : supported a w = .ok ω) :
    ω = .v3 ↔ w = 3 := by
  have code : Coded.code ω = w.toNat := by
    rw [supported] at h
    split at h
    · next c =>
      cases h
      exact code_of_ofCode? c
    · cases h
  constructor
  · rintro rfl
    exact BitVec.eq_of_toNat_eq code.symm
  · rintro rfl
    cases ω
    · cases code
    · cases code
    · rfl

end Minipool

namespace Survey

variable {ς : Survey} {as : List Address} {os : List Outcome} {raw raws : List Raw}
  {p : Part Request Reply} {first rest : List (Request × Reply)}

/-- The probes went through, and the records to be read were started from their outcomes. -/
structure Probed (ς : Survey) (as : List Address) (first : List (Request × Reply)) (os : List Outcome)
    (raw : List Raw) : Prop where
  length : os.length = as.length
  asked : first.Perm ((Chunk.ranges as.length ς.batching.version).map fun r =>
    (probeRequest ς.block (r.part as), .ok (r.part os)))
  start : startRecords as (os.map answered) = .ok raw

namespace Probed

variable (h : ς.Probed as first os raw)

include h

theorem probes_iff :
    (∃ x ∈ first, Probes x a w) ↔
      ∃ (i : Nat) (o : Outcome), as[i]? = some a ∧ os[i]? = some o ∧ w = answered o := by
  constructor
  · rintro ⟨x, m, probes⟩
    obtain ⟨r, -, rfl⟩ := List.mem_map.mp (h.asked.mem_iff.mp m)
    obtain ⟨i, o, here, outcome, rfl⟩ := Probes.probeRequest_iff.mp probes
    rw [Range.getElem?_part] at here outcome
    split at here
    · next inside =>
      rw [if_pos inside] at outcome
      exact ⟨r.start + i, o, here, outcome, rfl⟩
    · cases here
  · rintro ⟨i, o, here, outcome, rfl⟩
    obtain ⟨inside, -⟩ := List.getElem?_eq_some_iff.mp here
    obtain ⟨k, ⟨r, at_k, start, stop⟩, -⟩ := Chunk.existsUnique_range ς.batching.version inside
    refine ⟨_, h.asked.mem_iff.mpr (List.mem_map_of_mem (List.mem_of_getElem? at_k)), ?_⟩
    refine Probes.probeRequest_iff.mpr ⟨i - r.start, o, ?_, ?_, rfl⟩
    · rw [Range.getElem?_part, if_pos (by omega), Nat.add_sub_cancel' start, here]
    · rw [Range.getElem?_part, if_pos (by omega), Nat.add_sub_cancel' start, outcome]

theorem exists_outcome {r : Raw} (m : r ∈ raw) :
    ∃ (i : Nat) (o : Outcome), as[i]? = some r.address ∧ os[i]? = some o ∧
      (r.version = .v3 ↔ answered o = 3) := by
  obtain ⟨⟨a, w⟩, n, ω, supported, rfl⟩ := Traverse.exists_left (of_startRecords h.start) m
  obtain ⟨i, both⟩ := List.mem_iff_getElem?.mp n
  obtain ⟨here, there⟩ := List.getElem?_zip_eq_some.mp both
  rw [List.getElem?_map, Option.map_eq_some_iff] at there
  obtain ⟨o, there, rfl⟩ := there
  exact ⟨i, o, here, there, Minipool.supported_iff supported⟩

theorem exists_record {i : Nat} (here : as[i]? = some a) (outcome : os[i]? = some o) :
    ∃ r ∈ raw, r.address = a ∧ (r.version = .v3 ↔ answered o = 3) := by
  have both : (as.zip (os.map answered))[i]? = some (a, answered o) := by
    rw [List.getElem?_zip_eq_some, List.getElem?_map, outcome]
    exact ⟨here, rfl⟩
  obtain ⟨length, each⟩ := Traverse.forall₂_iff_getElem?.mp (of_startRecords h.start)
  have inside : i < raw.length := length ▸ (List.getElem?_eq_some_iff.mp both).1
  obtain ⟨ω, supported, made⟩ := each i _ _ both (List.getElem?_eq_getElem inside)
  refine ⟨raw[i], List.getElem_mem inside, congrArg Raw.address made, ?_⟩
  rw [congrArg Raw.version made]
  exact Minipool.supported_iff supported

theorem version_iff (distinct : as.Nodup) {r : Raw} (m : r ∈ raw)
    (probes : ∃ x ∈ first, Probes x r.address w) : r.version = .v3 ↔ w = 3 := by
  obtain ⟨i, o, here, outcome, version⟩ := h.exists_outcome m
  obtain ⟨j, o', there, outcome', rfl⟩ := h.probes_iff.mp probes
  have inside := (List.getElem?_eq_some_iff.mp here).1
  cases (List.getElem?_inj inside distinct).mp (here.trans there.symm)
  cases outcome.symm.trans outcome'
  exact version

end Probed

theorem Probed.of_course (v : (ς.minipoolVersions as).Course [p] (.ok ws))
    (h : startRecords as ws = .ok raw) : ∃ os, ς.Probed as p.asked os raw := by
  obtain ⟨_, ⟨⟩, os, length, rfl, asked⟩ := probes_of_course v
  exact ⟨os, length, asked, h⟩

theorem asked_probes (h : (ς.minipoolVersions as).Course [p] r) :
    ∀ x ∈ p.asked, ∃ rg ∈ Chunk.ranges as.length ς.batching.version,
      x.1 = probeRequest ς.block (rg.part as) := by
  obtain ⟨_, ⟨⟩, round⟩ := Program.Course.of_together h
  intro x m
  obtain ⟨τ, n, asks⟩ := round.mem_questions m
  rw [Task.chunked_eq, List.length_replicate] at n
  obtain ⟨rg, inside, rfl⟩ := List.mem_map.mp n
  simp only [Read.workerWith, Minipool.ofReads_probes] at asks
  exact ⟨rg, inside, (Batch.mem_questions asks).2.trans (Minipool.request_probes _ _)⟩

/-- The request reads the details of some of the records. -/
def ReadsDetails (α : Addresses) (block : Nat) (raw : List Raw) (q : Request) : Prop :=
  ∃ rs, rs ⊆ raw ∧ q = ⟨rs.flatMap fun y => detailCalls α y.address y.version, false, block⟩

section

variable {α : Addresses} (deployed : ς.network = .ofAddresses α)

include deployed

theorem asked_details (h : (ς.minipoolRaw raw).Course [p] r) :
    ∀ x ∈ p.asked, ReadsDetails α ς.block raw x.1 := by
  obtain ⟨_, ⟨⟩, round⟩ := Program.Course.of_together h
  intro x m
  obtain ⟨τ, n, asks⟩ := round.mem_questions m
  rw [Task.chunked_eq] at n
  obtain ⟨rg, -, rfl⟩ := List.mem_map.mp n
  refine ⟨rg.part raw, rg.part_subset raw, ?_⟩
  rw [deployed] at asks
  exact Read.mem_questions (Read.calls_readEach (Minipool.calls_reads α)) asks

theorem asked_shares (h : (ς.minipoolShares raws).Course [p] r) :
    ∀ x ∈ p.asked, ∀ c ∈ x.1.calls, c.On .shares := by
  obtain ⟨_, ⟨⟩, round⟩ := Program.Course.of_together h
  intro x m
  obtain ⟨τ, n, asks⟩ := round.mem_questions m
  rw [Task.chunked_eq] at n
  obtain ⟨rg, -, rfl⟩ := List.mem_map.mp n
  simp only [Shares.worker, deployed] at asks
  split at asks
  · cases asks
  · next amounts _ =>
    have each (slot : Nat) (q : Raw × Int) := Minipool.calls_shares α slot q.1 q.2
    rw [Read.mem_questions (Read.calls_readEach each) asks, List.forall_mem_flatMap]
    exact fun q _ => Minipool.on_shares

end

theorem details_of_ok {α : Addresses} (deployed : ς.network = .ofAddresses α)
    (h : (ς.minipoolRaw raw).Course [p] (.ok raws)) {y : Raw} (m : y ∈ raw) :
    ∃ x ∈ p.asked, detailCalls α y.address y.version <:+: x.1.calls := by
  obtain ⟨rg, n, inside⟩ := Chunk.exists_part ς.batching.minipool m
  have asked := (questions_details deployed h).mem_iff.mpr (List.mem_map_of_mem n)
  obtain ⟨x, k, request⟩ := List.mem_map.mp asked
  refine ⟨x, k, ?_⟩
  rw [request]
  exact List.infix_of_mem_flatten (List.mem_map_of_mem inside)

/-- What a snapshot asks: probes, and after them nothing, or details and shares of the records that the
outcomes of the probes started. One that ends with records has read the details of all. -/
structure Phases (ς : Survey) (α : Addresses) (as : List Address) (first rest : List (Request × Reply))
    (r : Except SnapshotError (List Details)) : Prop where
  probes : ∀ x ∈ first, ∃ rg ∈ Chunk.ranges as.length ς.batching.version,
    x.1 = probeRequest ς.block (rg.part as)
  reads : ∀ x ∈ rest, ∃ os raw, ς.Probed as first os raw ∧
    (ReadsDetails α ς.block raw x.1 ∨ ∀ c ∈ x.1.calls, c.On .shares)
  all : ∀ ds, r = .ok ds → ∃ os raw, ς.Probed as first os raw ∧
    ∀ y ∈ raw, ∃ x ∈ rest, detailCalls α y.address y.version <:+: x.1.calls

theorem phases_of_run {α : Addresses} (deployed : ς.network = .ofAddresses α)
    (run : (ς.minipoolsFor as).Run asked r) :
    ∃ first rest, asked = first ++ rest ∧ ς.Phases α as first rest r := by
  obtain ⟨parts, course, rfl⟩ := run.course
  cases stages_of_course course with
  | @versions p e v => exact ⟨p.asked, [], rfl, asked_probes v, List.forall_mem_nil _, nofun⟩
  | @start p ws e v => exact ⟨p.asked, [], rfl, asked_probes v, List.forall_mem_nil _, nofun⟩
  | @details p ws raw p' e v h d =>
    obtain ⟨os, probed⟩ := Probed.of_course v h
    refine ⟨p.asked, p'.asked, by simp, asked_probes v, ?_, nofun⟩
    exact fun x m => ⟨os, raw, probed, .inl (asked_details deployed d x m)⟩
  | @shares p ws raw p' raws p'' e v h d s =>
    obtain ⟨os, probed⟩ := Probed.of_course v h
    refine ⟨p.asked, p'.asked ++ p''.asked, by simp, asked_probes v, ?_, nofun⟩
    exact List.forall_mem_append.mpr
      ⟨fun x m => ⟨os, raw, probed, .inl (asked_details deployed d x m)⟩,
        fun x m => ⟨os, raw, probed, .inr (asked_shares deployed s x m)⟩⟩
  | @all p ws raw p' raws p'' ss v h d s =>
    obtain ⟨os, probed⟩ := Probed.of_course v h
    refine ⟨p.asked, p'.asked ++ p''.asked, by simp, asked_probes v, ?reads, fun _ _ => ?read⟩
    case reads =>
      exact List.forall_mem_append.mpr
        ⟨fun x m => ⟨os, raw, probed, .inl (asked_details deployed d x m)⟩,
          fun x m => ⟨os, raw, probed, .inr (asked_shares deployed s x m)⟩⟩
    case read =>
      refine ⟨os, raw, probed, fun y m => ?_⟩
      obtain ⟨x, n, whole⟩ := details_of_ok deployed d m
      exact ⟨x, List.mem_append_left _ n, whole⟩

/-- The reply to some request answers the probe of `a` with `w`. -/
def ProbedAs (asked : List (Request × Reply)) (a : Address) (w : Word) : Prop :=
  ∃ x ∈ asked, Probes x a w

theorem ReadsDetails.on {α : Addresses} {block : Nat} (h : ReadsDetails α block raw q) :
    ∀ c ∈ q.calls, c.On .details ∨ c.On .atlas := by
  obtain ⟨rs, -, rfl⟩ := h
  intro c m
  obtain ⟨y, -, n⟩ := List.mem_flatMap.mp m
  rcases Minipool.mem_detailCalls.mp n with n | ⟨-, n⟩
  · exact .inl (Minipool.on_details c n)
  · exact .inr (Minipool.on_atlas c n)

namespace Phases

variable {α : Addresses} {r : Except SnapshotError (List Details)} (h : ς.Phases α as first rest r)

include h

theorem probed_iff : ProbedAs (first ++ rest) a w ↔ ProbedAs first a w := by
  constructor
  · rintro ⟨x, m, probes⟩
    rcases List.mem_append.mp m with m | m
    · exact ⟨x, m, probes⟩
    · obtain ⟨c, n, on⟩ := probes.exists_on
      obtain ⟨_, _, -, details | shares⟩ := h.reads x m
      · rcases details.on c n with on' | on' <;> cases on.unique on'
      · cases on.unique (shares c n)
  · rintro ⟨x, m, probes⟩
    exact ⟨x, List.mem_append_left _ m, probes⟩

theorem on_version (m : x ∈ first) : ∀ c ∈ x.1.calls, c.On .version := by
  obtain ⟨rg, -, request⟩ := h.probes x m
  rw [request]
  refine List.forall_mem_map.mpr fun b _ => ?_
  exact ⟨_, List.mem_singleton_self _, b, [], rfl⟩

theorem reads_details (m : x ∈ first ++ rest) (n : c ∈ x.1.calls) (on : c.On .details ∨ c.On .atlas) :
    ∃ os raw, ς.Probed as first os raw ∧ ReadsDetails α ς.block raw x.1 := by
  rcases List.mem_append.mp m with m | m
  · rcases on with on | on <;> cases on.unique (h.on_version m c n)
  · obtain ⟨os, raw, probed, details | shares⟩ := h.reads x m
    · exact ⟨os, raw, probed, details⟩
    · rcases on with on | on <;> cases on.unique (shares c n)

/-- Nobody is asked for what came with version 3 who did not answer with it. -/
theorem atlas (distinct : as.Nodup) (m : x ∈ first ++ rest) (n : c ∈ x.1.calls)
    (own : c ∈ atlasCalls α a) :
    a ∈ as ∧ ProbedAs (first ++ rest) a 3 ∧ ∀ w, ProbedAs (first ++ rest) a w → w = 3 := by
  obtain ⟨os, raw, probed, rs, sub, request⟩ := h.reads_details m n (.inr (Minipool.on_atlas c own))
  rw [request] at n
  obtain ⟨y, here, n⟩ := List.mem_flatMap.mp n
  have atlas : y.version = .v3 ∧ c ∈ atlasCalls α y.address := by
    refine (Minipool.mem_detailCalls.mp n).resolve_left fun n => ?_
    cases (Minipool.on_details c n).unique (Minipool.on_atlas c own)
  obtain rfl := Minipool.eq_of_mem_atlasCalls atlas.2 own
  obtain ⟨i, o, at_i, outcome, version⟩ := probed.exists_outcome (sub here)
  simp only [h.probed_iff]
  refine ⟨List.mem_of_getElem? at_i, ?_, ?_⟩
  · exact probed.probes_iff.mpr ⟨i, o, at_i, outcome, (version.mp atlas.1).symm⟩
  · exact fun w probes => (probed.version_iff distinct (sub here) probes).mp atlas.1

/-- Whoever answered with version 3 is asked for all that came with it, along with its other details. -/
theorem atlas_infix (distinct : as.Nodup) (m : x ∈ first ++ rest) (n : c ∈ x.1.calls)
    (own : c ∈ detailCalls α a .v1) (alone : ∀ b ∈ as, c ∈ detailCalls α b .v1 → b = a)
    (probes : ProbedAs (first ++ rest) a 3) : atlasCalls α a <:+: x.1.calls := by
  obtain ⟨os, raw, probed, rs, sub, request⟩ := h.reads_details m n (.inl (Minipool.on_details c own))
  rw [request] at n ⊢
  obtain ⟨y, here, n⟩ := List.mem_flatMap.mp n
  have details : c ∈ detailCalls α y.address .v1 := by
    refine (Minipool.mem_detailCalls.mp n).resolve_right fun n => ?_
    cases (Minipool.on_details c own).unique (Minipool.on_atlas c n.2)
  obtain ⟨i, o, at_i, -⟩ := probed.exists_outcome (sub here)
  obtain rfl := alone _ (List.mem_of_getElem? at_i) details
  have version := (probed.version_iff distinct (sub here) (h.probed_iff.mp probes)).mpr rfl
  refine List.IsInfix.trans ?_ (List.infix_of_mem_flatten (List.mem_map_of_mem here))
  rw [version]
  exact Minipool.atlasCalls_infix

end Phases

/-- A node that answers so has the minipool at `a` probed as something else than version 3. -/
def Outdated (ς : Survey) (as : List Address) (answer : Request → Reply) (a : Address) : Prop :=
  ∃ asked r w, (ς.minipoolsFor as).Run asked r ∧ Answered answer asked ∧ ProbedAs asked a w ∧ w ≠ 3

section

variable {α : Addresses} {answer answer' : Request → Reply} (deployed : ς.network = .ofAddresses α)
  (distinct : as.Nodup)
  (agree : ∀ q, (∀ a, ς.Outdated as answer a → ∀ c ∈ atlasCalls α a, c ∉ q.calls) →
    answer q = answer' q)

include deployed distinct agree

/-- Two nodes that differ at most in what came with version 3, and there for other minipools only, are
asked nothing that they differ in. -/
theorem agree_of_run (run : (ς.minipoolsFor as).Run asked r)
    (answered : ∀ x ∈ asked, x.2 = answer x.1 ∨ x.2 = answer' x.1) :
    ∀ x ∈ asked, answer x.1 = answer' x.1 := by
  obtain ⟨first, rest, rfl, phases⟩ := phases_of_run deployed run
  have early : ∀ x ∈ first, answer x.1 = answer' x.1 := by
    intro x m
    refine agree x.1 fun a _ c own n => ?_
    cases (phases.on_version m c n).unique (Minipool.on_atlas c own)
  intro x m
  refine agree x.1 ?_
  rintro a ⟨asked', r', w, run', answered', probed, ne⟩ c own n
  -- The probe that is answered otherwise was made here too, and got the same reply.
  obtain ⟨first', rest', rfl, phases'⟩ := phases_of_run deployed run'
  obtain ⟨y, here, probes⟩ := phases'.probed_iff.mp probed
  obtain ⟨rg, inside, request⟩ := phases'.probes y here
  obtain ⟨os, raw, all, -⟩ := phases.reads_details m n (.inr (Minipool.on_atlas c own))
  have there := all.asked.mem_iff.mpr (List.mem_map_of_mem inside)
  have reply : y.2 = .ok (rg.part os) := by
    rw [answered' y (List.mem_append_left _ here), request]
    rcases answered _ (List.mem_append_left _ there) with same | same
    · exact same.symm
    · exact (early _ there).trans same.symm
  have same : y = (probeRequest ς.block (rg.part as), .ok (rg.part os)) := Prod.ext request reply
  rw [same] at probes
  exact ne ((phases.atlas distinct m n own).2.2 w ⟨_, List.mem_append_left _ there, probes⟩)

theorem answered_iff (run : (ς.minipoolsFor as).Run asked r) :
    Answered answer asked ↔ Answered answer' asked := by
  constructor
  · intro h x m
    exact (h x m).trans (agree_of_run deployed distinct agree run (fun x m => .inl (h x m)) x m)
  · intro h x m
    exact (h x m).trans (agree_of_run deployed distinct agree run (fun x m => .inr (h x m)) x m).symm

end

/-- Only minipools whose probe was answered with version 3 are asked for what came with it, and a node
that would answer differently for others gives the same runs. -/
theorem minipoolsFor_legacy (α : Addresses) (β : Batching) (block : Nat) (as : List Address)
    (distinct : as.Nodup) :
    let ς : Survey := ⟨.ofAddresses α, β, block⟩
    let P := ς.minipoolsFor as
    (∀ asked r, P.Run asked r → ∀ x ∈ asked, ∀ a,
      ((∃ c ∈ atlasCalls α a, c ∈ x.1.calls) →
        a ∈ as ∧ ProbedAs asked a 3 ∧ ∀ w, ProbedAs asked a w → w = 3) ∧
      ((∃ c ∈ detailCalls α a .v1, c ∈ x.1.calls ∧ ∀ b ∈ as, c ∈ detailCalls α b .v1 → b = a) →
        ProbedAs asked a 3 → atlasCalls α a <:+: x.1.calls)) ∧
    (∀ asked ds, P.Run asked (.ok ds) → ∀ a, ProbedAs asked a 3 →
      ∃ x ∈ asked, atlasCalls α a <:+: x.1.calls) ∧
    ∀ answer answer' : Request → Reply,
      (∀ q, (∀ a, ς.Outdated as answer a → ∀ c ∈ atlasCalls α a, c ∉ q.calls) →
        answer q = answer' q) →
      (∀ asked r, P.Run asked r → (Answered answer asked ↔ Answered answer' asked)) ∧
        ∀ r, P.Comes answer r ↔ P.Comes answer' r := by
  intro ς P
  refine ⟨?each, ?all, ?answers⟩
  case each =>
    intro asked r run x m a
    obtain ⟨first, rest, rfl, phases⟩ := phases_of_run rfl run
    constructor
    · rintro ⟨c, own, n⟩
      exact phases.atlas distinct m n own
    · rintro ⟨c, own, n, alone⟩ probes
      exact phases.atlas_infix distinct m n own alone probes
  case all =>
    intro asked ds run a probed
    obtain ⟨first, rest, rfl, phases⟩ := phases_of_run rfl run
    obtain ⟨os, raw, started, read⟩ := phases.all ds rfl
    obtain ⟨i, o, at_i, outcome, version⟩ := started.probes_iff.mp (phases.probed_iff.mp probed)
    obtain ⟨y, m, rfl, third⟩ := started.exists_record at_i outcome
    obtain ⟨x, n, whole⟩ := read y m
    rw [third.mpr version.symm] at whole
    exact ⟨x, List.mem_append_right _ n, Minipool.atlasCalls_infix.trans whole⟩
  case answers =>
    intro answer answer' agree
    have same (asked) (r) (run : P.Run asked r) := answered_iff rfl distinct agree run
    refine ⟨same, fun r => ⟨?_, ?_⟩⟩
    · rintro ⟨asked, run, answered⟩
      exact ⟨asked, run, (same asked r run).mp answered⟩
    · rintro ⟨asked, run, answered⟩
      exact ⟨asked, run, (same asked r run).mpr answered⟩

/-- One minipool of the third version and one of the first. That a node reverts whatever asks the old one
for what it does not have makes no difference. -/
theorem minipoolsFor_legacy_reverting :
    let α : Addresses := ⟨1, 2, 3, 4, 5, 6, 7, 8, 9⟩
    let P := (⟨.ofAddresses α, {}, 0⟩ : Survey).minipoolsFor [10, 11]
    let f (c : Call) : Outcome :=
      ⟨true, Abi.word (if c.target = 10 then 3 else if c.target = 11 then 1 else 0)⟩
    let answer := pointwise f fun _ => ""
    let answer' (q : Request) : Reply :=
      if ∃ c ∈ atlasCalls α 11, c ∈ q.calls then .error (.reverted "") else answer q
    ([10, 11] : List Address).Nodup ∧ ∃ asked d e, P.Run asked (.ok [d, e]) ∧ Answered answer' asked ∧
      (d.version, e.version) = (.v3, .v1) ∧ ∃ x ∈ asked, atlasCalls α 10 <:+: x.1.calls := by
  intro α P f answer answer'
  let ς : Survey := ⟨.ofAddresses α, {}, 0⟩
  have distinct : ([10, 11] : List Address).Nodup := by decide
  obtain ⟨each, all, answers⟩ := minipoolsFor_legacy α {} 0 [10, 11] distinct
  obtain ⟨d, taken, third⟩ : ∃ d, Minipool.snapshot ς.network f 10 = some d ∧ d.version = .v3 :=
    Option.map_eq_some_iff.mp (by subst ς α f; rfl)
  obtain ⟨e, taken', first⟩ : ∃ e, Minipool.snapshot ς.network f 11 = some e ∧ e.version = .v1 :=
    Option.map_eq_some_iff.mp (by subst ς α f; rfl)
  have returns : P.Returns answer [d, e] :=
    (minipoolsFor_returns_iff ς [10, 11] [d, e]).mpr (.cons taken (.cons taken' .nil))
  obtain ⟨⟨r, asked, run, answered⟩, only⟩ := returns
  cases only r ⟨asked, run, answered⟩
  have probed (k : Nat) (a : Address) (w : Word) (here : [10, 11][k]? = some a)
      (reads : Minipool.answered (f (.to a "version()" [])) = w) : ProbedAs asked a w := by
    obtain ⟨first, rest, rfl, phases⟩ := phases_of_run rfl run
    obtain ⟨os, raw, started, -⟩ := phases.all _ rfl
    have inside : k < os.length := started.length ▸ (List.getElem?_eq_some_iff.mp here).1
    obtain ⟨x, m, probes⟩ :=
      started.probes_iff.mpr ⟨k, os[k], here, List.getElem?_eq_getElem inside, rfl⟩
    have m := List.mem_append_left rest m
    rw [probes.of_pointwise (answered x m), reads] at probes
    exact ⟨x, m, probes⟩
  have agree : ∀ q, (∀ a, ς.Outdated [10, 11] answer a → ∀ c ∈ atlasCalls α a, c ∉ q.calls) →
      answer q = answer' q := by
    intro q none
    refine (if_neg ?_).symm
    rintro ⟨c, own, n⟩
    exact none 11 ⟨asked, _, 1, run, answered, probed 1 11 1 rfl rfl, by decide⟩ c own n
  have answered' := ((answers answer answer' agree).1 asked _ run).mp answered
  exact ⟨distinct, asked, d, e, run, answered', Prod.ext third first,
    all asked _ run 10 (probed 0 10 3 rfl rfl)⟩

end Survey

end PoolSnapshot
