import PoolSnapshot.Proofs.Minipool.Legacy
import PoolSnapshot.Proofs.Minipool.Told
import PoolSnapshot.Proofs.Program.Returns

/-!
Version probes lose nothing. Each address has the word that its own probe brought, or version 1 where the
probe brought none; a word that is no version stops the snapshot and is reported as it is, and a round trip
that was lost is an error and no version.
-/
namespace PoolSnapshot

open Minipool (Raw Details answered probeRequest)

/-- The round trip was lost: an error, or another number of outcomes than calls. -/
inductive Lost : Request × Reply → BatchError → Prop
  | round (err : BatchError) : Lost (q, .error err) err
  | count (h : os.length ≠ q.calls.length) : Lost (q, .ok os) (.outcomeCount q.calls.length os.length)

/-- Every request whose calls may fail is answered with an outcome for each of them. -/
def CallByCall (asked : List (Request × Reply)) : Prop :=
  ∀ x ∈ asked, x.1.allowFailure → ∃ os : List Outcome, x.2 = .ok os ∧ os.length = x.1.calls.length

theorem CallByCall.not_lost (h : CallByCall asked) (m : x ∈ asked) (lenient : x.1.allowFailure) :
    ¬Lost x err := by
  obtain ⟨q, reply⟩ := x
  obtain ⟨os, rfl, count⟩ := h _ m lenient
  intro lost
  cases lost with
  | count other => exact other count

theorem Batch.lost_of_settle {R : Type} {b : Batch R} {rs rs' : List R} {reply : Reply} (block : Nat)
    (within : b.Within rs.length) (h : b.settle .lenient reply rs = (rs', .error err)) :
    Lost (b.request .lenient block, reply) err := by
  have length : (b.request .lenient block).calls.length = b.length := List.length_map _
  cases refuses_of_settle within h with
  | round => exact .round err
  | count other =>
    rw [← length]
    exact .count (length.symm ▸ other)

namespace Minipool

/-- The word is a version that a minipool can be read by. -/
def Known (w : Word) : Prop := w = 1 ∨ w = 2 ∨ w = 3

instance : DecidablePred Known := fun w => inferInstanceAs (Decidable (w = 1 ∨ w = 2 ∨ w = 3))

theorem exists_supported {a : Address} {w : Word} (h : Known w) :
    ∃ ω, supported a w = .ok ω ∧ Coded.code ω = w.toNat := by
  rcases h with rfl | rfl | rfl
  · exact ⟨.v1, rfl, rfl⟩
  · exact ⟨.v2, rfl, rfl⟩
  · exact ⟨.v3, rfl, rfl⟩

theorem supported_of_unknown (a : Address) {w : Word} (h : ¬Known w) :
    supported a w = .error (.unsupportedVersion a w) := by
  cases s : supported a w with
  | ok ω =>
    obtain ⟨low, high⟩ := supported_eq_ok s
    refine absurd ?_ h
    have codes : w.toNat = 1 ∨ w.toNat = 2 ∨ w.toNat = 3 := by omega
    exact codes.imp BitVec.eq_of_toNat_eq (.imp BitVec.eq_of_toNat_eq BitVec.eq_of_toNat_eq)
  | error e =>
    rw [supported] at s
    split at s <;> cases s
    rfl

theorem within_probes (as : List Address) : (probes as).Within (List.replicate as.length (0 : Word)).length := by
  rw [List.length_replicate]
  intro e m
  obtain ⟨⟨e, k⟩, n, rfl⟩ := List.mem_map.mp m
  simpa using List.snd_lt_of_mem_zipIdx n

/-- A chunk of probes goes through by an outcome for each of them. -/
theorem goes_of_outcomes {ν : Network} {as : List Address} {report : BatchError → SnapshotError} (some : as ≠ [])
    {os : List Outcome} (count : os.length = as.length) (block : Nat) :
    (Read.workerWith (readEach as fun slot a => [versionRead ν slot a]) .lenient block report
      withFallback).Goes (List.replicate as.length 0) [(probeRequest block as, .ok os)] []
        (.finished (os.map answered)) := by
  have full : (probes as).isEmpty = false := by cases as <;> simp_all [probes]
  obtain ⟨rs, flags, settled, left⟩ := settle_probes count
  simp only [Read.workerWith, ofReads_probes, Batch.worker, full, request_probes]
  exact .took (by simp only [settled, left]) .finish

end Minipool

namespace Survey

variable {ς : Survey} {as : List Address} {os : List Outcome} {ws : List Word} {p : Part Request Reply}

/-- The requests of the probes with their replies, by what each address is answered. -/
def probeLog (ς : Survey) (as : List Address) (os : List Outcome) : List (Request × Reply) :=
  (Chunk.ranges as.length ς.batching.version).map fun r =>
    (probeRequest ς.block (r.part as), .ok (r.part os))

theorem run_probes (count : os.length = as.length) :
    (ς.minipoolVersions as).Run (ς.probeLog as os) (.ok (os.map answered)) := by
  let ways := (Chunk.ranges as.length ς.batching.version).map fun r =>
    ([(probeRequest ς.block (r.part as), (.ok (r.part os) : Reply))], (r.part os).map answered)
  have log : ways.flatMap (·.1) = ς.probeLog as os := by
    rw [List.flatMap_map]
    exact List.map_eq_flatMap.symm
  have out : ways.flatMap (·.2) = os.map answered := by
    rw [List.flatMap_map, ← count, List.map_eq_flatMap]
    simp only [List.map_eq_flatMap]
    exact Chunk.flatMap_part _ os _
  rw [← log, ← out]
  refine Program.run_together ?_
  rw [Task.chunked_eq, List.length_replicate, List.forall₂_map_left_iff, List.forall₂_map_right_iff,
    List.forall₂_same]
  intro r m
  rw [Range.part_replicate]
  refine Minipool.goes_of_outcomes (Chunk.part_ne_nil m) ?_ ς.block
  rw [Chunk.length_part m, Chunk.length_part (count ▸ m)]

/-- Probes fail by a round trip that was lost. -/
theorem lost_of_course (h : (ς.minipoolVersions as).Course [p] (.error e)) :
    ∃ x ∈ p.asked, x.1.allowFailure ∧ ∃ err, Lost x err ∧ e = .batch .versions err := by
  obtain ⟨_, ⟨⟩, round⟩ := Program.Course.of_together h
  obtain ⟨τ, m, heard, due, c, goes, failed, sub⟩ := round.exists_failed
  rw [Task.chunked_eq, List.length_replicate] at m
  obtain ⟨r, -, rfl⟩ := List.mem_map.mp m
  simp only [Read.workerWith, Minipool.ofReads_probes, Range.part_replicate] at goes
  obtain ⟨reply, rs', err, rfl, settled, rfl⟩ := Batch.failed_worker goes failed
  refine ⟨_, sub List.mem_cons_self, rfl, err, ?_, rfl⟩
  exact Batch.lost_of_settle ς.block (Minipool.within_probes _) settled

/-- What stands between probes and a snapshot: details, shares, and records made of them. -/
def fromDetails (ς : Survey) (raw : List Raw) : Snapshot (List Details) := do
  let raw ← ς.minipoolRaw raw
  let shares ← ς.minipoolShares raw
  Details.assembleAll raw shares

theorem minipoolsFor_eq (ς : Survey) (as : List Address) :
    ς.minipoolsFor as = ς.minipoolVersions as >>= fun ws =>
      (liftM (startRecords as ws) : Snapshot (List Raw)) >>= ς.fromDetails := rfl

/-- Answered call by call, probes come to the word that each address is answered with. -/
theorem probes_of_run (run : (ς.minipoolVersions as).Run asked r) (answers : CallByCall asked) :
    ∃ os : List Outcome, os.length = as.length ∧ asked.Perm (ς.probeLog as os) ∧ r = .ok (os.map answered) := by
  obtain ⟨parts, course, rfl⟩ := run.course
  cases r with
  | ok ws =>
    obtain ⟨p, rfl, os, length, rfl, asked⟩ := probes_of_course course
    rw [List.flatMap_singleton]
    exact ⟨os, length, asked, rfl⟩
  | error e =>
    obtain ⟨p, rfl, -⟩ := Program.Course.of_together course
    obtain ⟨x, m, lenient, err, lost, -⟩ := lost_of_course course
    rw [List.flatMap_singleton] at answers
    exact absurd lost (answers.not_lost m lenient)

/-- The first word that is no version is reported as it is. -/
theorem startRecords_unknown {i : Nat} {a : Address} {o : Outcome} (at_as : as[i]? = some a)
    (at_os : os[i]? = some o) (unknown : ¬Minipool.Known (answered o))
    (before : ∀ j < i, ∀ o', os[j]? = some o' → Minipool.Known (answered o')) :
    startRecords as (os.map answered) = .error (.unsupportedVersion a (answered o)) := by
  have words (j : Nat) : (os.map answered)[j]? = os[j]?.map answered := List.getElem?_map
  have here : (as.zip (os.map answered))[i]? = some (a, answered o) :=
    List.getElem?_zip_eq_some.mpr ⟨at_as, by rw [words, at_os, Option.map_some]⟩
  rw [startRecords, Traverse.eq_take_cons_drop here]
  refine Traverse.mapM_eq_error ?_ ?_
  · rintro ⟨b, w⟩ m
    obtain ⟨j, l, there⟩ := Traverse.exists_of_mem_take m
    obtain ⟨-, at_j⟩ := List.getElem?_zip_eq_some.mp there
    rw [words, Option.map_eq_some_iff] at at_j
    obtain ⟨o', at_j, rfl⟩ := at_j
    obtain ⟨ω, supported, -⟩ := Minipool.exists_supported (a := b) (before j l o' at_j)
    exact ⟨_, Traverse.bind_eq_ok.mpr ⟨ω, supported, rfl⟩⟩
  · change Minipool.supported a (answered o) >>= _ = _
    rw [Minipool.supported_of_unknown a unknown]
    rfl

theorem startRecords_known (length : os.length = as.length) (known : ∀ o ∈ os, Minipool.Known (answered o)) :
    ∃ raw, startRecords as (os.map answered) = .ok raw ∧ raw.map (·.address) = as ∧
      raw.map (Coded.code ·.version) = os.map (answered · |>.toNat) := by
  have each : ∀ q ∈ as.zip os, ∃ r : Raw,
      (Minipool.supported q.1 (answered q.2) >>= fun ω => .ok { address := q.1, version := ω }) = Except.ok r ∧
        r.address = q.1 ∧ Coded.code r.version = (answered q.2).toNat := by
    intro q m
    obtain ⟨ω, supported, code⟩ := Minipool.exists_supported (a := q.1) (known q.2 (List.of_mem_zip m).2)
    exact ⟨_, Traverse.bind_eq_ok.mpr ⟨ω, supported, rfl⟩, rfl, code⟩
  obtain ⟨raw, made⟩ := Traverse.exists_forall₂.mpr each
  refine ⟨raw, ?_, ?_, ?_⟩
  · rw [startRecords, List.zip_map_right]
    exact Traverse.mapM_eq_ok.mpr (List.forall₂_map_left_iff.mpr (made.imp fun _ _ h => h.1))
  · rw [← List.map_fst_zip (Nat.le_of_eq length.symm), ← List.forall₂_eq_eq_eq, List.forall₂_map_left_iff,
      List.forall₂_map_right_iff]
    exact made.flip.imp fun _ _ h => h.2.1
  · rw [← List.map_snd_zip (Nat.le_of_eq length), List.map_map, ← List.forall₂_eq_eq_eq,
      List.forall₂_map_left_iff, List.forall₂_map_right_iff]
    exact made.flip.imp fun _ _ h => h.2.2

/-- Probes that went through lost no reply. -/
theorem not_lost_of_course (h : (ς.minipoolVersions as).Course [p] (.ok ws)) (m : x ∈ p.asked) : ¬Lost x err := by
  obtain ⟨_, ⟨⟩, os, length, -, asked⟩ := probes_of_course h
  obtain ⟨r, n, rfl⟩ := List.mem_map.mp (asked.mem_iff.mp m)
  have count : (r.part os).length = (r.part as).length := by
    rw [Chunk.length_part n, Chunk.length_part (length.symm ▸ n)]
  intro lost
  cases lost with
  | count other => exact other (count.trans (List.length_map _).symm)

/-- A reply to probes that was lost, in a run of which it was the end. -/
def LostBy (asked : List (Request × Reply)) (r : Except SnapshotError β) : Prop :=
  ∃ x ∈ asked, x.1.allowFailure ∧ ∃ err, Lost x err ∧ r = .error (.batch .versions err)

theorem lostBy_of_versions (run : (ς.minipoolVersions as).Run asked r) (m : x ∈ asked) (lost : Lost x err) :
    LostBy asked r := by
  obtain ⟨parts, course, rfl⟩ := run.course
  obtain ⟨p, rfl, -⟩ := Program.Course.of_together course
  rw [List.flatMap_singleton] at m ⊢
  cases r with
  | ok ws => exact absurd lost (not_lost_of_course course m)
  | error e =>
    obtain ⟨y, n, lenient, err', lost', rfl⟩ := lost_of_course course
    exact ⟨y, n, lenient, err', lost', rfl⟩

section

variable {α : Addresses} (deployed : ς.network = .ofAddresses α) {raw : List Raw}

include deployed

theorem details_strict (h : (ς.minipoolRaw raw).Course [p] r) : ∀ x ∈ p.asked, ¬x.1.allowFailure := by
  obtain ⟨_, ⟨⟩, round⟩ := Program.Course.of_together h
  exact round.strict (tells_details deployed raw) nofun

theorem shares_strict (h : (ς.minipoolShares raw).Course [p] r) : ∀ x ∈ p.asked, ¬x.1.allowFailure := by
  obtain ⟨_, ⟨⟩, round⟩ := Program.Course.of_together h
  exact round.strict (tells_shares deployed raw) nofun

/-- A snapshot of which a probe's reply was lost is stopped by that. -/
theorem Stages.lost (h : ς.Stages as parts r) (m : x ∈ parts.flatMap Part.asked) (lenient : x.1.allowFailure)
    (lost : Lost x err) :
    ∃ p e, parts = [p] ∧ (ς.minipoolVersions as).Course [p] (.error e) ∧ r = .error e := by
  have later {p : Part Request Reply} {ws : List Word} {parts : List (Part Request Reply)}
      (v : (ς.minipoolVersions as).Course [p] (.ok ws)) (m : x ∈ (p :: parts).flatMap Part.asked) :
      x ∈ parts.flatMap Part.asked := by
    rw [List.flatMap_cons] at m
    exact (List.mem_append.mp m).resolve_left fun n => not_lost_of_course v n lost
  cases h with
  | versions v => exact ⟨_, _, rfl, v, rfl⟩
  | start v => cases later v m
  | details v _ d =>
    have m := later v m
    rw [List.flatMap_singleton] at m
    exact absurd lenient (details_strict deployed d x m)
  | shares v _ d s | all v _ d s =>
    have m := later v m
    rw [List.flatMap_cons, List.flatMap_singleton] at m
    rcases List.mem_append.mp m with m | m
    · exact absurd lenient (details_strict deployed d x m)
    · exact absurd lenient (shares_strict deployed s x m)

/-- Whatever comes of a minipool's details, they were asked for. -/
theorem asked_fromDetails (run : (ς.fromDetails raw).Run asked r) (some : raw ≠ []) :
    ∃ x ∈ asked, ReadsDetails α ς.block raw x.1 := by
  have asks {before : List (Request × Reply)} {r : Except SnapshotError (List Raw)}
      (run : (ς.minipoolRaw raw).Run before r) : ∃ x ∈ before, ReadsDetails α ς.block raw x.1 := by
    obtain ⟨parts, course, rfl⟩ := run.course
    obtain ⟨p, rfl, round⟩ := Program.Course.of_together course
    suffices h : ∃ x, x ∈ p.asked by
      obtain ⟨x, m⟩ := h
      exact ⟨x, by simpa using m, asked_details deployed course x m⟩
    cases r with
    | ok raws =>
      obtain ⟨y, m⟩ := List.exists_mem_of_ne_nil raw some
      obtain ⟨x, m, -⟩ := details_of_ok deployed course m
      exact ⟨x, m⟩
    | error e =>
      obtain ⟨τ, m, heard, due, c, goes, failed, sub⟩ := round.exists_failed
      rcases (tells_details deployed raw τ m heard due c goes).failed e failed with ⟨-, -, x, m, -⟩ | ⟨no, -⟩
      · exact ⟨x, sub (List.mem_append_left _ m)⟩
      · cases no
  rcases run.of_bind with ⟨raws, before, after, rfl, first, -⟩ | ⟨e, first, -⟩
  · obtain ⟨x, m, reads⟩ := asks first
    exact ⟨x, List.mem_append_left _ m, reads⟩
  · exact asks first

theorem lostBy_of_minipools (run : (ς.minipoolsFor as).Run asked r) (m : x ∈ asked) (lenient : x.1.allowFailure)
    (lost : Lost x err) : LostBy asked r := by
  obtain ⟨parts, course, rfl⟩ := run.course
  obtain ⟨p, e, rfl, failed, rfl⟩ := (stages_of_course course).lost deployed m lenient lost
  obtain ⟨y, n, lenient', err', lost', rfl⟩ := lost_of_course failed
  rw [List.flatMap_singleton]
  exact ⟨y, n, lenient', err', lost', rfl⟩

end

/-- What follows the probes of a snapshot: records of known versions are read, or the first word that is no
version ends it. -/
inductive Proceeds (ς : Survey) (as : List Address) (os : List Outcome) :
    List (Request × Reply) → Except SnapshotError (List Details) → Prop
  | details (known : ∀ o ∈ os, Minipool.Known (answered o)) (start : startRecords as (os.map answered) = .ok raw)
      (addresses : raw.map (·.address) = as)
      (versions : raw.map (Coded.code ·.version) = os.map (answered · |>.toNat))
      (rest : (ς.fromDetails raw).Run after r) : Proceeds ς as os after r
  | unsupported {i : Nat} (at_as : as[i]? = some a) (at_os : os[i]? = some o)
      (unknown : ¬Minipool.Known (answered o))
      (before : ∀ j < i, ∀ o', os[j]? = some o' → Minipool.Known (answered o')) :
      Proceeds ς as os [] (.error (.unsupportedVersion a (answered o)))

theorem Proceeds.run (h : ς.Proceeds as os after r) (length : os.length = as.length) :
    (ς.minipoolsFor as).Run (ς.probeLog as os ++ after) r := by
  rw [minipoolsFor_eq]
  refine (run_probes length).bind ?_
  cases h with
  | details _ start _ _ rest =>
    rw [start]
    exact rest
  | unsupported at_as at_os unknown before =>
    rw [startRecords_unknown at_as at_os unknown before]
    exact .done _

theorem proceeds_of_start (length : os.length = as.length)
    (run : ((liftM (startRecords as (os.map answered)) : Snapshot (List Raw)) >>= ς.fromDetails).Run after r) :
    ς.Proceeds as os after r := by
  by_cases known : ∀ o ∈ os, Minipool.Known (answered o)
  · obtain ⟨raw, start, addresses, versions⟩ := startRecords_known length known
    rw [start] at run
    exact .details known start addresses versions run
  · obtain ⟨i, o, at_os, unknown, before⟩ := Traverse.exists_first known
    have at_as := List.getElem?_eq_getElem (length ▸ (List.getElem?_eq_some_iff.mp at_os).1)
    rw [startRecords_unknown at_as at_os unknown before] at run
    cases run
    exact .unsupported at_as at_os unknown before

/-- Every address is read by the version that its own probe brought, whatever the others brought and however
the probes were put together. Details are read if all of these are known, and otherwise the first that is not is
reported unchanged. No lost reply passes for a version. -/
theorem minipoolVersions_lossless (α : Addresses) (β : Batching) (block : Nat) (as : List Address) :
    let ς : Survey := ⟨.ofAddresses α, β, block⟩
    (∀ os : List Outcome, os.length = as.length →
      (ς.minipoolVersions as).Run (ς.probeLog as os) (.ok (os.map answered))) ∧
    (∀ asked r, (ς.minipoolVersions as).Run asked r → CallByCall asked →
      ∃ os : List Outcome, os.length = as.length ∧ asked.Perm (ς.probeLog as os) ∧ r = .ok (os.map answered)) ∧
    (∀ asked r, (ς.minipoolsFor as).Run asked r → CallByCall asked →
      ∃ (os : List Outcome) (before after : List (Request × Reply)), os.length = as.length ∧
        asked = before ++ after ∧ before.Perm (ς.probeLog as os) ∧ ς.Proceeds as os after r) ∧
    (∀ (os : List Outcome) after r, os.length = as.length → ς.Proceeds as os after r →
      (ς.minipoolsFor as).Run (ς.probeLog as os ++ after) r ∧
      (as ≠ [] → ((∃ raw, ∃ x ∈ after, ReadsDetails α block raw x.1) ↔ ∀ o ∈ os, Minipool.Known (answered o)))) ∧
    ∀ asked x err, x ∈ asked → x.1.allowFailure → Lost x err →
      (∀ r, (ς.minipoolVersions as).Run asked r → LostBy asked r) ∧
      ∀ r, (ς.minipoolsFor as).Run asked r → LostBy asked r := by
  intro ς
  refine ⟨fun _ => run_probes, fun _ _ => probes_of_run, ?proceeds, ?goes, ?lost⟩
  case proceeds =>
    intro asked r run answers
    rw [minipoolsFor_eq] at run
    rcases run.of_bind with ⟨ws, before, after, rfl, probes, rest⟩ | ⟨e, failed, -⟩
    · obtain ⟨os, length, log, ⟨⟩⟩ :=
        probes_of_run probes fun x m => answers x (List.mem_append_left _ m)
      exact ⟨os, before, after, length, rfl, log, proceeds_of_start length rest⟩
    · obtain ⟨_, _, _, ⟨⟩⟩ := probes_of_run failed answers
  case goes =>
    intro os after r length h
    refine ⟨h.run length, fun some => ?_⟩
    cases h with
    | @details raw after r known start addresses versions rest =>
      refine iff_of_true ⟨raw, asked_fromDetails rfl rest ?_⟩ known
      rintro rfl
      exact some addresses.symm
    | unsupported at_as at_os unknown =>
      refine iff_of_false ?_ fun known => unknown (known _ (List.mem_of_getElem? at_os))
      rintro ⟨-, x, m, -⟩
      cases m
  case lost =>
    intro asked x err m lenient lost
    exact ⟨fun r run => lostBy_of_versions run m lost,
      fun r run => lostBy_of_minipools rfl run m lenient lost⟩

/-- A probe that failed, a word wider than any version and one of which the last byte would do, each a request of
its own; and a node that cannot be reached. -/
theorem minipoolVersions_lossless_wide :
    let ς : Survey := ⟨.ofAddresses ⟨1, 2, 3, 4, 5, 6, 7, 8, 9⟩, { version := 0 }, 0⟩
    let as : List Address := [10, 11, 12]
    let wide : Word := .ofNat 256 (2 ^ 255 + 1)
    let os : List Outcome := [⟨false, Abi.word 3⟩, ⟨true, Abi.word (2 ^ 255 + 1)⟩, ⟨true, Abi.word 257⟩]
    let unreachable (_ : Request) : Reply := .error (.transport "unreachable")
    (ς.minipoolVersions as).Run (ς.probeLog as os) (.ok [1, wide, 257]) ∧
      (ς.minipoolsFor as).Run (ς.probeLog as os) (.error (.unsupportedVersion 11 wide)) ∧
      ∃ asked r, (ς.minipoolVersions as).Run asked r ∧ Answered unreachable asked ∧ LostBy asked r := by
  intro ς as wide os unreachable
  obtain ⟨versions, words, -, goes, lost⟩ :=
    minipoolVersions_lossless ⟨1, 2, 3, 4, 5, 6, 7, 8, 9⟩ { version := 0 } 0 as
  have all : os.map answered = [1, wide, 257] := by decide +kernel
  have first : Minipool.Known (answered ⟨false, Abi.word 3⟩) := by decide
  have second : answered ⟨true, Abi.word (2 ^ 255 + 1)⟩ = wide := by decide +kernel
  have unknown : ¬Minipool.Known wide := by decide +kernel
  have stops : ς.Proceeds as os [] (.error (.unsupportedVersion 11 wide)) := by
    rw [← second] at unknown ⊢
    refine .unsupported (i := 1) rfl rfl unknown ?_
    intro j l o at_j
    obtain rfl : j = 0 := Nat.lt_one_iff.mp l
    cases at_j
    exact first
  have stopped := (goes os [] _ rfl stops).1
  rw [List.append_nil] at stopped
  refine ⟨all ▸ versions os rfl, stopped, ?_⟩
  obtain ⟨r, asked, run, answers⟩ := Program.exists_comes unreachable (ς.minipoolVersions as)
  refine ⟨asked, r, run, answers, ?_⟩
  by_contra none
  have callByCall : CallByCall asked := by
    intro x m lenient
    have h : Lost x (.transport "unreachable") := by
      obtain ⟨q, reply⟩ := x
      cases answers _ m
      exact .round _
    exact absurd ((lost asked x _ m lenient h).1 r run) none
  obtain ⟨os', length, log, -⟩ := words asked r run callByCall
  have range : (⟨0, 1⟩ : Range) ∈ Chunk.ranges as.length 0 := by decide
  cases answers _ (log.mem_iff.mpr (List.mem_map_of_mem range))

end Survey

end PoolSnapshot
