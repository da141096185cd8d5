import PoolSnapshot.Challenge
import PoolSnapshot.Proofs.Abi.RoundTrip
import PoolSnapshot.Proofs.Contract.Resolution
import PoolSnapshot.Proofs.Survey.Stage

/-!
The states of challenges. Each pair has the state that its own call is answered with, however the pairs are
cut into batches; what else they are cut into shows only in which of several failures is met first.
-/
namespace PoolSnapshot

open Abi (Value)

namespace ChallengeState

variable (α : Addresses) {f : Call → Outcome}

def call (pair : Nat × Nat) : Call :=
  .to α.verifier "getChallengeState(uint256,uint256)"
    [.uint (BitVec.ofNat 256 pair.1), .uint (BitVec.ofNat 256 pair.2)]

/-- The word that a pair is answered with, of whatever size. -/
def Tells (f : Call → Outcome) (pair : Nat × Nat) (w : Word) : Prop :=
  (f (call α pair)).Is (.uint 8) (.uint w)

theorem apply_read (slot p i : Nat) :
    Read.apply f 0 [read ⟨.verifier, α.verifier⟩ slot p i] = some w ↔ Tells α f (p, i) w := by
  rw [read, Read.apply_of (t := .uint 8) (s := "getChallengeState(uint256,uint256)") rfl rfl rfl rfl]
  constructor
  · rintro ⟨_, is, rest⟩
    cases rest
    exact is
  · exact fun is => ⟨w, is, rfl⟩

theorem ofCode?_eq_some {n : Nat} {s : ChallengeState} : Coded.ofCode? n = some s ↔ Coded.code s = n := by
  constructor
  · intro h
    simpa using List.find?_some h
  · rintro rfl
    cases s <;> rfl

theorem exists_code {n : Nat} : (∃ s : ChallengeState, Coded.code s = n) ↔ n ≤ 3 := by
  constructor
  · rintro ⟨s, rfl⟩
    cases s <;> decide
  · intro small
    match n, small with
    | 0, _ => exact ⟨.unchallenged, rfl⟩
    | 1, _ => exact ⟨.challenged, rfl⟩
    | 2, _ => exact ⟨.responded, rfl⟩
    | 3, _ => exact ⟨.paid, rfl⟩

theorem decode_eq_ok {s : ChallengeState} : decode p i w = .ok s ↔ Coded.code s = w.toNat := by
  rw [decode, ← ofCode?_eq_some]
  cases Coded.ofCode? (α := ChallengeState) w.toNat <;> simp

theorem decode_eq_error (large : 3 < w.toNat) :
    decode p i w = .error (.invalidValue (.challenge p i) "challenge state" w.decimal) := by
  rw [decode]
  cases found : Coded.ofCode? (α := ChallengeState) w.toNat with
  | none => rfl
  | some s =>
    have small := exists_code.mp ⟨s, ofCode?_eq_some.mp found⟩
    omega

variable {pairs : List (Nat × Nat)} {ws : List Word}

theorem decodeAll_eq_ok (length : pairs.length = ws.length) {ss : List ChallengeState} :
    decodeAll pairs ws = .ok ss ↔ List.Forall₂ (fun w s => Coded.code s = w.toNat) ws ss := by
  have words : (ws.zip pairs).map (·.1) = ws := List.map_fst_zip (Nat.le_of_eq length.symm)
  conv_rhs => rw [← words, List.forall₂_map_left_iff]
  rw [decodeAll, Traverse.mapM_eq_ok]
  simp only [decode_eq_ok]

theorem decodeAll_eq_error (found : (ws.zip pairs).find? (3 < ·.1.toNat) = some (w, p, i)) :
    decodeAll pairs ws = .error (.invalidValue (.challenge p i) "challenge state" w.decimal) := by
  obtain ⟨large, pre, post, split, sooner⟩ := List.find?_eq_some_iff_append.mp found
  rw [decodeAll, split]
  refine Traverse.mapM_eq_error ?_ (decode_eq_error (of_decide_eq_true large))
  rintro ⟨v, p', i'⟩ m
  have small : v.toNat ≤ 3 := by simpa using sooner _ m
  obtain ⟨s, code⟩ := exists_code.mpr small
  exact ⟨s, decode_eq_ok.mpr code⟩

end ChallengeState

namespace Survey

open ChallengeState (Tells)

variable {ς : Survey} {α : Addresses} {f : Call → Outcome} {reason : Request → String}
  {proposals indices : List Nat} {pairs : List (Nat × Nat)} {ws : List Word}

def challengeWords (ς : Survey) (κ : Contract) (pairs : List (Nat × Nat)) : Snapshot (List Word) :=
  ς.inChunks ς.batching.challengeState (List.replicate pairs.length (0 : Word)) fun r _ =>
    ς.reader .challenges (readEach (r.part pairs) fun slot (p, i) => [ChallengeState.read κ slot p i])

theorem challengeStates_of_lengths (differ : proposals.length ≠ indices.length) :
    ς.challengeStates proposals indices =
      liftM (.error (.lengthMismatch "challenge indices" proposals.length indices.length) :
        Except SnapshotError (List ChallengeState)) := by
  rw [challengeStates, if_pos differ]
  rfl

theorem challengeStates_of_verifier (same : proposals.length = indices.length)
    (deployed : ς.network.protocolVerifier = .ok κ) :
    ς.challengeStates proposals indices = ς.challengeWords κ (proposals.zip indices) >>= fun ws =>
      liftM (ChallengeState.decodeAll (proposals.zip indices) ws) := by
  rw [challengeStates, if_neg (not_not.mpr same), deployed]
  rfl

theorem challengeStates_of_no_verifier (same : proposals.length = indices.length)
    (missing : ς.network.protocolVerifier = .error e) :
    ς.challengeStates proposals indices =
      liftM (.error (.contract e) : Except SnapshotError (List ChallengeState)) := by
  rw [challengeStates, if_neg (not_not.mpr same), missing]
  rfl

theorem toOption_challengeWords : ((ς.challengeWords κ pairs).eval (pointwise f reason)).toOption =
    pairs.mapM fun pair => Read.apply f 0 [ChallengeState.read κ 0 pair.1 pair.2] := by
  have records : List.replicate pairs.length (0 : Word) = pairs.map fun _ => 0 := List.map_const'.symm
  let reads (slot : Nat) (pair : Nat × Nat) := [ChallengeState.read κ slot pair.1 pair.2]
  have placed : Placed reads := fun _ _ => rfl
  rw [challengeWords, records]
  exact ς.toOption_readers .challenges placed fun _ _ => rfl

theorem eval_challengeWords :
    (ς.challengeWords ⟨.verifier, α.verifier⟩ pairs).eval (pointwise f reason) = .ok ws ↔
      List.Forall₂ (Tells α f) pairs ws := by
  rw [← Traverse.toOption_eq_some, toOption_challengeWords, Traverse.mapM_eq_some]
  simp only [ChallengeState.apply_read]

theorem returns_challengeWords (told : List.Forall₂ (Tells α f) pairs ws) :
    (ς.challengeWords ⟨.verifier, α.verifier⟩ pairs).Returns (pointwise f reason) ws :=
  (Program.returns_iff _ _ _).mpr (eval_challengeWords.mpr told)

/-- Lists of two lengths and a network without a verifier are refused unasked. Else each pair has the state
with the code that its own call is answered with; the first word that is no code is reported with its pair,
and short of an answer there are no states. The batch size has a say only in which failed answer is
reported. -/
theorem challengeStates_told (f : Call → Outcome) (reason : Request → String) (α : Addresses) (β : Batching)
    (block : Nat) (proposals indices : List Nat) :
    let states (β : Batching) := (⟨.ofAddresses α, β, block⟩ : Survey).challengeStates proposals indices
    let answer := pointwise f reason
    let pairs := proposals.zip indices
    (proposals.length ≠ indices.length → ∀ asked res, (states β).Run asked res ↔
      asked = [] ∧ res = .error (.lengthMismatch "challenge indices" proposals.length indices.length)) ∧
    (proposals.length = indices.length → α.verifier = 0 → ∀ asked res, (states β).Run asked res ↔
      asked = [] ∧ res = .error (.contract (.notDeployed Interface.verifier.name))) ∧
    (proposals.length = indices.length → α.verifier ≠ 0 →
      (∀ ws, List.Forall₂ (Tells α f) pairs ws →
        ((∀ w ∈ ws, w.toNat ≤ 3) → ∃ ss, List.Forall₂ (fun w s => Coded.code s = w.toNat) ws ss ∧
          ∀ res, (states β).Comes answer res ↔ res = .ok ss) ∧
        ∀ w p i, (ws.zip pairs).find? (3 < ·.1.toNat) = some (w, p, i) →
          ∀ res, (states β).Comes answer res ↔
            res = .error (.invalidValue (.challenge p i) "challenge state" w.decimal)) ∧
      ((∃ pair ∈ pairs, ∀ w, ¬Tells α f pair w) →
        ∀ res, (states β).Comes answer res → ∃ e, res = .error e) ∧
      ((∀ pair ∈ pairs, ∃ w, Tells α f pair w) → ∀ β' res,
        (states β').Comes answer res ↔ (states β).Comes answer res)) := by
  intro states answer pairs
  refine ⟨?lengths, ?missing, ?deployed⟩
  case lengths =>
    intro differ asked res
    simp only [states, challengeStates_of_lengths differ, Program.run_lift]
  case missing =>
    intro same zero asked res
    have missing : (Network.ofAddresses α).protocolVerifier = .error (.notDeployed Interface.verifier.name) := by
      rw [Network.protocolVerifier, Network.ofAddresses, if_pos zero]
    simp only [states, challengeStates_of_no_verifier (ς := ⟨.ofAddresses α, β, block⟩) same missing,
      Program.run_lift]
  case deployed =>
    intro same some
    have deployed : (Network.ofAddresses α).protocolVerifier = .ok ⟨.verifier, α.verifier⟩ :=
      Network.protocolVerifier_eq_ok.mpr ⟨some, rfl⟩
    have states_eq (β : Batching) : states β =
        challengeWords ⟨.ofAddresses α, β, block⟩ ⟨.verifier, α.verifier⟩ pairs >>= fun ws =>
          liftM (ChallengeState.decodeAll pairs ws) := challengeStates_of_verifier same deployed
    have comes {ws : List Word} (told : List.Forall₂ (Tells α f) pairs ws) (β : Batching) res :
        (states β).Comes answer res ↔ res = ChallengeState.decodeAll pairs ws := by
      rw [states_eq, Program.comes_bind_iff (returns_challengeWords told), Program.comes_lift]
    refine ⟨fun ws told => ⟨?codes, ?report⟩, ?failed, ?sizes⟩
    case codes =>
      intro small
      obtain ⟨ss, codes⟩ := Traverse.exists_forall₂.mpr fun w m => ChallengeState.exists_code.mpr (small w m)
      refine ⟨ss, codes, fun res => ?_⟩
      rw [comes told, (ChallengeState.decodeAll_eq_ok told.length_eq).mpr codes]
    case report =>
      intro w p i found res
      rw [comes told, ChallengeState.decodeAll_eq_error found]
    case failed =>
      rintro ⟨pair, m, none⟩ res c
      refine c.fails ?_
      rintro ⟨ss, returns⟩
      rw [Program.returns_iff, states_eq, Program.eval_bind] at returns
      obtain ⟨ws, all, -⟩ := Traverse.bind_eq_ok.mp returns
      obtain ⟨w, -, tells⟩ := Traverse.exists_left (eval_challengeWords.mp all).flip m
      exact none w tells
    case sizes =>
      intro all β' res
      obtain ⟨ws, told⟩ := Traverse.exists_forall₂.mpr all
      rw [comes told, comes told]

/-- A word whose last byte is a code is not that code. -/
theorem challengeStates_told_wide :
    let ς : Survey := ⟨.ofAddresses ⟨1, 2, 3, 4, 5, 6, 7, 8, 9⟩, { challengeState := 0 }, 0⟩
    ∀ res, (ς.challengeStates [4, 4] [0, 7]).Comes
        (pointwise (fun _ => ⟨true, Abi.encode [.uint 259]⟩) fun _ => "") res ↔
      res = .error (.invalidValue (.challenge 4 0) "challenge state" (Word.decimal 259)) := by
  intro ς
  let f (_ : Call) : Outcome := ⟨true, Abi.encode [.uint 259]⟩
  let α : Addresses := ⟨1, 2, 3, 4, 5, 6, 7, 8, 9⟩
  have tells (pair : Nat × Nat) : Tells α f pair 259 :=
    ⟨rfl, Value.decode_encode_elementary trivial rfl trivial⟩
  have told : List.Forall₂ (Tells α f) ([4, 4].zip [0, 7]) [259, 259] := .cons (tells _) (.cons (tells _) .nil)
  have states := (challengeStates_told f (fun _ => "") α { challengeState := 0 } 0 [4, 4] [0, 7]).2.2 rfl
    (by decide)
  exact (states.1 _ told).2 259 4 0 (by decide)

/-- A worker of reads goes as its one batch goes. -/
theorem run_reader {s : Stage} {ρs : List (Read R)} {b : Batch R} (made : Batch.ofReads ρs = .ok b)
    (full : b ≠ []) (answer : Request → Reply) (rs : List R) :
    (ς.reader s ρs).run answer rs =
      match b.settle .strict (answer (b.request .strict ς.block)) rs with
      | (rs, .ok _) => (rs, none)
      | (rs, .error e) => (rs, some (.batch s e)) := by
  rw [reader, Read.worker, Read.workerWith, made]
  cases b with
  | nil => exact absurd rfl full
  | cons e b =>
    simp only [Batch.worker, List.isEmpty_cons, Bool.false_eq_true, if_false, Worker.run, Move.effect]
    cases Batch.settle (e :: b) .strict (answer _) rs with
    | mk rs' o => cases o <;> rfl

/-- A request that may not fail is refused for one call that does. -/
theorem run_reader_refused {s : Stage} {ρs : List (Read R)} (calls : List.Forall₂ Read.Calls ρs cs)
    (m : c ∈ cs) (failed : ¬(f c).success) (rs : List R) :
    (ς.reader s ρs).run (pointwise f reason) rs =
      (rs, some (.batch s (.reverted (reason ⟨cs, false, ς.block⟩)))) := by
  obtain ⟨b, made, rfl⟩ := Read.exists_ofReads calls
  have full : b ≠ [] := fun none => by
    rw [none] at m
    cases m
  rw [run_reader made full, pointwise_refuses rfl m failed]
  rfl

/-- The only task of a stage fails for all that comes after it. -/
theorem eq_of_fails {τ : Task Request Reply SnapshotError R} {k : List R → Snapshot β}
    (fails : Task.runAll answer [τ] = .error e) (comes : (Program.together limit [τ] >>= k).Comes answer r) :
    r = .error e := by
  obtain ⟨asked, run, now⟩ := comes
  obtain ⟨parts, course, rfl⟩ := run.course
  rcases Program.Course.of_together_bind course with ⟨part, rest, ws, rfl, first, -⟩ | ⟨part, e, rfl, first, rfl⟩
  all_goals
    obtain ⟨_, ⟨⟩, round⟩ := Program.Course.of_together first
    have same := round.eq_runAll (Answered.append_iff.mp now).1
    cases same.trans fails
  rfl

theorem challengeWords_apart (one : ς.batching.challengeState = 1) (p q : Nat × Nat) :
    ς.challengeWords κ [p, q] = .together ς.batching.maxConcurrent
      [⟨[0], ς.reader .challenges [ChallengeState.read κ 0 p.1 p.2]⟩,
        ⟨[0], ς.reader .challenges [ChallengeState.read κ 0 q.1 q.2]⟩] := by
  rw [challengeWords, inChunks, one, Task.chunked_eq]
  change Program.together _ ((Chunk.ranges 2 1).map _) = _
  rfl

theorem challengeWords_joined (two : ς.batching.challengeState = 2) (p q : Nat × Nat) :
    ς.challengeWords κ [p, q] = .together ς.batching.maxConcurrent
      [⟨[0, 0], ς.reader .challenges [ChallengeState.read κ 0 p.1 p.2, ChallengeState.read κ 1 q.1 q.2]⟩] := by
  rw [challengeWords, inChunks, two, Task.chunked_eq]
  change Program.together _ ((Chunk.ranges 2 2).map _) = _
  rfl

/-- The first pair is answered with nothing and the second refused. In a batch of their own the answer is
what fails; together they are refused. -/
theorem challengeStates_two_failures :
    let α : Addresses := ⟨0xa001, 0xa002, 0xa003, 0xa004, 0xa005, 0xa006, 0xa007, 0xa008, 0xa009⟩
    let states (size : Nat) := challengeStates
      ⟨.ofAddresses α, { challengeState := size, maxConcurrent := 1 }, 19000000⟩ [1, 2] [1, 2]
    let answer := pointwise (fun c => ⟨c = ChallengeState.call α (1, 1), []⟩) fun _ => "execution reverted"
    (states 1).Comes answer
        (.error (.batch .challenges (.decode "getChallengeState" α.verifier Abi.DecodeError.noData.message))) ∧
      ∀ res, (states 2).Comes answer res →
        res = .error (.batch .challenges (.reverted "execution reverted")) := by
  intro α states answer
  let κ : Contract := ⟨.verifier, α.verifier⟩
  let ς (size : Nat) : Survey :=
    ⟨.ofAddresses α, { challengeState := size, maxConcurrent := 1 }, 19000000⟩
  let read (slot p : Nat) := ChallengeState.read κ slot p p
  have calls (slot p : Nat) : (read slot p).Calls (ChallengeState.call α (p, p)) :=
    Read.calls_of rfl rfl rfl rfl
  have states_eq (size : Nat) : states size = (ς size).challengeWords κ [(1, 1), (2, 2)] >>= fun ws =>
      liftM (ChallengeState.decodeAll [(1, 1), (2, 2)] ws) := challengeStates_of_verifier rfl rfl
  constructor
  · have undecoded : ((ς 1).reader .challenges [read 0 1]).run answer [0] = ([0], some (.batch .challenges
        (.decode "getChallengeState" α.verifier Abi.DecodeError.noData.message))) := by
      obtain ⟨e, made, called⟩ := calls 0 1
      have batch : Batch.ofReads [read 0 1] = .ok [e] := Traverse.mapM_eq_ok.mpr (.cons made .nil)
      have reply : answer (Batch.request [e] .strict (ς 1).block) = .ok [⟨true, []⟩] := by
        refine (pointwise_answers (.inr ?_)).trans ?_ <;> simp [Batch.request, called]
      rw [run_reader batch (List.cons_ne_nil e []), reply]
      cases made.symm.trans (Read.entry_eq rfl rfl)
      rfl
    have stops : (states 1).eval answer = .error (.batch .challenges
        (.decode "getChallengeState" α.verifier Abi.DecodeError.noData.message)) := by
      rw [states_eq, challengeWords_apart rfl, Program.eval_bind, Program.eval_together, Task.runAll, undecoded]
      rfl
    rw [← stops]
    exact Program.comes_eval answer (states 1)
  · intro res comes
    have other : ChallengeState.call α (2, 2) ≠ ChallengeState.call α (1, 1) := by
      intro same
      obtain ⟨-, -, encoded⟩ := Call.to_inj (Interface.known_of_mem (by decide))
        (Interface.known_of_mem (by decide)) same
      exact absurd encoded (by decide)
    have refused : ((ς 2).reader .challenges [read 0 1, read 1 2]).run answer [0, 0] =
        ([0, 0], some (.batch .challenges (.reverted "execution reverted"))) :=
      run_reader_refused (.cons (calls 0 1) (.cons (calls 1 2) .nil))
        (List.mem_cons_of_mem _ (List.mem_singleton_self _)) (by simpa using other) _
    rw [states_eq, challengeWords_joined rfl] at comes
    refine eq_of_fails ?_ comes
    rw [Task.runAll, refused]

end Survey

end PoolSnapshot
