import PoolSnapshot.Proofs.Program.Every
import PoolSnapshot.Proofs.Survey.Blame
import PoolSnapshot.Proofs.Survey.Queued

/-!
Tasks that a survey is made of. Each asks at its one block what its reads are made by, leniently for
versions alone, and fails only of a reply: no read is misnamed, no slot is out of range, and what can be
decoded can be stored.
-/
namespace PoolSnapshot

open Interface (knownFunctions)

/-- The replies that an error is the result of. -/
inductive BatchError.Follows (asked : List (Request × Reply)) : BatchError → Prop
  | round (m : (q, .error err) ∈ asked) : Follows asked err
  | count (m : (q, .ok os) ∈ asked) (h : os.length ≠ q.calls.length) :
      Follows asked (.outcomeCount q.calls.length os.length)
  | call (m : (q, .ok os) ∈ asked) (here : (q.calls.zip os)[i]? = some (.to a f.signature args, o))
      (known : f ∈ knownFunctions) (failed : ¬o.success) : Follows asked (.callFailed i f.name a)
  | output (m : (q, .ok os) ∈ asked) (here : (.to a f.signature args, o) ∈ q.calls.zip os)
      (known : f ∈ knownFunctions) (success : o.success) (unread : f.decodeOutput o.data = .error d) :
      Follows asked (.decode f.name a d.message)

theorem BatchError.Follows.mono {asked asked' : List (Request × Reply)} (h : Follows asked err)
    (sub : asked ⊆ asked') : Follows asked' err := by
  cases h with
  | round m => exact .round (sub m)
  | count m h => exact .count (sub m) h
  | call m here known failed => exact .call (sub m) here known failed
  | output m here known success unread => exact .output (sub m) here known success unread

/-- A field of the right type leaves nothing to go wrong but the decoding. -/
theorem Read.Declares.decode_eq_error {ρ : Read R} (d : ρ.Declares f t)
    (h : (ρ.queued f).decode data = .error r) : ∃ e, f.decodeOutput data = .error e ∧ r = e.message := by
  rw [Entry.decode] at h
  cases decoded : f.decodeOutput data with
  | error e =>
    simp only [queued, decoded] at h
    cases h
    exact ⟨e, rfl, rfl⟩
  | ok vs =>
    have decodes := decoded
    rw [Abi.Function.decodeOutput, d.answers] at decodes
    obtain ⟨v, off, -, rfl⟩ := Abi.exists_of_decode decodes
    obtain ⟨g, stored⟩ := d.stores v (Abi.Value.ofKind_of_decode d.elementary decodes)
    simp only [queued, decoded, stored] at h
    cases h

/-- Entries of listed reads, each for one of the first `n` records. -/
def Batch.Listed (mode : CallMode) (n : Nat) (b : Batch R) : Prop :=
  ∀ e ∈ b, ∃ slot < n, ∃ ρ : Read R, ρ.Listed mode slot ∧ ρ.entry = .ok e

theorem Read.listed_ofReads {ρs : List (Read R)} (each : ∀ ρ ∈ ρs, ∃ slot < n, ρ.Listed mode slot) :
    ∃ b, Batch.ofReads ρs = .ok b ∧ b.Listed mode n := by
  obtain ⟨b, made, -⟩ := Batch.exists_ofReads fun ρ m => by
    obtain ⟨slot, -, l⟩ := each ρ m
    obtain ⟨f, -, t, d⟩ := l.declares
    exact ⟨f, t, d⟩
  refine ⟨b, made, fun e m => ?_⟩
  obtain ⟨ρ, k, queued⟩ := Traverse.exists_left (Traverse.mapM_eq_ok.mp made) m
  obtain ⟨slot, inside, l⟩ := each ρ k
  exact ⟨slot, inside, ρ, l, queued⟩

namespace Batch.Listed

variable {b : Batch R}

/-- A request that is made at all is lenient exactly if it asks for versions alone. -/
theorem lenient_iff (h : b.Listed mode n) (some : b ≠ []) (block : Nat) :
    (b.request mode block).allowFailure = true ↔ ∀ c ∈ (b.request mode block).calls, c.IsProbe := by
  have probes : ∀ e ∈ b, (mode = .lenient ↔ e.call.IsProbe) := by
    intro e m
    obtain ⟨slot, -, ρ, l, queued⟩ := h e m
    exact l.probes e queued
  have flag : (b.request mode block).allowFailure = true ↔ mode = .lenient := decide_eq_true_iff
  rw [flag, request, List.forall_mem_map]
  constructor
  · exact fun lenient e m => (probes e m).mp lenient
  · intro all
    obtain ⟨e, m⟩ := List.exists_mem_of_ne_nil b some
    exact (probes e m).mpr (all e m)

theorem within (h : b.Listed mode n) : b.Within n := by
  intro e m
  obtain ⟨slot, inside, ρ, l, queued⟩ := h e m
  rw [Read.slot_entry queued, l.slot_eq]
  exact inside

theorem declared (h : b.Listed mode n) :
    ∀ e ∈ b, ∃ ρ : Read R, ∃ f ∈ knownFunctions, ∃ t, ρ.Declares f t ∧ e = ρ.queued f := by
  intro e m
  obtain ⟨slot, -, ρ, l, queued⟩ := h e m
  obtain ⟨f, known, t, d⟩ := l.declares
  cases queued.symm.trans (Read.entry_eq d.found d.fits)
  exact ⟨ρ, f, known, t, d, rfl⟩

end Batch.Listed

theorem Batch.Refuses.follows {b : Batch R} (h : b.Refuses mode reply err) (listed : b.Listed mode n)
    (block : Nat) : err.Follows [(b.request mode block, reply)] := by
  have calls (os : List Outcome) : (b.request mode block).calls.zip os =
      (b.zip os).map fun p => (p.1.call, p.2) := List.zip_map_left ..
  have length : (b.request mode block).calls.length = b.length := List.length_map _
  cases h with
  | round => exact .round (List.mem_singleton_self _)
  | @count _ os h =>
    rw [← length] at h ⊢
    exact .count (List.mem_singleton_self _) h
  | @call os pre e o post count split first failed =>
    have m : (e, o) ∈ b.zip os := split ▸ List.mem_append_right pre List.mem_cons_self
    obtain ⟨ρ, f, known, t, -, rfl⟩ := listed.declared e (List.of_mem_zip m).1
    have here : ((b.request .strict block).calls.zip os)[pre.length]? =
        some (.to ρ.contract.address f.signature ρ.args, o) := by
      rw [calls, split, List.getElem?_map, List.getElem?_append_right (Nat.le_refl _), Nat.sub_self]
      rfl
    exact .call (List.mem_singleton_self _) here known failed
  | @output os pre e o post r count split first succeeded unread =>
    have m : (e, o) ∈ b.zip os := split ▸ List.mem_append_right pre List.mem_cons_self
    obtain ⟨ρ, f, known, t, d, rfl⟩ := listed.declared e (List.of_mem_zip m).1
    obtain ⟨err, undecoded, rfl⟩ := d.decode_eq_error unread
    have here : (.to ρ.contract.address f.signature ρ.args, o) ∈
        (b.request .strict block).calls.zip os := by
      rw [calls]
      exact List.mem_map_of_mem m
    exact .output (List.mem_singleton_self _) here known succeeded undecoded

/-- Questions of one block, lenient where they are probes and nowhere else, with the calls of queued
reads, and no failure but by the replies to them, or one of `E`. -/
structure Task.Sound (source? : ε → Option BatchError) (E : ε → Prop) (block : Nat) (R : Type)
    (τ : Task Request Reply ε R) : Prop where
  asks : ∀ q ∈ τ.worker.questions,
    q.block = block ∧ (q.allowFailure = true ↔ ∀ c ∈ q.calls, c.IsProbe)
  reads : ∀ q ∈ τ.worker.questions, ∃ ρs : List (Read R), Read.Make ρs q.calls
  fails : ∀ heard due c e, τ.worker.Goes τ.records heard due c → c.failure? = some e →
    (∃ err, source? e = some err ∧ err.Follows heard) ∨ E e

namespace Task.Sound

variable {R S : Type} {source? : ε → Option BatchError} {E : ε → Prop} {block : Nat} {rs : List R} {mode : CallMode}

theorem workerWith {ρs : List (Read R)} {report : BatchError → ε} {finish : List Bool → List R → List R}
    (each : ∀ ρ ∈ ρs, ∃ slot < rs.length, ρ.Queued mode slot)
    (reports : ∀ err, source? (report err) = some err) :
    Sound source? E block R ⟨rs, Read.workerWith ρs mode block report finish⟩ := by
  obtain ⟨b, made, listed⟩ := Read.listed_ofReads fun ρ m => by
    obtain ⟨slot, inside, queued⟩ := each ρ m
    exact ⟨slot, inside, queued.listed⟩
  have worker : Read.workerWith ρs mode block report finish = b.worker mode block report finish := by
    rw [Read.workerWith, made]
  rw [worker]
  constructor
  · intro q m
    obtain ⟨some, rfl⟩ := Batch.mem_questions m
    exact ⟨rfl, listed.lenient_iff some block⟩
  · intro q m
    obtain ⟨-, rfl⟩ := Batch.mem_questions m
    refine ⟨ρs, fun ρ m => ?_, Read.calls_ofReads made⟩
    obtain ⟨slot, -, queued⟩ := each ρ m
    exact ⟨mode, slot, queued⟩
  · intro heard due c e goes failed
    obtain ⟨reply, rs', err, rfl, settled, rfl⟩ := Batch.failed_worker goes failed
    have refused := Batch.refuses_of_settle listed.within settled
    exact .inl ⟨err, reports err, refused.follows listed block⟩

theorem fail (other : E e) : Sound source? E block R ⟨rs, Worker.fail e⟩ := by
  constructor
  · exact List.forall_mem_nil _
  · exact List.forall_mem_nil _
  · intro heard due c e' goes failed
    cases goes with
    | here => cases failed
    | change h => cases h
    | fail h =>
      cases h
      cases failed
      exact .inr other

theorem change {f : List R → List R} {ω : Worker Request Reply ε R}
    (rest : Sound source? E block R ⟨f rs, ω⟩) :
    Sound source? E block R ⟨rs, .change (fun rs => (f rs, none)) :: ω⟩ := by
  constructor
  · exact rest.asks
  · exact rest.reads
  · intro heard due c e goes failed
    cases goes with
    | here => cases failed
    | change h goes =>
      cases h
      exact rest.fails _ _ _ _ goes failed
    | fail h => cases h

theorem chunked {size : Nat} {records : List R} {worker : Range → List R → Worker Request Reply ε R}
    (each : ∀ r ∈ Chunk.ranges records.length size,
      Sound source? E block R ⟨r.part records, worker r (r.part records)⟩) :
    ∀ τ ∈ Task.chunked size records worker, Sound source? E block R τ := by
  rw [Task.chunked_eq]
  exact List.forall_mem_map.mpr each

end Task.Sound

theorem Read.queued_readEach {reads : Nat → S → List (Read R)} {items : List S} (length : items.length = n)
    (each : ∀ slot x, ∀ ρ ∈ reads slot x, ρ.Queued mode slot) :
    ∀ ρ ∈ readEach items reads, ∃ slot < n, ρ.Queued mode slot := by
  intro ρ m
  obtain ⟨slot, x, here, own⟩ := Read.mem_readEach.mp m
  obtain ⟨inside, rfl⟩ := List.getElem?_eq_some_iff.mp here
  exact ⟨slot, length ▸ inside, each slot _ ρ own⟩

end PoolSnapshot
