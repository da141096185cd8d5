import PoolSnapshot.Peer.Script
import PoolSnapshot.Proofs.Abi.RoundTrip
import PoolSnapshot.Proofs.Batch.Queue
import PoolSnapshot.Proofs.Contract.Selectors

/-!
Calls read back. The first four bytes of a call lead to its function, and the bytes after them to its
arguments, as long as each of these fills one word.
-/
namespace PoolSnapshot

namespace Abi

/-- Types whose values fill one word. -/
def Ty.IsWord : Ty → Prop
  | .address | .bool | .uint _ | .int _ => True
  | .fixedBytes n => n = 32
  | _ => False

instance : DecidablePred Ty.IsWord
  | .address | .bool | .uint _ | .int _ => .isTrue trivial
  | .fixedBytes n => inferInstanceAs (Decidable (n = 32))
  | .bytes | .string | .array _ | .vector _ _ | .tuple _ => .isFalse id

namespace Value

/-- Values of such types. -/
def IsWord : Value → Prop
  | .address _ | .bool _ | .uint _ | .int _ => True
  | .fixedBytes b => b.length = 32
  | _ => False

variable {v : Value} {vs : List Value} {t : Ty} {ts : List Ty}

theorem IsWord.hasTy (h : v.IsWord) (type : t.IsWord) (fit : v.fits t = true) : v.HasTy t := by
  cases v <;> cases t
  case fixedBytes.fixedBytes =>
    rw [Ty.IsWord] at type
    subst type
    exact ⟨h, by decide, by decide⟩
  all_goals trivial

theorem IsWord.part (h : v.IsWord) : v.dynamic = false ∧ v.body.length = 32 := by
  cases v with
  | address | bool | uint | int => exact ⟨rfl, length_word _⟩
  | fixedBytes b =>
    refine ⟨rfl, ?_⟩
    rw [IsWord] at h
    simp [body, padRight, h]
  | bytes | string | array | vector | tuple => exact h.elim

theorem eachHasTy_of_words (words : ∀ v ∈ vs, v.IsWord) (types : ∀ t ∈ ts, t.IsWord)
    (fits : eachFits vs ts = true) : EachHasTy vs ts := by
  induction vs generalizing ts with
  | nil =>
    cases ts with
    | nil => trivial
    | cons => cases fits
  | cons v vs ih =>
    cases ts with
    | nil => cases fits
    | cons t ts =>
      rw [eachFits, Bool.and_eq_true] at fits
      obtain ⟨word, words⟩ := List.forall_mem_cons.mp words
      obtain ⟨type, types⟩ := List.forall_mem_cons.mp types
      exact ⟨word.hasTy type fits.1, ih words types fits.2⟩

theorem length_encode_words (words : ∀ v ∈ vs, v.IsWord) : (encode vs).length = 32 * vs.length := by
  have parts : ∀ p ∈ parts vs, p.dynamic = false ∧ p.body.length = 32 := by
    induction vs with
    | nil => exact List.forall_mem_nil _
    | cons v vs ih =>
      obtain ⟨word, words⟩ := List.forall_mem_cons.mp words
      exact List.forall_mem_cons.mpr ⟨word.part, ih words⟩
  rw [encode, Part.join_of_static fun p m => (parts p m).1, List.length_flatMap,
    List.map_congr_left fun p m => (parts p m).2]
  simp [Nat.mul_comm]

/-- Words are read back, none as well as some. -/
theorem decode_encode_words (words : ∀ v ∈ vs, v.IsWord) (types : ∀ t ∈ ts, t.IsWord)
    (fits : eachFits vs ts = true) (few : vs.length < 2 ^ 27) : decode ts (encode vs) = .ok vs := by
  have length := length_encode_words words
  have typed := eachHasTy_of_words words types fits
  rw [← List.append_nil (encode vs)]
  refine decode_encode_append typed (by omega) (fun none => ?_) []
  rw [none, List.length_nil] at length
  obtain rfl : vs = [] := List.eq_nil_of_length_eq_zero (by omega)
  cases ts with
  | nil => rfl
  | cons => cases fits

end Value

end Abi

open Abi (Function Value)

open Interface (catalogue functions knownFunctions)

namespace Interface

theorem takes_words {f : Function} (m : f ∈ knownFunctions) :
    (∀ t ∈ f.inputTypes, t.IsWord) ∧ f.inputTypes.length ≤ 2 :=
  (by decide : ∀ f ∈ catalogue.flatMap functions, (∀ t ∈ f.inputTypes, t.IsWord) ∧ f.inputTypes.length ≤ 2)
    f (knownFunctions_perm.mem_iff.mp m)

theorem nodup_names : (knownFunctions.map (·.name)).Nodup := by
  refine (knownFunctions_perm.map _).nodup_iff.mpr ?_
  decide

/-- A known function stands once in the list, and no other has its selector. -/
theorem exists_split {f : Function} (m : f ∈ knownFunctions) :
    ∃ pre post, knownFunctions = pre ++ f :: post ∧
      (∀ g ∈ pre, g.selector ≠ f.selector) ∧ ∀ g ∈ post, g.selector ≠ f.selector := by
  obtain ⟨pre, post, split⟩ := List.append_of_mem m
  have apart := nodup_selectors
  rw [split, List.map_append, List.map_cons, List.nodup_append, List.nodup_cons] at apart
  obtain ⟨-, ⟨last, -⟩, first⟩ := apart
  refine ⟨pre, post, split, fun g n same => ?_, fun g n same => ?_⟩
  · exact first _ (List.mem_map_of_mem n) _ List.mem_cons_self same
  · exact last (same ▸ List.mem_map_of_mem n)

theorem filter_selector {f : Function} (m : f ∈ knownFunctions) :
    knownFunctions.filter (·.selector = f.selector) = [f] := by
  obtain ⟨pre, post, split, before, after⟩ := exists_split m
  rw [split, List.filter_append, List.filter_cons_of_pos (by simp),
    List.filter_eq_nil_iff.mpr fun g n => by simpa using before g n,
    List.filter_eq_nil_iff.mpr fun g n => by simpa using after g n]
  rfl

theorem lookup_directory {f : Function} (m : f ∈ knownFunctions) :
    Peer.directory.lookup f.selector = some f := by
  obtain ⟨pre, post, split, before, -⟩ := exists_split m
  refine List.lookup_eq_some_iff.mpr ⟨pre.map fun g => (g.selector, g), post.map fun g => (g.selector, g), ?_, ?_⟩
  · rw [Peer.directory, split, List.map_append, List.map_cons]
  · rw [List.forall_mem_map]
    exact fun g n => bne_iff_ne.mpr (before g n).symm

end Interface

/-- The data of a call shows which function it asks of its target, and for which arguments. -/
structure Call.Tells (c : Call) (a : Address) (f : Function) (args : List Value) : Prop where
  target : c.target = a
  function : knownFunctions.filter (·.selector = c.data.take 4) = [f]
  arguments : Abi.decode f.inputTypes (c.data.drop 4) = .ok args
  /-- Whoever knows the functions can answer. -/
  asked : Peer.asked? c = some ⟨a, f, args⟩

namespace Call

variable {c c' : Call} {f f' : Function} {args args' : List Value}

/-- Equal data is of the same function with the same arguments. -/
theorem Tells.inj (h : c.Tells a f args) (h' : c'.Tells a' f' args') (same : c.data = c'.data) :
    f = f' ∧ args = args' := by
  have function := h.function
  have arguments := h.arguments
  rw [same, h'.function] at function
  obtain rfl : f' = f := List.head_eq_of_cons_eq function
  rw [same, h'.arguments] at arguments
  exact ⟨rfl, (Except.ok.inj arguments).symm⟩

theorem tells_to (known : f ∈ knownFunctions) (words : ∀ v ∈ args, v.IsWord)
    (fits : Value.eachFits args f.inputTypes = true) : (Call.to a f.signature args).Tells a f args := by
  obtain ⟨types, few⟩ := Interface.takes_words known
  have length := (Value.eachFits_iff.mp fits).length
  have first : (Call.to a f.signature args).data.take 4 = f.selector := List.take_left' f.length_selector
  have rest : (Call.to a f.signature args).data.drop 4 = Abi.encode args := List.drop_left' f.length_selector
  have arguments : Abi.decode f.inputTypes ((Call.to a f.signature args).data.drop 4) = .ok args := by
    rw [rest]
    exact Value.decode_encode_words words types fits (by omega)
  refine ⟨rfl, ?_, arguments, ?_⟩
  · rw [first]
    exact Interface.filter_selector known
  · simp only [Peer.asked?, first, Interface.lookup_directory known, Option.bind_eq_bind, Option.bind_some,
      Abi.Function.decodeInput, arguments]
    rfl

end Call

end PoolSnapshot
