import Mathlib.Data.List.Nodup
import Mathlib.Data.Option.Basic
import PoolSnapshot.Settings.Source
import PoolSnapshot.Toml.Document

/-!
What a file lays down. No key of a document stands twice, so that each is found where it was written.
-/
namespace PoolSnapshot

namespace Toml

namespace Value

/-- The entries of a table; anything else has none. -/
def entries : Value → List (String × Value)
  | .table es => es
  | _ => []

def at? (v : Value) (k : String) : Option Value := v.entries.lookup k

def IsTable : Value → Prop
  | .table _ => True
  | _ => False

instance : DecidablePred IsTable
  | .table _ => .isTrue trivial
  | .leaf _ | .list _ => .isFalse id

theorem IsTable.exists_eq {v : Value} (h : v.IsTable) : ∃ es, v = .table es := by
  cases v with
  | leaf | list => cases h
  | table es => exact ⟨es, rfl⟩

end Value

namespace Node

theorem closeEach_eq_some {es : Entries} (h : closeEach es = some vs) :
    vs.map (·.1) = es.map (·.1) ∧ (es.map (·.1)).Nodup ∧ ∀ e ∈ vs, ∃ n : Node, n.close = some e.2 := by
  induction es generalizing vs with
  | nil =>
    cases h
    exact ⟨rfl, .nil, List.forall_mem_nil _⟩
  | cons e es ih =>
    obtain ⟨k, n⟩ := e
    rw [closeEach] at h
    split at h
    · cases h
    · next once =>
      obtain ⟨v, closed, h⟩ := Option.bind_eq_some_iff.mp h
      obtain ⟨vs', rest, h⟩ := Option.bind_eq_some_iff.mp h
      cases h
      obtain ⟨keys, apart, each⟩ := ih rest
      refine ⟨by rw [List.map_cons, List.map_cons, keys], ?_, List.forall_mem_cons.mpr ⟨⟨n, closed⟩, each⟩⟩
      refine List.nodup_cons.mpr ⟨fun m => once ?_, apart⟩
      simpa using m

/-- A table that was closed has no key twice, and neither has a table in it. -/
theorem nodup_of_close {n : Node} (h : n.close = some v) :
    (v.entries.map (·.1)).Nodup ∧ ∀ e ∈ v.entries, ∃ n : Node, n.close = some e.2 := by
  have none : (([] : List (String × Value)).map (·.1)).Nodup ∧
      ∀ e ∈ ([] : List (String × Value)), ∃ n : Node, n.close = some e.2 :=
    ⟨.nil, List.forall_mem_nil _⟩
  cases n with
  | leaf | moment =>
    cases h
    exact none
  | list ns =>
    obtain ⟨_, -, rfl⟩ := Option.map_eq_some_iff.mp h
    exact none
  | rows done es =>
    obtain ⟨_, -, h⟩ := Option.bind_eq_some_iff.mp h
    obtain ⟨_, -, h⟩ := Option.bind_eq_some_iff.mp h
    cases h
    exact none
  | table mark es =>
    rw [close, closed] at h
    split at h
    · obtain ⟨_, -, rfl⟩ := Option.map_eq_some_iff.mp h
      exact none
    · obtain ⟨vs, closed, rfl⟩ := Option.map_eq_some_iff.mp h
      obtain ⟨keys, apart, each⟩ := closeEach_eq_some closed
      exact ⟨keys ▸ apart, each⟩

end Node

theorem exists_close (h : parse? text = some document) : ∃ n : Node, n.close = some document := by
  obtain ⟨_, -, h⟩ := Option.bind_eq_some_iff.mp h
  obtain ⟨_, -, h⟩ := Option.bind_eq_some_iff.mp h
  obtain ⟨_, -, h⟩ := Option.bind_eq_some_iff.mp h
  exact ⟨_, h⟩

end Toml

namespace Layered

namespace Step

theorem more?_of_not (n : Nat) {c : Char} (point : c ≠ '.') (bracket : c ≠ '[') (s : List Char) :
    more? n (c :: s) = none := by
  cases n <;> simp [more?, point, bracket]

/-- A key without points and brackets is one step. -/
theorem path_eq {k : String} (point : '.' ∉ k.toList) (bracket : '[' ∉ k.toList) :
    path k.toList = [.key k] := by
  have parts : k.toList.takeWhile isKeyChar ++ k.toList.dropWhile isKeyChar = k.toList :=
    List.takeWhile_append_dropWhile
  have whole : more? (k.toList.length + 1) ('.' :: k.toList) = none ∨
      more? (k.toList.length + 1) ('.' :: k.toList) = some [.key k] := by
    rw [more?]
    split
    · exact .inl rfl
    · cases rest : k.toList.dropWhile isKeyChar with
      | nil =>
        rw [rest, List.append_nil] at parts
        rw [parts, String.ofList_toList]
        cases k.toList.length <;> exact .inr rfl
      | cons d ds =>
        have m : d ∈ k.toList := by
          rw [← parts, rest]
          exact List.mem_append_right _ List.mem_cons_self
        rw [more?_of_not _ (fun h => point (h ▸ m)) fun h => bracket (h ▸ m)]
        exact .inl rfl
  rw [path]
  rcases whole with none | some
  · rw [none, Option.getD_none, String.ofList_toList]
  · rw [some, Option.getD_some]

end Step

/-- A key in a section. -/
def at? (t : Layered) (s k : String) : Option Layered := (t.get? s).bind (·.get? k)

def IsTable : Layered → Prop
  | .table .. => True
  | _ => False

/-- The same scalar, or something else of the same kind. -/
def Shows : Layered → Toml.Value → Prop
  | .leaf _ s, .leaf s' => s = s'
  | .list .., .list _ => True
  | .table .., .table _ => True
  | _, _ => False

variable {t : Layered} {es : List (String × Layered)}

theorem IsTable.put (h : t.IsTable) (k : String) (v : Layered) : (t.put k v).IsTable := by
  cases t <;> first | exact h | trivial

theorem IsTable.ontoEach (h : t.IsTable) (es : List (String × Layered)) : (Layered.ontoEach es t).IsTable := by
  induction es generalizing t with
  | nil => exact h
  | cons e es ih => exact ih (h.put _ _)

theorem get?_ontoEach (apart : (es.map (·.1)).Nodup) (t : Layered) (k : String) :
    (ontoEach es t).get? k = (es.lookup k).elim (t.get? k) fun v => some (v.onto (t.under k)) := by
  induction es generalizing t with
  | nil => rfl
  | cons e es ih =>
    obtain ⟨k', v⟩ := e
    obtain ⟨once, apart⟩ := List.nodup_cons.mp apart
    have later : (ontoEach ((k', v) :: es) t) = ontoEach es (t.put k' (v.onto (t.under k'))) := rfl
    rw [later, ih apart, Keyed.lookup_cons, get?_put]
    by_cases here : k = k'
    · subst here
      have gone : es.lookup k = none := by
        refine List.lookup_eq_none_iff.mpr fun p m => ?_
        exact bne_iff_ne.mpr fun same => once (List.mem_map.mpr ⟨p, m, same.symm⟩)
      rw [if_pos rfl, gone, if_pos rfl]
      rfl
    · have under : (t.put k' (v.onto (t.under k'))).under k = t.under k := by
        rw [Layered.under, get?_put, if_neg here]
        rfl
      rw [if_neg here, if_neg here, under]

theorem foldlM_lay (plain : ∀ e ∈ es, '.' ∉ e.1.toList ∧ '[' ∉ e.1.toList) (t : Layered) :
    es.foldlM (fun t (k, v) => t.lay (Step.path k.toList) v) t = some (ontoEach es t) := by
  induction es generalizing t with
  | nil => rfl
  | cons e es ih =>
    obtain ⟨k, v⟩ := e
    obtain ⟨⟨point, bracket⟩, later⟩ := List.forall_mem_cons.mp plain
    have lay : t.lay (Step.path k.toList) v = some (t.put k (v.onto (t.under k))) := by
      rw [Step.path_eq point bracket]
      rfl
    simp only [List.foldlM_cons, lay]
    exact ih later _

theorem ofEntries_eq (es : List (String × Toml.Value)) :
    ofEntries es = es.map fun e => (e.1, ofDocument e.2) := by
  induction es with
  | nil => rfl
  | cons e es ih => rw [ofEntries, ih, List.map_cons]

theorem lookup_ofEntries (es : List (String × Toml.Value)) (k : String) :
    (ofEntries es).lookup k = (es.lookup k).map ofDocument := by
  induction es with
  | nil => rfl
  | cons e es ih =>
    rw [ofEntries, Keyed.lookup_cons, Keyed.lookup_cons, ih]
    split <;> rfl

theorem entries_ofDocument (v : Toml.Value) : (ofDocument v).entries = ofEntries v.entries := by
  cases v <;> rfl

/-- What is laid on nothing shows. -/
theorem shows_onto (v : Toml.Value) : ((ofDocument v).onto (.table none [])).Shows v := by
  cases v with
  | leaf s => exact rfl
  | list vs => trivial
  | table es =>
    have table := IsTable.ontoEach (t := .table none []) trivial (ofEntries es)
    change (ontoEach (ofEntries es) (.table none [])).Shows (.table es)
    cases h : ontoEach (ofEntries es) (.table none []) <;> rw [h] at table <;> trivial

/-- Entries laid on nothing are found under their keys. -/
theorem get?_laid {es : List (String × Toml.Value)} (apart : (es.map (·.1)).Nodup) (k : String) :
    (ontoEach (ofEntries es) (.table none [])).get? k =
      (es.lookup k).map fun v => (ofDocument v).onto (.table none []) := by
  have keys : ((ofEntries es).map (·.1)).Nodup := by
    rw [ofEntries_eq, List.map_map]
    exact apart
  rw [get?_ontoEach keys, lookup_ofEntries]
  cases es.lookup k <;> rfl

/-- The sections of a document are laid down with all that they hold. -/
theorem layFile_shows {document : Toml.Value} (parsed : Toml.parse? text = some document)
    (plain : ∀ e ∈ document.entries, '.' ∉ e.1.toList ∧ '[' ∉ e.1.toList) :
    ∃ t, layFile document = some t ∧ ∀ s, (∀ v, document.at? s = some v → v.IsTable) →
      (∀ b, t.get? s = some b → b.IsTable) ∧
      ∀ k, Option.Rel Shows (t.at? s k) ((document.at? s).bind (·.at? k)) := by
  obtain ⟨n, closed⟩ := Toml.exists_close parsed
  obtain ⟨apart, each⟩ := Toml.Node.nodup_of_close closed
  refine ⟨_, foldlM_lay ?_ _, fun s table => ?_⟩
  · rw [entries_ofDocument, ofEntries_eq, List.forall_mem_map]
    exact plain
  · simp only [entries_ofDocument, at?, get?_laid apart s]
    cases here : document.at? s with
    | none =>
      rw [Toml.Value.at?] at here
      rw [here]
      exact ⟨nofun, fun _ => .none⟩
    | some v =>
      obtain ⟨es, rfl⟩ := (table v here).exists_eq
      obtain ⟨pre, post, split, -⟩ := List.lookup_eq_some_iff.mp here
      have m : (s, .table es) ∈ document.entries := split ▸ List.mem_append_right _ List.mem_cons_self
      obtain ⟨n', closed'⟩ := each _ m
      have apart' : (es.map (·.1)).Nodup := (Toml.Node.nodup_of_close closed').1
      rw [Toml.Value.at?] at here
      rw [here]
      constructor
      · rintro _ ⟨⟩
        exact IsTable.ontoEach (t := .table none []) trivial (ofEntries es)
      · intro k
        change Option.Rel Shows ((ontoEach (ofEntries es) (.table none [])).get? k) (es.lookup k)
        rw [get?_laid apart' k]
        cases es.lookup k with
        | none => exact .none
        | some v => exact .some (shows_onto v)

end Layered

end PoolSnapshot
