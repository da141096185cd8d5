import PoolSnapshot.Proofs.Settings.File
import PoolSnapshot.Settings.Section

/-!
What the environment lays over the file. A variable for a key in a section replaces what is there, and
leaves everything else alone.
-/
namespace PoolSnapshot

namespace Settings

def shapes : List Shape := [.rpc, .contracts, .batching, .log]

/-- The fields of the settings, each by section and key. -/
def keys : List (String × String) := shapes.flatMap fun shape => shape.fields.map (shape.key, ·)

theorem mem_keys {shape : Shape} (m : shape ∈ shapes) (n : k ∈ shape.fields) : (shape.key, k) ∈ keys :=
  List.mem_flatMap.mpr ⟨shape, m, List.mem_map.mpr ⟨k, n, rfl⟩⟩

theorem exists_shape (m : p ∈ keys) : ∃ shape ∈ shapes, p.1 = shape.key := by
  obtain ⟨shape, n, m⟩ := List.mem_flatMap.mp m
  obtain ⟨k, -, rfl⟩ := List.mem_map.mp m
  exact ⟨shape, n, rfl⟩

end Settings

namespace Environment

/-- A name without regard to case. -/
def folded (name : String) : List Char := name.toList.map lower

/-- The variable for a key in a section. -/
def variableFor (s k : String) : List Char := "sdk_".toList ++ s.toList ++ "__".toList ++ k.toList

/-- The variables that the settings know of. -/
def known : List (List Char) :=
  ["sdk_rpc_http_url".toList, "sdk_config_path".toList] ++
    Settings.keys.map fun p => variableFor p.1 p.2

/-- The value of the variable for a key in a section. -/
def value? (ε : Environment) (s k : String) : Option String :=
  (ε.find? fun x => folded x.1 = variableFor s k).map (·.2)

/-- All variables of the settings are known ones, and each is there once. -/
structure Plain (ε : Environment) : Prop where
  known : ∀ x ∈ ε, (key? x.1).isSome → folded x.1 ∈ known
  apart : ε.Pairwise fun x y => (key? x.1).isSome → folded x.1 ≠ folded y.1

/-- The path that a folded name leads to. -/
def pathOf : List Char → Option (List Layered.Step)
  | 's' :: 'd' :: 'k' :: '_' :: s => some (Layered.Step.path (pointed s))
  | _ => none

theorem map_path_key? (name : String) : (key? name).map Layered.Step.path = pathOf (folded name) := by
  rw [key?, folded]
  split <;> rename_i h
  · rw [h]
    rfl
  · rw [pathOf]
    · rfl
    · exact h

theorem pathOf_variableFor : ∀ p ∈ Settings.keys, pathOf (variableFor p.1 p.2) = some [.key p.1, .key p.2] := by
  decide

theorem variableFor_inj : ∀ p ∈ Settings.keys, ∀ q ∈ Settings.keys,
    variableFor p.1 p.2 = variableFor q.1 q.2 → p = q := by
  decide

/-- A known variable sets a key in a section, or else something outside of all sections. -/
theorem pathOf_known : ∀ n ∈ known,
    (∃ p ∈ Settings.keys, n = variableFor p.1 p.2) ∨
      ∃ k, pathOf n = some [.key k] ∧ (∀ shape ∈ Settings.shapes, shape.key ≠ k) ∧
        ∀ p ∈ Settings.keys, n ≠ variableFor p.1 p.2 := by
  have outside : ∀ n ∈ ["sdk_rpc_http_url".toList, "sdk_config_path".toList],
      ∃ k ∈ ["rpc_http_url", "config_path"], pathOf n = some [.key k] ∧
        (∀ shape ∈ Settings.shapes, shape.key ≠ k) ∧ ∀ p ∈ Settings.keys, n ≠ variableFor p.1 p.2 := by
    decide
  intro n m
  rcases List.mem_append.mp m with m | m
  · obtain ⟨k, -, h⟩ := outside n m
    exact .inr ⟨k, h⟩
  · obtain ⟨p, n, rfl⟩ := List.mem_map.mp m
    exact .inl ⟨p, n, rfl⟩

end Environment

namespace Layered

open Environment

variable {t : Layered}

/-- All sections that are there are tables. -/
def Sectioned (t : Layered) : Prop := ∀ shape ∈ Settings.shapes, ∀ b, t.get? shape.key = some b → b.IsTable

theorem at?_put (t : Layered) (s k s' k' : String) (v : Layered) :
    (t.put s ((t.under s).put k v)).at? s' k' = if s' = s ∧ k' = k then some v else t.at? s' k' := by
  rw [at?, get?_put]
  by_cases here : s' = s
  · subst here
    rw [if_pos rfl, Option.bind_some, get?_put, under, at?]
    simp only [true_and]
    cases t.get? s' <;> rfl
  · rw [if_neg here, if_neg fun h => here h.1, at?]

theorem Sectioned.put (h : t.Sectioned) (p : String × String) (m : p ∈ Settings.keys) (v : Layered) :
    (t.put p.1 ((t.under p.1).put p.2 v)).Sectioned := by
  intro shape n b at_
  rw [get?_put] at at_
  split at at_
  · cases at_
    refine IsTable.put ?_ _ _
    obtain ⟨shape, m, same⟩ := Settings.exists_shape m
    rw [under, same]
    cases there : t.get? shape.key with
    | none => trivial
    | some b => exact h shape m b there
  · exact h shape n b at_

/-- Lays one variable down. -/
def layVariable (t : Layered) (x : String × String) : Option Layered :=
  (pathOf (folded x.1)).elim (some t) fun p => t.lay p (.leaf .environment (scalar x.2))

theorem layEnvironment_eq (ε : Environment) (t : Layered) : layEnvironment ε t = ε.foldlM layVariable t := by
  refine congrArg (fun f => ε.foldlM f t) ?_
  funext t ⟨name, v⟩
  rw [layVariable, ← map_path_key?]
  cases h : key? name <;> simp only [h] <;> rfl

/-- A variable changes its own key, and no other. -/
theorem exists_layVariable (x : String × String) (know : (key? x.1).isSome → folded x.1 ∈ known)
    (h : t.Sectioned) :
    ∃ t', t.layVariable x = some t' ∧ t'.Sectioned ∧ ∀ p ∈ Settings.keys,
      t'.at? p.1 p.2 =
        if folded x.1 = variableFor p.1 p.2 then some (.leaf .environment (scalar x.2)) else t.at? p.1 p.2 := by
  have path := map_path_key? x.1
  rw [layVariable]
  cases key : key? x.1 with
  | none =>
    rw [key] at path
    rw [← path]
    refine ⟨t, rfl, h, fun p m => (if_neg fun same => ?_).symm⟩
    rw [same, pathOf_variableFor p m] at path
    cases path
  | some s =>
    rcases pathOf_known _ (know (key ▸ rfl)) with ⟨p, m, same⟩ | ⟨k, single, outside, other⟩
    · rw [same, pathOf_variableFor p m]
      refine ⟨_, rfl, h.put p m _, fun q n => ?_⟩
      rw [at?_put]
      refine if_congr ⟨fun here => ?_, fun here => ?_⟩ rfl rfl
      · rw [here.1, here.2]
      · cases variableFor_inj p m q n here
        exact ⟨rfl, rfl⟩
    · rw [single]
      refine ⟨_, rfl, fun shape m b at_ => ?_, fun p m => ?_⟩
      · rw [get?_put, if_neg (outside shape m)] at at_
        exact h shape m b at_
      · obtain ⟨shape, n, same⟩ := Settings.exists_shape m
        rw [at?, get?_put, same, if_neg (outside shape n), ← same, if_neg (other p m)]
        rfl

/-- A key has the value of its variable, and without one what stood there before. -/
theorem exists_layEnvironment {ε : Environment} (plain : ε.Plain) (h : t.Sectioned) :
    ∃ t', layEnvironment ε t = some t' ∧ t'.Sectioned ∧ ∀ p ∈ Settings.keys,
      t'.at? p.1 p.2 =
        ((ε.value? p.1 p.2).map fun v => .leaf .environment (scalar v)).or (t.at? p.1 p.2) := by
  rw [layEnvironment_eq]
  induction ε generalizing t with
  | nil => exact ⟨t, rfl, h, fun _ _ => rfl⟩
  | cons x ε ih =>
    obtain ⟨know, later⟩ := List.forall_mem_cons.mp plain.known
    obtain ⟨apart, apart'⟩ := List.pairwise_cons.mp plain.apart
    obtain ⟨t₁, first, h₁, each₁⟩ := exists_layVariable x know h
    obtain ⟨t', rest, h', each⟩ := ih ⟨later, apart'⟩ h₁
    refine ⟨t', ?_, h', fun p m => ?_⟩
    · rw [List.foldlM_cons, first]
      exact rest
    · rw [each p m, each₁ p m, value?, value?, List.find?_cons]
      by_cases here : folded x.1 = variableFor p.1 p.2
      · -- no later variable sets the same key
        have gone : (ε.find? fun y => folded y.1 = variableFor p.1 p.2) = none := by
          refine List.find?_eq_none.mpr fun y n same => ?_
          have set : (key? x.1).isSome := by
            rw [← Option.isSome_map, map_path_key?, here, pathOf_variableFor p m]
            rfl
          exact apart y n set (here.trans (of_decide_eq_true same).symm)
        rw [gone]
        simp [here]
      · simp [here]

end Layered

end PoolSnapshot
