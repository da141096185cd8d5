import Mathlib.Data.List.Forall2

/-!
Lists gone through by a function that may fail. There is a result when no item fails, and passes over the
same items make one pass.
-/
namespace PoolSnapshot.Traverse

theorem toOption_bind (x : Except ε α) (k : α → Except ε β) :
    (x >>= k).toOption = x.toOption.bind fun a => (k a).toOption := by
  cases x <;> rfl

theorem toOption_map (f : α → β) (x : Except ε α) : (x.map f).toOption = x.toOption.map f := by
  cases x <;> rfl

theorem toOption_eq_some {x : Except ε α} {a : α} : x.toOption = some a ↔ x = .ok a := by
  cases x <;> simp [Except.toOption]

theorem bind_eq_ok {x : Except ε α} {k : α → Except ε β} {b : β} :
    x >>= k = .ok b ↔ ∃ a, x = .ok a ∧ k a = .ok b := by
  cases x <;> simp [bind, Except.bind]

theorem mapError_eq_ok {x : Except ε α} {f : ε → δ} {a : α} : x.mapError f = .ok a ↔ x = .ok a := by
  cases x <;> simp [Except.mapError]

theorem toOption_mapM (f : α → Except ε β) (xs : List α) :
    (xs.mapM f).toOption = xs.mapM fun x => (f x).toOption := by
  induction xs with
  | nil => rfl
  | cons x xs ih =>
    simp only [List.mapM_cons, toOption_bind, ih]
    rfl

theorem mapM_congr {f g : α → Option β} {xs : List α} (h : ∀ x ∈ xs, f x = g x) :
    xs.mapM f = xs.mapM g := by
  induction xs with
  | nil => rfl
  | cons x xs ih =>
    obtain ⟨now, later⟩ := List.forall_mem_cons.mp h
    rw [List.mapM_cons, List.mapM_cons, now, ih later]

theorem mapM_eq_some {f : α → Option β} {xs : List α} {ys : List β} :
    xs.mapM f = some ys ↔ List.Forall₂ (fun x y => f x = some y) xs ys := by
  induction xs generalizing ys with
  | nil =>
    rw [List.forall₂_nil_left_iff, List.mapM_nil, eq_comm]
    exact Option.some_inj
  | cons x xs ih =>
    rw [List.forall₂_cons_left_iff, List.mapM_cons]
    cases e : f x with
    | none => simp
    | some y =>
      cases e' : xs.mapM f with
      | none => simp [← ih, e']
      | some ys' =>
        rw [e'] at ih
        simp [← ih, eq_comm]

theorem mapM_eq_ok {f : α → Except ε β} {xs : List α} {ys : List β} :
    xs.mapM f = .ok ys ↔ List.Forall₂ (fun x y => f x = .ok y) xs ys := by
  rw [← toOption_eq_some, toOption_mapM, mapM_eq_some]
  simp only [toOption_eq_some]

/-- The first item that fails decides. -/
theorem mapM_eq_error {f : α → Except ε β} {pre post : List α} (before : ∀ y ∈ pre, ∃ b, f y = .ok b)
    (here : f x = .error e) : (pre ++ x :: post).mapM f = .error e := by
  induction pre with
  | nil =>
    rw [List.nil_append, List.mapM_cons, here]
    rfl
  | cons y pre ih =>
    obtain ⟨⟨b, now⟩, before⟩ := List.forall_mem_cons.mp before
    rw [List.cons_append, List.mapM_cons, now, ih before]
    rfl

/-- Where something fails to hold of all, it fails somewhere first. -/
theorem exists_first {P : α → Prop} {xs : List α} (h : ¬∀ x ∈ xs, P x) :
    ∃ (i : Nat) (x : α), xs[i]? = some x ∧ ¬P x ∧ ∀ j < i, ∀ y, xs[j]? = some y → P y := by
  induction xs with
  | nil => exact absurd (List.forall_mem_nil P) h
  | cons x xs ih =>
    by_cases here : P x
    · obtain ⟨i, y, at_i, no, before⟩ := ih fun all => h (List.forall_mem_cons.mpr ⟨here, all⟩)
      refine ⟨i + 1, y, at_i, no, fun j l z at_j => ?_⟩
      cases j with
      | zero =>
        cases at_j
        exact here
      | succ j => exact before j (Nat.lt_of_succ_lt_succ l) z at_j
    · exact ⟨0, x, rfl, here, nofun⟩

theorem exists_forall₂ {P : α → β → Prop} {xs : List α} :
    (∃ ys, List.Forall₂ P xs ys) ↔ ∀ x ∈ xs, ∃ y, P x y := by
  induction xs with
  | nil => exact ⟨fun _ _ m => absurd m List.not_mem_nil, fun _ => ⟨[], .nil⟩⟩
  | cons x xs ih =>
    rw [List.forall_mem_cons, ← ih]
    constructor
    · rintro ⟨_, h⟩
      cases h with
      | cons p t => exact ⟨⟨_, p⟩, _, t⟩
    · rintro ⟨⟨y, p⟩, ys, t⟩
      exact ⟨y :: ys, .cons p t⟩

theorem forall₂_iff_getElem? {P : α → β → Prop} {xs : List α} {ys : List β} :
    List.Forall₂ P xs ys ↔ ys.length = xs.length ∧
      ∀ (i : Nat) x y, xs[i]? = some x → ys[i]? = some y → P x y := by
  rw [List.forall₂_iff_get]
  constructor
  · rintro ⟨l, each⟩
    refine ⟨l.symm, ?_⟩
    intro i x y hx hy
    obtain ⟨m, rfl⟩ := List.getElem?_eq_some_iff.mp hx
    obtain ⟨n, rfl⟩ := List.getElem?_eq_some_iff.mp hy
    exact each i m n
  · rintro ⟨l, each⟩
    exact ⟨l.symm, fun i m n => each i _ _ (List.getElem?_eq_getElem m) (List.getElem?_eq_getElem n)⟩

theorem exists_left {P : α → β → Prop} (h : List.Forall₂ P xs ys) (m : y ∈ ys) : ∃ x ∈ xs, P x y := by
  induction h with
  | nil => cases m
  | cons p _ ih =>
    cases m with
    | head => exact ⟨_, List.mem_cons_self, p⟩
    | tail _ m =>
      obtain ⟨x, n, p⟩ := ih m
      exact ⟨x, List.mem_cons_of_mem _ n, p⟩

theorem exists_getElem? {P : α → β → Prop} (h : List.Forall₂ P xs ys) {i : Nat} (here : ys[i]? = some y) :
    ∃ x, xs[i]? = some x ∧ P x y := by
  obtain ⟨length, each⟩ := forall₂_iff_getElem?.mp h
  obtain ⟨inside, -⟩ := List.getElem?_eq_some_iff.mp here
  have there := List.getElem?_eq_getElem (length ▸ inside)
  exact ⟨_, there, each i _ y there here⟩

theorem exists_append_left {P : α → β → Prop} (h : List.Forall₂ P (xs ++ xs') ys) :
    ∃ zs zs', ys = zs ++ zs' ∧ List.Forall₂ P xs zs ∧ List.Forall₂ P xs' zs' :=
  ⟨ys.take xs.length, ys.drop xs.length, (List.take_append_drop _ _).symm,
    (List.forall₂_take_append _ _ _ h.flip).flip, (List.forall₂_drop_append _ _ _ h.flip).flip⟩

theorem eq_take_cons_drop {xs : List α} {i : Nat} (here : xs[i]? = some x) :
    xs = xs.take i ++ x :: xs.drop (i + 1) := by
  obtain ⟨inside, rfl⟩ := List.getElem?_eq_some_iff.mp here
  rw [← List.drop_eq_getElem_cons, List.take_append_drop]

theorem exists_of_mem_take {xs : List α} (m : x ∈ xs.take i) : ∃ j < i, xs[j]? = some x := by
  obtain ⟨j, l, rfl⟩ := List.mem_take_iff_getElem.mp m
  exact ⟨j, by omega, List.getElem?_eq_getElem (by omega)⟩

theorem forall_mem_zip {P : α × β → Prop} {xs : List α} {ys : List β} :
    (∀ p ∈ xs.zip ys, P p) ↔
      ∀ (i : Nat) x y, xs[i]? = some x → ys[i]? = some y → P (x, y) := by
  constructor
  · intro each i x y hx hy
    exact each _ (List.mem_of_getElem? (List.getElem?_zip_eq_some.mpr ⟨hx, hy⟩))
  · rintro each ⟨x, y⟩ m
    obtain ⟨i, here⟩ := List.mem_iff_getElem?.mp m
    obtain ⟨hx, hy⟩ := List.getElem?_zip_eq_some.mp here
    exact each i x y hx hy

theorem forall₂_congr {P Q : α → β → Prop} (same : ∀ x ∈ xs, ∀ y, P x y ↔ Q x y) :
    List.Forall₂ P xs ys ↔ List.Forall₂ Q xs ys := by
  rw [forall₂_iff_getElem?, forall₂_iff_getElem?]
  refine and_congr_right fun _ => forall_congr' fun i => forall_congr' fun x => forall_congr' fun y => ?_
  exact forall_congr' fun here => imp_congr_right fun _ => same x (List.mem_of_getElem? here) y

theorem forall₂_trans {P : α → β → Prop} {Q : β → γ → Prop} (h : List.Forall₂ P xs ys)
    (k : List.Forall₂ Q ys zs) : List.Forall₂ (fun x z => ∃ y, P x y ∧ Q y z) xs zs := by
  induction h generalizing zs with
  | nil =>
    cases k
    exact .nil
  | cons p _ ih =>
    cases k with
    | cons q k => exact .cons ⟨_, p, q⟩ (ih k)

theorem forall₂_of_zip {P : α → β → Prop} {Q : α × β → γ → Prop} (h : List.Forall₂ P xs ys)
    (k : List.Forall₂ Q (xs.zip ys) zs) : List.Forall₂ (fun x z => ∃ y, P x y ∧ Q (x, y) z) xs zs := by
  induction h generalizing zs with
  | nil =>
    cases k
    exact .nil
  | cons p _ ih =>
    cases k with
    | cons q k => exact .cons ⟨_, p, q⟩ (ih k)

theorem exists_zipWith {P : α → γ → Prop} {f : α → γ → β}
    (h : List.Forall₂ (fun x y => ∃ z, P x z ∧ y = f x z) xs ys) :
    ∃ zs, List.Forall₂ P xs zs ∧ ys = List.zipWith f xs zs := by
  induction h with
  | nil => exact ⟨[], .nil, rfl⟩
  | cons now _ ih =>
    obtain ⟨z, p, rfl⟩ := now
    obtain ⟨zs, each, rfl⟩ := ih
    exact ⟨z :: zs, .cons p each, rfl⟩

theorem map_mapM (f : α → Option β) (g : β → γ) (xs : List α) :
    (xs.mapM f).map (List.map g) = xs.mapM fun x => (f x).map g := by
  induction xs with
  | nil => rfl
  | cons x xs ih =>
    simp only [List.mapM_cons, ← ih]
    cases f x with
    | none => rfl
    | some y => cases xs.mapM f <;> rfl

theorem mapM_zip_map (f : α × β → Option γ) (g : α → β) (xs : List α) :
    (xs.zip (xs.map g)).mapM f = xs.mapM fun x => f (x, g x) := by
  rw [List.zip_map_right, List.mapM_map, List.zip_eq_zipWith, List.zipWith_self, List.mapM_map]
  rfl

/-- Item by item through both. -/
theorem mapM_bind_mapM (f : α → Option β) (g : β → Option γ) (xs : List α) :
    ((xs.mapM f).bind fun ys => ys.mapM g) = xs.mapM fun x => (f x).bind g := by
  induction xs with
  | nil => rfl
  | cons x xs ih =>
    simp only [List.mapM_cons, ← ih]
    cases f x with
    | none => rfl
    | some y => cases xs.mapM f <;> cases e : g y <;> simp [e]

theorem mapM_bind_zip (f : α → Option β) (g : α × β → Option γ) (xs : List α) :
    ((xs.mapM f).bind fun ys => (xs.zip ys).mapM g) = xs.mapM fun x => (f x).bind fun y => g (x, y) := by
  induction xs with
  | nil => rfl
  | cons x xs ih =>
    simp only [List.mapM_cons, ← ih]
    cases f x with
    | none => rfl
    | some y => cases xs.mapM f <;> cases e : g (x, y) <;> simp [e]

theorem mapM_bind_foldlM (f : α → Option β) (g : σ → β → Option σ) (xs : List α) (s : σ) :
    ((xs.mapM f).bind fun ys => ys.foldlM g s) = xs.foldlM (fun s x => (f x).bind (g s)) s := by
  induction xs generalizing s with
  | nil => rfl
  | cons x xs ih =>
    simp only [List.mapM_cons, List.foldlM_cons]
    cases f x with
    | none => rfl
    | some y =>
      cases e : g s y with
      | none => cases xs.mapM f <;> simp [e]
      | some s' =>
        simp only [Option.bind_eq_bind, Option.bind_some, e, ← ih]
        cases xs.mapM f <;> simp [e]

theorem mapM_flatten (f : α → Option β) (xss : List (List α)) :
    (xss.mapM (List.mapM f)).map List.flatten = xss.flatten.mapM f := by
  induction xss with
  | nil => rfl
  | cons xs xss ih =>
    rw [List.mapM_cons, List.flatten_cons, List.mapM_append, ← ih]
    cases xs.mapM f with
    | none => rfl
    | some ys => cases xss.mapM (List.mapM f) <;> rfl

end PoolSnapshot.Traverse
