import PoolSnapshot.Proofs.Settings.Layering

/-!
Two variables for the address of the node. One is a key of the layers like any other; the other is looked
at after the layers were read, and comes too late where these have no address.
-/
namespace PoolSnapshot

open Traverse
open Layered (Step)

namespace Layered

variable {t t' t₁ t₂ : Layered} {p : List Step}

/-- What a variable lays down replaces what was there, wherever it is. -/
theorem lay_leaf (t : Layered) (p : List Step) (l : Layer) (s : Scalar) :
    t.lay p (.leaf l s) = t.updateAt (fun _ => .leaf l s) p := by
  rw [lay]
  split <;> rfl

theorem updateAt_key (f : Layered → Layered) (k : String) (p : List Step) (t : Layered) :
    t.updateAt f (.key k :: p) = ((t.under k).updateAt f p).map (t.put k) := rfl

theorem get?_put_self (t : Layered) (k : String) (v : Layered) : (t.put k v).get? k = some v := by
  rw [get?_put, if_pos rfl]

theorem get?_put_ne (t : Layered) {k k' : String} (other : k' ≠ k) (v : Layered) :
    (t.put k v).get? k' = t.get? k' := by
  rw [get?_put, if_neg other]

theorem under_put_self (t : Layered) (k : String) (v : Layered) : (t.put k v).under k = v := by
  rw [under, get?_put_self, Option.getD_some]

theorem under_put_ne (t : Layered) {k k' : String} (other : k' ≠ k) (v : Layered) :
    (t.put k v).under k' = t.under k' := by
  rw [under, get?_put_ne t other, ← under]

theorem at?_eq_under (t : Layered) (s k : String) : t.at? s k = (t.under s).get? k := by
  rw [at?, under]
  cases t.get? s <;> rfl

/-- Only a place may be missing. -/
theorem exists_updateAt (f : Layered → Layered) (keys : ∀ i, Step.place i ∉ p) (t : Layered) :
    ∃ t', t.updateAt f p = some t' := by
  induction p generalizing t with
  | nil => exact ⟨_, rfl⟩
  | cons step p ih =>
    cases step with
    | place i => exact absurd List.mem_cons_self (keys i)
    | key k =>
      obtain ⟨v, made⟩ := ih (fun i m => keys i (List.mem_cons_of_mem _ m)) (t.under k)
      exact ⟨_, by rw [updateAt_key, made, Option.map_some]⟩

/-- Nothing but a list is left where a place was asked for. -/
theorem get?_of_place {f : Layered → Layered} (made : t.updateAt f (.place i :: p) = some v) (k : String) :
    v.get? k = none := by
  obtain ⟨n, -, made⟩ := Option.bind_eq_some_iff.mp made
  obtain ⟨w, -, made⟩ := Option.bind_eq_some_iff.mp made
  cases made
  cases t <;> rfl

/-- What has something in it is no single value. -/
theorem ne_leaf_of_updateAt {f : Layered → Layered} (made : t.updateAt f (step :: p) = some v) :
    v ≠ .leaf l s := by
  rintro rfl
  cases step with
  | key k =>
    obtain ⟨w, -, same⟩ := Option.map_eq_some_iff.mp made
    cases t <;> cases same
  | place i =>
    obtain ⟨n, -, made⟩ := Option.bind_eq_some_iff.mp made
    obtain ⟨w, -, same⟩ := Option.bind_eq_some_iff.mp made
    cases t <;> cases same

/-- A single value was there before the change, unless the change put it there. -/
theorem get?_of_updateAt {f : Layered → Layered} (made : t.updateAt f p = some v) (leaf : ∀ t, ∃ l s, f t = .leaf l s)
    (here : v.get? k = some (.leaf l s)) (other : p ≠ [.key k]) :
    t.get? k = some (.leaf l s) ∧ ∃ k' q, p = .key k' :: q ∧ k' ≠ k := by
  cases p with
  | nil =>
    obtain ⟨_, _, single⟩ := leaf t
    cases made
    rw [single] at here
    cases here
  | cons step q =>
    cases step with
    | place i =>
      rw [get?_of_place made] at here
      cases here
    | key k' =>
      rw [updateAt_key] at made
      obtain ⟨w, inner, rfl⟩ := Option.map_eq_some_iff.mp made
      by_cases own : k' = k
      · subst own
        rw [get?_put_self] at here
        cases here
        cases q with
        | nil => exact absurd rfl other
        | cons step q => exact absurd rfl (ne_leaf_of_updateAt inner)
      · rw [get?_put_ne _ (Ne.symm own)] at here
        exact ⟨here, k', q, rfl, own⟩

/-- The same under every key but one. -/
def AgreeOff (k₀ : String) (t t' : Layered) : Prop := ∀ k, k ≠ k₀ → t'.get? k = t.get? k

namespace AgreeOff

variable {k₀ : String}

theorem put_right (k₀ : String) (t : Layered) (v : Layered) : AgreeOff k₀ t (t.put k₀ v) :=
  fun _ other => get?_put_ne t other v

theorem put (h : AgreeOff k₀ t t') (k : String) (v : Layered) : AgreeOff k₀ (t.put k v) (t'.put k v) := by
  intro k' other
  rw [get?_put, get?_put, h k' other]

theorem put_apart (h : AgreeOff k₀ t t') (v v' : Layered) : AgreeOff k₀ (t.put k₀ v) (t'.put k₀ v') := by
  intro k' other
  rw [get?_put_ne _ other, get?_put_ne _ other, h k' other]

theorem under (h : AgreeOff k₀ t t') (other : k ≠ k₀) : t'.under k = t.under k := by
  rw [Layered.under, Layered.under, h k other]

/-- A change elsewhere is the same change. -/
theorem updateAt (h : AgreeOff k₀ t t') (f : Layered → Layered) (other : k ≠ k₀) (p : List Step) :
    Option.Rel (AgreeOff k₀) (t.updateAt f (.key k :: p)) (t'.updateAt f (.key k :: p)) := by
  rw [updateAt_key, updateAt_key, h.under other]
  cases (t.under k).updateAt f p with
  | none => exact .none
  | some v => exact .some (h.put k v)

end AgreeOff

end Layered

namespace Environment

theorem exists_key (h : pathOf n = some p) : ∃ k q, p = .key k :: q := by
  unfold pathOf at h
  split at h
  · cases h
    rw [Step.path, Step.more?]
    split
    · exact ⟨_, [], rfl⟩
    · generalize Step.more? _ _ = rest
      cases rest <;> exact ⟨_, _, rfl⟩
  · cases h

/-- A variable that does not set the address of the node, nor asks for a place in what the late one sets. -/
structure Other (x : String × String) : Prop where
  late : x.1 ≠ "SDK_RPC_HTTP_URL"
  layered : pathOf (folded x.1) ≠ some [.key "rpc", .key "http_url"]
  places : ∀ p, pathOf (folded x.1) = some (.key "rpc_http_url" :: p) → ∀ i, .place i ∉ p

end Environment

namespace Layered

open Environment

variable {t t' t₁ t₂ : Layered} {ε : Environment}

/-- Behind the late variable the others do what they do without it. -/
theorem AgreeOff.layVariable (h : AgreeOff "rpc_http_url" t t') (other : Other x) :
    Option.Rel (AgreeOff "rpc_http_url") (t.layVariable x) (t'.layVariable x) := by
  rw [Layered.layVariable, Layered.layVariable]
  cases path : pathOf (folded x.1) with
  | none => exact .some h
  | some p =>
    obtain ⟨k, q, rfl⟩ := exists_key path
    simp only [Option.elim_some, lay_leaf]
    by_cases own : k = "rpc_http_url"
    · subst own
      obtain ⟨v, made⟩ := exists_updateAt (fun _ => .leaf .environment (scalar x.2)) (other.places q path)
        (t.under "rpc_http_url")
      obtain ⟨v', made'⟩ := exists_updateAt (fun _ => .leaf .environment (scalar x.2)) (other.places q path)
        (t'.under "rpc_http_url")
      rw [updateAt_key, updateAt_key, made, made']
      exact .some (h.put_apart v v')
    · exact h.updateAt _ own q

theorem AgreeOff.layAll (h : AgreeOff "rpc_http_url" t t') (others : ∀ x ∈ ε, Other x) :
    Option.Rel (AgreeOff "rpc_http_url") (ε.foldlM Layered.layVariable t) (ε.foldlM Layered.layVariable t') := by
  induction ε generalizing t t' with
  | nil => exact .some h
  | cons x ε ih =>
    obtain ⟨other, others⟩ := List.forall_mem_cons.mp others
    have step := h.layVariable other
    rw [List.foldlM_cons, List.foldlM_cons]
    generalize t.layVariable x = o at step ⊢
    generalize t'.layVariable x = o' at step ⊢
    cases step with
    | none => exact .none
    | some h => exact ih h others

/-- The address is there, as one value. -/
def HasUrl (t : Layered) : Prop := ∃ l s, t.at? "rpc" "http_url" = some (.leaf l s)

instance : DecidablePred HasUrl := fun t =>
  match h : t.at? "rpc" "http_url" with
  | some (.leaf l s) => .isTrue ⟨l, s, h⟩
  | none | some .vacant | some (.list ..) | some (.table ..) =>
    .isFalse fun ⟨_, _, there⟩ => nomatch h.symm.trans there

/-- No other variable brings an address, and one that keeps it stays away from it. -/
theorem hasUrl_of_layVariable (other : Other x) (laid : t.layVariable x = some t') (h : t'.HasUrl) :
    t.HasUrl ∧ ∀ p, pathOf (folded x.1) = some p →
      ∃ k q, p = .key k :: q ∧ (k = "rpc" → ∃ k' q', q = .key k' :: q' ∧ k' ≠ "http_url") := by
  obtain ⟨l, s, here⟩ := h
  rw [Layered.layVariable] at laid
  cases path : pathOf (folded x.1) with
  | none =>
    rw [path] at laid
    cases laid
    refine ⟨⟨l, s, here⟩, fun p other => ?_⟩
    cases other
  | some p =>
    obtain ⟨k, q, rfl⟩ := exists_key path
    rw [path, Option.elim_some, lay_leaf, updateAt_key] at laid
    obtain ⟨v, made, rfl⟩ := Option.map_eq_some_iff.mp laid
    rw [at?_eq_under] at here
    by_cases own : k = "rpc"
    · subst own
      rw [under_put_self] at here
      obtain ⟨before, apart⟩ := get?_of_updateAt made (fun _ => ⟨_, _, rfl⟩) here fun same =>
        other.layered (same ▸ path)
      refine ⟨⟨l, s, by rw [at?_eq_under, before]⟩, ?_⟩
      rintro _ ⟨⟩
      exact ⟨_, _, rfl, fun _ => apart⟩
    · rw [under_put_ne _ (Ne.symm own)] at here
      refine ⟨⟨l, s, by rw [at?_eq_under, here]⟩, ?_⟩
      rintro _ ⟨⟩
      exact ⟨_, _, rfl, fun same => absurd same own⟩

theorem hasUrl_of_layAll (others : ∀ x ∈ ε, Other x) (laid : ε.foldlM Layered.layVariable t = some t')
    (h : t'.HasUrl) : t.HasUrl := by
  induction ε generalizing t with
  | nil =>
    cases laid
    exact h
  | cons x ε ih =>
    obtain ⟨other, others⟩ := List.forall_mem_cons.mp others
    obtain ⟨t₁, first, rest⟩ := Option.bind_eq_some_iff.mp laid
    exact (hasUrl_of_layVariable other first (ih others rest)).1

/-- The same but for the address, which is `u`. -/
structure Readdressed (u : String) (t t' : Layered) : Prop where
  outside : AgreeOff "rpc" t t'
  inside : AgreeOff "http_url" (t.under "rpc") (t'.under "rpc")
  url : t'.at? "rpc" "http_url" = some (.leaf .environment (.text u))

theorem readdressed_put (u : String) (t : Layered) :
    Readdressed u t (t.put "rpc" ((t.under "rpc").put "http_url" (.leaf .environment (.text u)))) where
  outside := .put_right _ t _
  inside := by
    rw [under_put_self]
    exact .put_right _ _ _
  url := by rw [at?_eq_under, under_put_self, get?_put_self]

theorem Readdressed.layVariable (h : Readdressed u t₁ t₂) (other : Other x)
    (laid : t₁.layVariable x = some t) (kept : t.HasUrl) :
    ∃ t', t₂.layVariable x = some t' ∧ Readdressed u t t' := by
  obtain ⟨-, apart⟩ := hasUrl_of_layVariable other laid kept
  rw [Layered.layVariable] at laid ⊢
  cases path : pathOf (folded x.1) with
  | none =>
    rw [path] at laid
    cases laid
    exact ⟨t₂, rfl, h⟩
  | some p =>
    rw [path, Option.elim_some, lay_leaf] at laid
    rw [Option.elim_some, lay_leaf]
    obtain ⟨k, q, rfl, inner⟩ := apart p path
    by_cases own : k = "rpc"
    · subst own
      obtain ⟨k', q', rfl, url⟩ := inner rfl
      obtain ⟨v, section_, rfl⟩ := Option.map_eq_some_iff.mp laid
      obtain ⟨w, value, rfl⟩ := Option.map_eq_some_iff.mp section_
      rw [← h.inside.under url] at value
      refine ⟨t₂.put "rpc" ((t₂.under "rpc").put k' w), ?_, ?_⟩
      · rw [updateAt_key, updateAt_key, value]
        rfl
      · refine ⟨h.outside.put_apart _ _, ?_, ?_⟩
        · rw [under_put_self, under_put_self]
          exact h.inside.put k' w
        · rw [at?_eq_under, under_put_self, get?_put_ne _ (Ne.symm url), ← at?_eq_under]
          exact h.url
    · obtain ⟨v, value, rfl⟩ := Option.map_eq_some_iff.mp laid
      rw [← h.outside.under own] at value
      refine ⟨t₂.put k v, ?_, ?_⟩
      · rw [updateAt_key, value]
        rfl
      · refine ⟨h.outside.put k v, ?_, ?_⟩
        · rw [under_put_ne _ (Ne.symm own), under_put_ne _ (Ne.symm own)]
          exact h.inside
        · rw [at?_eq_under, under_put_ne _ (Ne.symm own), ← at?_eq_under]
          exact h.url

theorem Readdressed.layAll (h : Readdressed u t₁ t₂) (others : ∀ x ∈ ε, Other x)
    (laid : ε.foldlM Layered.layVariable t₁ = some t) (kept : t.HasUrl) :
    ∃ t', ε.foldlM Layered.layVariable t₂ = some t' ∧ Readdressed u t t' := by
  induction ε generalizing t₁ t₂ with
  | nil =>
    cases laid
    exact ⟨t₂, rfl, h⟩
  | cons x ε ih =>
    obtain ⟨other, others⟩ := List.forall_mem_cons.mp others
    obtain ⟨s₁, first, rest⟩ := Option.bind_eq_some_iff.mp laid
    obtain ⟨s₂, first', h'⟩ := h.layVariable other first (hasUrl_of_layAll others rest kept)
    obtain ⟨t', rest', done⟩ := ih h' others rest
    refine ⟨t', ?_, done⟩
    rw [List.foldlM_cons, first']
    exact rest'

end Layered

namespace Section

variable {b b' : Layered} {shape : Shape}

theorem field?_of_table (table : b.IsTable) (k : String) :
    field? ⟨shape, b⟩ k = (b.get? k).map (s!"{shape.key}.{k}", ·) := by
  cases b <;> first | rfl | cases table

theorem nat?_congr (table : b.IsTable) (table' : b'.IsTable) (same : b'.get? k = b.get? k) :
    nat? ⟨shape, b'⟩ k = nat? ⟨shape, b⟩ k := by
  rw [nat?, nat?, read?, read?, field?_of_table table, field?_of_table table', same]

theorem text?_of_leaf (table : b.IsTable) (here : b.get? k = some (.leaf l x)) :
    text? ⟨shape, b⟩ k = .ok (some x.toText) := by
  rw [text?, read?, field?_of_table table, here]
  rfl

end Section

theorem Layered.isTable_of_get? {b v : Layered} (here : b.get? k = some v) : b.IsTable := by
  cases b <;> trivial

namespace Settings

open Layered (Readdressed AgreeOff)

variable {α : Type} {t t' : Layered} {ε ε₁ ε₂ : Environment} {document : Toml.Value} {u : String}

theorem read?_congr (same : t'.get? shape.key = t.get? shape.key) (f : Section → Except SettingsError α) :
    read? t' shape f = read? t shape f := by
  rw [read?, read?, Section.ofLayered?, Section.ofLayered?, same]

theorem read?_table (shape : Shape) (here : t.get? shape.key = some b) (table : b.IsTable)
    (f : Section → Except SettingsError α) : read? t shape f = some <$> f ⟨shape, b⟩ := by
  rw [read?, Section.ofLayered?, here]
  cases b with
  | vacant | leaf | list => cases table
  | table => rfl

/-- Only the sections count. -/
theorem ofLayered_congr (same : ∀ shape ∈ shapes, t'.get? shape.key = t.get? shape.key) :
    ofLayered t' = ofLayered t := by
  have read {α : Type} {shape : Shape} (m : shape ∈ shapes) (f : Section → Except SettingsError α) :=
    read?_congr (same shape m) f
  rw [ofLayered, ofLayered, read (by simp [shapes]), read (by simp [shapes]), read (by simp [shapes]),
    read (by simp [shapes])]

theorem endpoint_readdressed {b b' : Layered} (same : AgreeOff "http_url" b b')
    (here : b.get? "http_url" = some (.leaf l x)) (there : b'.get? "http_url" = some (.leaf l' (.text u))) :
    endpoint ⟨.rpc, b'⟩ = (endpoint ⟨.rpc, b⟩).map ({ · with url := u }) := by
  have table := Layered.isTable_of_get? here
  have table' := Layered.isTable_of_get? there
  rw [endpoint, endpoint, Section.text?_of_leaf table here, Section.text?_of_leaf table' there,
    Section.nat?_congr table table' (same "timeout_seconds" (by decide)),
    Section.nat?_congr table table' (same "qps_limit" (by decide))]
  cases Section.nat? ⟨.rpc, b⟩ "timeout_seconds" with
  | error e => rfl
  | ok timeout => cases Section.nat? ⟨.rpc, b⟩ "qps_limit" <;> rfl

/-- Another address in the layers makes settings with another address. -/
theorem ofLayered_readdressed (h : Readdressed u t t') (kept : t.HasUrl) :
    ofLayered t' = (ofLayered t).map (·.withUrl (some u)) := by
  obtain ⟨l, x, here⟩ := kept
  have outside {α : Type} {shape : Shape} (other : shape.key ≠ "rpc") (f : Section → Except SettingsError α) :=
    read?_congr (h.outside shape.key other) f
  obtain ⟨b, body, value⟩ := Option.bind_eq_some_iff.mp here
  obtain ⟨b', body', value'⟩ := Option.bind_eq_some_iff.mp h.url
  have inside := h.inside
  rw [Layered.under, Layered.under, body, body', Option.getD_some, Option.getD_some] at inside
  have rpc : read? t' .rpc endpoint = (read? t .rpc endpoint).map (·.map ({ · with url := u })) := by
    rw [read?_table .rpc body (Layered.isTable_of_get? value),
      read?_table .rpc body' (Layered.isTable_of_get? value'), endpoint_readdressed inside value value']
    cases endpoint ⟨.rpc, b⟩ <;> rfl
  rw [ofLayered, ofLayered, rpc, outside (by decide), outside (by decide), outside (by decide)]
  cases read? t .rpc endpoint with
  | error e => rfl
  | ok rpc =>
    cases read? t .contracts roots with
    | error e => rfl
    | ok contracts =>
      cases read? t .batching sizes with
      | error e => rfl
      | ok batching =>
        cases read? t .log logLevel with
        | error e => rfl
        | ok level => cases rpc <;> cases contracts <;> rfl

theorem sources_append (document : Toml.Value) (ε₁ ε₂ : Environment) :
    Layered.ofSources document (ε₁ ++ ε₂) =
      (Layered.ofSources document ε₁).bind fun t => ε₂.foldlM Layered.layVariable t := by
  rw [Layered.ofSources, Layered.ofSources]
  cases Layered.layFile document with
  | none => rfl
  | some t =>
    simp only [Option.bind_eq_bind, Option.bind_some, Layered.layEnvironment_eq, List.foldlM_append]

theorem layVariable_late (t : Layered) (text : Environment.scalar u = .text u) :
    t.layVariable ("SDK_RPC_HTTP_URL", u) = some (t.put "rpc_http_url" (.leaf .environment (.text u))) := by
  have path : Environment.pathOf (Environment.folded "SDK_RPC_HTTP_URL") = some [.key "rpc_http_url"] := by
    decide
  rw [Layered.layVariable, path, Option.elim_some, Layered.lay_leaf, text]
  rfl

theorem layVariable_layered (t : Layered) (text : Environment.scalar u = .text u) :
    t.layVariable ("SDK_RPC__HTTP_URL", u) =
      some (t.put "rpc" ((t.under "rpc").put "http_url" (.leaf .environment (.text u)))) := by
  have path : Environment.pathOf (Environment.folded "SDK_RPC__HTTP_URL") =
      some [.key "rpc", .key "http_url"] := by
    decide
  rw [Layered.layVariable, path, Option.elim_some, Layered.lay_leaf, text]
  rfl

theorem lookup_other (others : ∀ x ∈ ε, Environment.Other x) : ε.lookup "SDK_RPC_HTTP_URL" = none :=
  List.lookup_eq_none_iff.mpr fun x m => bne_iff_ne.mpr (others x m).late.symm

/-- The settings of the layers, with an address that came from elsewhere. -/
def readdressed (o : Option Layered) (u : String) : Except SettingsError Settings := do
  ((← ofLayered (← required .noPlace o)).withUrl (some u)).validate

section Overrides

variable (others : ∀ x ∈ ε₁ ++ ε₂, Environment.Other x) (text : Environment.scalar u = .text u)

include others text

/-- The late variable leaves the layers as they are without it, and does not help them. -/
theorem ofSources_late (trimmed : Text.trimmed u = u) (nonempty : u ≠ "") (document : Toml.Value) :
    ofSources document (ε₁ ++ ("SDK_RPC_HTTP_URL", u) :: ε₂) =
      readdressed (Layered.ofSources document (ε₁ ++ ε₂)) u := by
  rw [List.forall_mem_append] at others
  have url : url? (ε₁ ++ ("SDK_RPC_HTTP_URL", u) :: ε₂) = some u := by
    rw [url?, List.lookup_append, lookup_other others.1, Option.none_or, List.lookup_cons_self, Option.map_some,
      trimmed, Option.filter_some, if_pos (decide_eq_true nonempty)]
  have same : Option.Rel (AgreeOff "rpc_http_url") (Layered.ofSources document (ε₁ ++ ε₂))
      (Layered.ofSources document (ε₁ ++ ("SDK_RPC_HTTP_URL", u) :: ε₂)) := by
    rw [sources_append, sources_append]
    cases Layered.ofSources document ε₁ with
    | none => exact .none
    | some t =>
      rw [Option.bind_some, Option.bind_some, List.foldlM_cons, layVariable_late t text]
      exact (AgreeOff.put_right _ t _).layAll others.2
  rw [ofSources, readdressed, url]
  generalize Layered.ofSources document (ε₁ ++ ε₂) = o at same ⊢
  generalize Layered.ofSources document (ε₁ ++ _ :: ε₂) = o' at same ⊢
  cases same with
  | none => rfl
  | @some t t' same =>
    have sections : ofLayered t' = ofLayered t := ofLayered_congr fun shape m => same shape.key <| by
      revert shape
      decide
    change (ofLayered t' >>= fun s => (s.withUrl (some u)).validate) =
      ofLayered t >>= fun s => (s.withUrl (some u)).validate
    rw [sections]

/-- Where the layers have an address, the layered variable makes it another one. -/
theorem ofSources_layered (laid : Layered.ofSources document (ε₁ ++ ε₂) = some t) (kept : t.HasUrl) :
    ofSources document (ε₁ ++ ("SDK_RPC__HTTP_URL", u) :: ε₂) = readdressed (some t) u := by
  rw [List.forall_mem_append] at others
  have url : url? (ε₁ ++ ("SDK_RPC__HTTP_URL", u) :: ε₂) = none := by
    rw [url?, List.lookup_append, lookup_other others.1, Option.none_or, List.lookup_cons, lookup_other others.2]
    rfl
  rw [sources_append] at laid
  obtain ⟨t₁, first, rest⟩ := Option.bind_eq_some_iff.mp laid
  obtain ⟨t', laid', same⟩ := (Layered.readdressed_put u t₁).layAll others.2 rest kept
  have sources : Layered.ofSources document (ε₁ ++ ("SDK_RPC__HTTP_URL", u) :: ε₂) = some t' := by
    rw [sources_append, first, Option.bind_some, List.foldlM_cons, layVariable_layered t₁ text]
    exact laid'
  rw [ofSources, readdressed, url, sources]
  change (ofLayered t' >>= fun s => (s.withUrl none).validate) =
    ofLayered t >>= fun s => (s.withUrl (some u)).validate
  rw [ofLayered_readdressed same kept]
  cases ofLayered t <;> rfl

end Overrides

theorem ofFile_of_parse {file : Option String} (parsed : file.bind Toml.parse? = some document)
    (ε : Environment) : ofFile file ε = ofSources document ε := by
  obtain ⟨text, rfl, read⟩ := Option.bind_eq_some_iff.mp parsed
  rw [ofFile, read]

/-- Without a document the environment does not matter. -/
theorem ofFile_of_none {file : Option String} (none : file.bind Toml.parse? = none) (ε ε' : Environment) :
    ofFile file ε = ofFile file ε' := by
  cases file with
  | none => rfl
  | some text =>
    rw [Option.bind_some] at none
    rw [ofFile, ofFile, none]

/-- Where the file has an address, both variables set it alike, wherever they stand among the others. But
where the layers come to no settings, the late variable comes too late. -/
theorem ofFile_overrides {ε : Environment} {u : String} (others : ∀ x ∈ ε, Environment.Other x)
    (trimmed : Text.trimmed u = u) (nonempty : u ≠ "") (text : Environment.scalar u = .text u) :
    (∀ file, (∀ document ∈ file.bind Toml.parse?, ∃ t ∈ Layered.ofSources document ε, t.HasUrl) →
      ∀ ε₁ ε₂ δ₁ δ₂, ε₁ ++ ε₂ = ε → δ₁ ++ δ₂ = ε →
        ofFile file (ε₁ ++ ("SDK_RPC_HTTP_URL", u) :: ε₂) =
          ofFile file (δ₁ ++ ("SDK_RPC__HTTP_URL", u) :: δ₂)) ∧
    ∀ file, ∀ document ∈ file.bind Toml.parse?, ∀ t ∈ Layered.ofSources document ε, ∀ e,
      ofLayered t = .error e → ∀ ε₁ ε₂, ε₁ ++ ε₂ = ε →
        ofFile file (ε₁ ++ ("SDK_RPC_HTTP_URL", u) :: ε₂) = .error e := by
  constructor
  · intro file kept ε₁ ε₂ δ₁ δ₂ late layered
    cases parsed : file.bind Toml.parse? with
    | none => exact ofFile_of_none parsed _ _
    | some document =>
      obtain ⟨t, laid, kept⟩ := kept document parsed
      rw [ofFile_of_parse parsed, ofFile_of_parse parsed,
        ofSources_late (late ▸ others) text trimmed nonempty, late, Option.mem_def.mp laid]
      exact (ofSources_layered (layered ▸ others) text (layered ▸ laid) kept).symm
  · intro file document parsed t laid e failed ε₁ ε₂ late
    rw [ofFile_of_parse parsed, ofSources_late (late ▸ others) text trimmed nonempty, late,
      Option.mem_def.mp laid]
    change (ofLayered t >>= fun s => (s.withUrl (some u)).validate) = .error e
    rw [failed]
    rfl

/-- A file with an address, and one without. -/
theorem ofFile_overrides_both :
    let given := some "[rpc]\nhttp_url = 'a'\n[contracts]\nrocket_storage = 'x'"
    let absent := some "[rpc]\n[contracts]\nrocket_storage = 'x'"
    let level := ("SDK_LOG__LEVEL", "debug")
    ofFile given [("SDK_RPC_HTTP_URL", "http://x"), level] = ofFile given [level, ("SDK_RPC__HTTP_URL", "http://x")] ∧
      ofFile absent [("SDK_RPC_HTTP_URL", "http://x"), level] = .error (.missingField "http_url") := by
  intro given absent level
  have path : Environment.pathOf (Environment.folded level.1) = some [.key "log", .key "level"] := by
    decide +kernel
  have others : ∀ x ∈ [level], Environment.Other x := by
    refine List.forall_mem_singleton.mpr ⟨by decide, by simp [path], fun p set => ?_⟩
    simp [path] at set
  obtain ⟨alike, late⟩ := ofFile_overrides (u := "http://x") others (by decide +kernel) (by decide)
    (by decide +kernel)
  constructor
  · exact alike given (by decide +kernel) [] [level] [level] [] rfl rfl
  · obtain ⟨document, parsed, t, laid, failed⟩ : ∃ document ∈ absent.bind Toml.parse?,
        ∃ t ∈ Layered.ofSources document [level], ofLayered t = .error (.missingField "http_url") := by
      decide +kernel
    exact late absent document parsed t laid _ failed [] [level] rfl

/-- The late variable does not stand in for an address that is missing, the layered one does. -/
theorem ofFile_overrides_absent :
    let file := some "[rpc]\n[contracts]\nrocket_storage = 'x'"
    ofFile file [("SDK_RPC_HTTP_URL", "http://x")] = .error (.missingField "http_url") ∧
      ofFile file [("SDK_RPC__HTTP_URL", "http://x")] =
        .ok { rpc := ⟨"http://x", 30, 0⟩, contracts := { storage := "x" } } := by
  decide +kernel

end Settings

end PoolSnapshot
