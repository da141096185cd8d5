import PoolSnapshot.Proofs.Settings.Fields

/-!
Which settings come of a file and of the environment. The environment goes before the file, and one more
variable goes before both for the address of the node.
-/
namespace PoolSnapshot.Settings

open Traverse
open Toml (Value)

/-- What a key is given: by its variable, or else by the file. -/
def given (document : Value) (ε : Environment) (s k : String) : Option Value :=
  ((ε.value? s k).map fun v => .leaf (Environment.scalar v)).or ((document.at? s).bind (·.at? k))

/-- A variable of its own sets the address of the node, unless it is blank. -/
def address (ε : Environment) (url : String) : String :=
  match ε.lookup "SDK_RPC_HTTP_URL" with
  | none => url
  | some v => if Text.trimmed v = "" then url else Text.trimmed v

structure Of (document : Value) (ε : Environment) (s : Settings) : Prop where
  rpc : ∃ e : Endpoint, e.Of (given document ε "rpc") ∧ s.rpc = { e with url := address ε e.url }
  contracts : s.contracts.Of (given document ε "contracts")
  batching : s.batching.Of (given document ε "batching")
  level : Value.readOr Value.asText? "info" (given document ε "log" "level") = some s.level

structure Valid (s : Settings) : Prop where
  url : Text.trimmed s.rpc.url ≠ ""
  timeout : 0 < s.rpc.timeout
  sizes : ∀ n ∈ [s.batching.address, s.batching.version, s.batching.minipool, s.batching.completeShare,
    s.batching.odaoDetails, s.batching.challengeState], 0 < n
  maxConcurrent : 0 < s.batching.maxConcurrent

/-- The fields that are text. -/
def texts : List (String × String) :=
  [("rpc", "http_url"), ("contracts", "rocket_storage"), ("contracts", "multicall"), ("log", "level")]

/-- The fields that are whole numbers. -/
def numbers : List (String × String) :=
  [("rpc", "timeout_seconds"), ("rpc", "qps_limit")] ++ Shape.batching.fields.map ("batching", ·)

/-- The fields without a default. -/
def needed : List (String × String) := [("rpc", "http_url"), ("contracts", "rocket_storage")]

variable {document : Value} {ε : Environment} {s : Settings}

theorem fault?_eq_none : s.fault? = none ↔ s.Valid := by
  rw [fault?]
  split
  · next blank => exact ⟨nofun, fun v => absurd blank v.url⟩
  split
  · next zero => exact ⟨nofun, fun v => absurd zero (Nat.ne_of_gt v.timeout)⟩
  next url timeout =>
    have sizes : s.batching.zeroField? = none ↔
        (∀ n ∈ [s.batching.address, s.batching.version, s.batching.minipool, s.batching.completeShare,
          s.batching.odaoDetails, s.batching.challengeState], 0 < n) ∧ 0 < s.batching.maxConcurrent := by
      simp [Batching.zeroField?, Batching.fields, Nat.pos_iff_ne_zero, and_assoc]
    rw [Option.map_eq_none_iff, sizes]
    exact ⟨fun h => ⟨url, Nat.pos_of_ne_zero timeout, h.1, h.2⟩, fun v => ⟨v.sizes, v.maxConcurrent⟩⟩

theorem validate_eq_ok : s.validate = .ok s' ↔ s.Valid ∧ s = s' := by
  rw [validate, ← fault?_eq_none]
  cases s.fault? <;> simp

theorem withUrl_url? (ε : Environment) (s : Settings) :
    s.withUrl (url? ε) = { s with rpc.url := address ε s.rpc.url } := by
  rw [url?, address]
  cases ε.lookup "SDK_RPC_HTTP_URL" with
  | none => rfl
  | some v =>
    by_cases blank : Text.trimmed v = "" <;> simp [withUrl, Option.filter, blank]

/-- Where every value fits its field, settings come of the sources. -/
theorem exists_of (there : ∀ p ∈ needed, given document ε p.1 p.2 ≠ none)
    (text : ∀ p ∈ texts, ∀ v ∈ given document ε p.1 p.2, v.asText? ≠ none)
    (number : ∀ p ∈ numbers, ∀ v ∈ given document ε p.1 p.2, v.asNat? ≠ none) :
    ∃ s, Of document ε s := by
  have must {p} (m : p ∈ needed) (n : p ∈ texts) :
      ∃ s, (given document ε p.1 p.2).bind Value.asText? = some s := by
    obtain ⟨v, h⟩ := Option.ne_none_iff_exists'.mp (there p m)
    rw [h]
    exact Option.ne_none_iff_exists'.mp (text p n v h)
  have may {p} (m : p ∈ texts) (d : String) :=
    Value.exists_readOr d fun v h => Option.isSome_iff_ne_none.mpr (text p m v h)
  have count {p} (m : p ∈ numbers) (d : Nat) :=
    Value.exists_readOr d fun v h => Option.isSome_iff_ne_none.mpr (number p m v h)
  obtain ⟨url, url'⟩ := must (p := ("rpc", "http_url")) (by decide) (by decide)
  obtain ⟨timeout, timeout'⟩ := count (p := ("rpc", "timeout_seconds")) (by decide) 30
  obtain ⟨rate, rate'⟩ := count (p := ("rpc", "qps_limit")) (by decide) 0
  obtain ⟨storage, storage'⟩ := must (p := ("contracts", "rocket_storage")) (by decide) (by decide)
  obtain ⟨multicall, multicall'⟩ :=
    may (p := ("contracts", "multicall")) (by decide) "0xcA11bde05977b3631167028862bE2a173976CA11"
  obtain ⟨level, level'⟩ := may (p := ("log", "level")) (by decide) "info"
  obtain ⟨β, batching⟩ := Batching.exists_of fun k m v => number ("batching", k)
    (List.mem_append_right _ (List.mem_map.mpr ⟨k, m, rfl⟩)) v
  exact ⟨⟨⟨address ε url, timeout, rate % Nat.pow 2 32⟩, ⟨storage, multicall⟩, β, level⟩,
    ⟨⟨url, timeout, rate % Nat.pow 2 32⟩, ⟨url', timeout', by rw [rate']; rfl⟩, rfl⟩,
    ⟨storage', multicall'⟩, batching, level'⟩

section Sources

variable (parsed : Toml.parse? text = some document)
  (plain : ∀ e ∈ document.entries, '.' ∉ e.1.toList ∧ '[' ∉ e.1.toList)
  (tables : ∀ shape ∈ shapes, ∀ v, document.at? shape.key = some v → v.IsTable) (overrides : ε.Plain)

include parsed plain tables overrides

theorem exists_laid : ∃ t, Layered.ofSources document ε = some t ∧ t.Sectioned ∧
    ∀ p ∈ keys, Option.Rel Layered.Shows (t.at? p.1 p.2) (given document ε p.1 p.2) := by
  obtain ⟨t₀, file, each⟩ := Layered.layFile_shows parsed plain
  obtain ⟨t, later, sectioned, each'⟩ :=
    Layered.exists_layEnvironment (t := t₀) overrides fun shape m => (each shape.key (tables shape m)).1
  refine ⟨t, ?_, sectioned, fun p m => ?_⟩
  · rw [Layered.ofSources, file]
    exact later
  · rw [each' p m, given]
    cases ε.value? p.1 p.2 with
    | some v => exact .some rfl
    | none =>
      obtain ⟨shape, n, same⟩ := exists_shape m
      rw [same]
      exact (each shape.key (tables shape n)).2 p.2

theorem ofSources_eq_ok : ofSources document ε = .ok s ↔ s.Of document ε ∧ s.Valid := by
  obtain ⟨t, laid, sectioned, shown⟩ := exists_laid parsed plain tables overrides
  have run : ofSources document ε = ofLayered t >>= fun s => (s.withUrl (url? ε)).validate := by
    rw [ofSources, laid]
    rfl
  rw [run, bind_eq_ok]
  simp only [ofLayered_eq_ok sectioned shown, withUrl_url?, validate_eq_ok]
  constructor
  · rintro ⟨s₀, ⟨rpc, contracts, batching, level⟩, valid, rfl⟩
    exact ⟨⟨⟨s₀.rpc, rpc, rfl⟩, contracts, batching, level⟩, valid⟩
  · rintro ⟨⟨⟨e, rpc, same⟩, contracts, batching, level⟩, valid⟩
    have back : { s with rpc := { e with url := address ε e.url } } = s := by rw [← same]
    exact ⟨{ s with rpc := e }, ⟨rpc, contracts, batching, level⟩, back ▸ valid, back⟩

end Sources

/-- A file and an environment give the settings that come of them, if these are valid. They fail only where
a value is missing, or is of no use to its field, or where what comes of them is not valid. -/
theorem ofFile_layered {text : String} {document : Value} {ε : Environment}
    (parsed : Toml.parse? text = some document)
    (plain : ∀ e ∈ document.entries, '.' ∉ e.1.toList ∧ '[' ∉ e.1.toList)
    (tables : ∀ shape ∈ shapes, ∀ v, document.at? shape.key = some v → v.IsTable) (overrides : ε.Plain) :
    (∀ s, ofFile (some text) ε = .ok s ↔ s.Of document ε ∧ s.Valid) ∧
    ∀ e, ofFile (some text) ε = .error e →
      (∃ p ∈ needed, given document ε p.1 p.2 = none) ∨
      (∃ p ∈ texts, ∃ v ∈ given document ε p.1 p.2, v.asText? = none) ∨
      (∃ p ∈ numbers, ∃ v ∈ given document ε p.1 p.2, v.asNat? = none) ∨
      ∃ s : Settings, s.Of document ε ∧ ¬ s.Valid := by
  have run : ofFile (some text) ε = ofSources document ε := by
    rw [ofFile, parsed]
  have accepts {s} := ofSources_eq_ok (s := s) parsed plain tables overrides
  rw [run]
  refine ⟨fun s => accepts, fun e failed => ?_⟩
  by_contra none
  push Not at none
  obtain ⟨there, text, number, valid⟩ := none
  obtain ⟨s, comes⟩ := exists_of there text number
  rw [accepts.mpr ⟨comes, valid s comes⟩] at failed
  cases failed

/-- The address is trimmed, and a timeout that says yes is one second. -/
theorem ofFile_layered_overridden :
    let text := "[rpc]\nhttp_url = 'a'\nqps_limit = 7\n[contracts]\nrocket_storage = 1"
    let ε : Environment := [("SDK_RPC_HTTP_URL", " b "), ("sdk_rpc__timeout_seconds", "TRUE")]
    let s : Settings := { rpc := ⟨"b", 1, 7⟩, contracts := { storage := "1" } }
    ∃ document, Toml.parse? text = some document ∧
      (∀ e ∈ document.entries, '.' ∉ e.1.toList ∧ '[' ∉ e.1.toList) ∧
      (∀ shape ∈ shapes, ∀ v, document.at? shape.key = some v → v.IsTable) ∧ ε.Plain ∧
      ofFile (some text) ε = .ok s ∧ s.Of document ε ∧ s.Valid := by
  intro text ε s
  obtain ⟨document, parsed⟩ : ∃ document, Toml.parse? text = some document :=
    Option.isSome_iff_exists.mp (by decide +kernel)
  have plain : ∀ document ∈ Toml.parse? text,
      ∀ e ∈ document.entries, '.' ∉ e.1.toList ∧ '[' ∉ e.1.toList := by
    decide +kernel
  have tables : ∀ document ∈ Toml.parse? text,
      ∀ shape ∈ shapes, ∀ v ∈ document.at? shape.key, v.IsTable := by
    decide +kernel
  have overrides : ε.Plain := ⟨by decide +kernel, by decide +kernel⟩
  have loaded : ofFile (some text) ε = .ok s := toOption_eq_some.mp (by decide +kernel)
  have layered := ofFile_layered parsed (plain _ parsed) (tables _ parsed) overrides
  exact ⟨document, parsed, plain _ parsed, tables _ parsed, overrides, loaded, (layered.1 s).mp loaded⟩

end PoolSnapshot.Settings
