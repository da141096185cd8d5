import PoolSnapshot.Proofs.Settings.Layering
import PoolSnapshot.Proofs.Settings.Numerals

/-!
Whole numbers in the settings. A field has the number that its layer plainly says, only that a rate has
thirty-two bits and says something else where its number has more.
-/
namespace PoolSnapshot

open Traverse

/-- The number, plainly written in the layer. -/
inductive Layer.Writes (n : Nat) : Layer → Scalar → Prop
  | file : Writes n .file (.integer n)
  | environment (digits : Text.digits? s.toList = some n) : Writes n .environment (Environment.scalar s)

theorem Layer.Writes.eq_integer {l : Layer} (h : l.Writes n x) (small : n < 2 ^ 63) : x = .integer n := by
  cases h with
  | file => rfl
  | environment digits => exact Environment.scalar_of_digits digits small

namespace Settings

/-- The layers of a file and an environment. -/
def layers? (text : Option String) (ε : Environment) : Option Layered :=
  (text.bind Toml.parse?).bind (Layered.ofSources · ε)

/-- The value that decides a field, with its layer. -/
def written? (t : Layered) (shape : Shape) (k : String) : Option (Layer × Scalar) :=
  match Section.ofLayered? t shape with
  | .ok (some σ) =>
    match σ.field? k with
    | some (_, .leaf l x) => some (l, x)
    | _ => none
  | _ => none

/-- The fields that are whole numbers. -/
def figures (s : Settings) : List (Shape × String × Nat) :=
  [(.rpc, "timeout_seconds", s.rpc.timeout), (.rpc, "qps_limit", s.rpc.rate)] ++
    s.batching.fields.map (Shape.batching, ·)

/-- What a number is kept as. -/
def kept (k : String) (n : Nat) : Nat := if k = "qps_limit" then n % 2 ^ 32 else n

variable {α : Type} {σ : Section} {t : Layered} {s : Settings}

theorem written?_eq_some : written? t shape k = some (l, x) ↔
    ∃ σ key, Section.ofLayered? t shape = .ok (some σ) ∧ σ.field? k = some (key, .leaf l x) := by
  rw [written?]
  split
  · next σ here =>
    split
    · next key l' x' field => simp [here, field]
    · next other =>
      simp only [here, Except.ok.injEq, Option.some_inj, reduceCtorEq, false_iff]
      rintro ⟨_, key, rfl, field⟩
      exact other _ _ _ field
  · next other =>
    simp only [reduceCtorEq, false_iff]
    rintro ⟨σ, -, here, -⟩
    exact other σ here

theorem nat?_of_writes (here : σ.field? k = some (key, .leaf l x)) (writes : l.Writes n x)
    (small : n < 2 ^ 63) : σ.nat? k = .ok (some n) := by
  have whole : Scalar.toNat (.integer n) = .ok n := by
    rw [Scalar.toNat, if_neg (Int.not_lt.mpr (Int.natCast_nonneg n))]
    rfl
  rw [Section.nat?, Section.read?, here, writes.eq_integer small]
  simp only [whole]

theorem read?_of_section {f : Section → Except SettingsError α} {o : Option α}
    (here : Section.ofLayered? t shape = .ok (some σ)) (read : read? t shape f = .ok o) :
    ∃ a, o = some a ∧ f σ = .ok a := by
  rw [read?, here] at read
  cases h : f σ with
  | error e => simp [bind, Except.bind, h] at read
  | ok a =>
    simp [bind, Except.bind, h] at read
    exact ⟨a, read.symm, rfl⟩

theorem endpoint_numbers (read : endpoint σ = .ok e) :
    (∃ o : Option Nat, σ.nat? "timeout_seconds" = .ok o ∧ e.timeout = o.getD 30) ∧
      ∃ o : Option Nat, σ.nat? "qps_limit" = .ok o ∧ e.rate = o.getD 0 % 2 ^ 32 := by
  simp only [endpoint, bind_eq_ok] at read
  obtain ⟨_, -, timeout, timed, rate, rated, _, -, ⟨⟩⟩ := read
  exact ⟨⟨timeout, timed, rfl⟩, rate, rated, rfl⟩

theorem sizes_numbers (read : sizes σ = .ok β) (m : f ∈ β.fields) :
    f.1 ≠ "qps_limit" ∧ ∃ (o : Option Nat) (d : Nat), σ.nat? f.1 = .ok o ∧ f.2 = o.getD d := by
  obtain ⟨p, size, o, here, rfl⟩ := exists_left (sizes_eq_ok_iff.mp read) m
  have other : ∀ p ∈ Batching.fields {}, p.1 ≠ "qps_limit" := by decide
  exact ⟨other p size, o, p.2, here, rfl⟩

/-- A number is what its section has for it, or a default. -/
theorem figures_read (read : ofLayered t = .ok s) (m : (shape, k, v) ∈ s.figures)
    (here : Section.ofLayered? t shape = .ok (some σ)) :
    ∃ (o : Option Nat) (d : Nat), σ.nat? k = .ok o ∧ v = kept k (o.getD d) := by
  simp only [ofLayered, bind_eq_ok, required_eq_ok] at read
  obtain ⟨_, rpc, _, -, batching, sized, _, -, e, rfl, _, -, ⟨⟩⟩ := read
  rw [figures, List.mem_append, List.mem_map] at m
  rcases m with m | ⟨f, m, same⟩
  · rcases List.mem_pair.mp m with same | same
    · cases same
      obtain ⟨_, ⟨⟩, made⟩ := read?_of_section here rpc
      obtain ⟨⟨timeout, timed, value⟩, -⟩ := endpoint_numbers made
      exact ⟨timeout, 30, timed, value⟩
    · cases same
      obtain ⟨_, ⟨⟩, made⟩ := read?_of_section here rpc
      obtain ⟨-, rate, rated, value⟩ := endpoint_numbers made
      exact ⟨rate, 0, rated, value⟩
  · cases same
    obtain ⟨β, rfl, made⟩ := read?_of_section here sized
    obtain ⟨other, o, d, read, value⟩ := sizes_numbers made m
    exact ⟨o, d, read, value.trans (if_neg other).symm⟩

theorem figures_withUrl (s : Settings) (u : Option String) : (s.withUrl u).figures = s.figures := by
  cases u <;> rfl

/-- Settings that were loaded were read from their layers. -/
theorem exists_layers (loaded : ofFile text ε = .ok s) :
    ∃ t s₀, layers? text ε = some t ∧ ofLayered t = .ok s₀ ∧ s₀.figures = s.figures := by
  cases text with
  | none => cases loaded
  | some u =>
    rw [ofFile] at loaded
    split at loaded
    · cases loaded
    · next document parsed =>
      obtain ⟨t, laid, loaded⟩ := bind_eq_ok.mp loaded
      obtain ⟨s₀, read, valid⟩ := bind_eq_ok.mp loaded
      obtain ⟨-, rfl⟩ := validate_eq_ok.mp valid
      refine ⟨t, s₀, ?_, read, (figures_withUrl _ _).symm⟩
      rw [layers?, Option.bind_some, parsed]
      exact required_eq_ok.mp laid

/-- A field has the number that the layer which decides it plainly writes, and so has the rate up to
thirty-two bits. In a file plain digits are the number that they say. -/
theorem ofFile_numbers {text : Option String} {ε : Environment} {s : Settings} (loaded : ofFile text ε = .ok s) :
    (∃ t, layers? text ε = some t ∧
      ∀ shape k v, (shape, k, v) ∈ s.figures → ∀ l x n, written? t shape k = some (l, x) →
        l.Writes n x → n < 2 ^ 63 →
          (k ≠ "qps_limit" ∨ n < 2 ^ 32 → v = n) ∧ (k = "qps_limit" → v = n % 2 ^ 32)) ∧
    ∀ ds rest n, Text.digits? ds = some n → ds.length = 1 ∨ ds.head? ≠ some '0' → n < 2 ^ 63 →
      (∀ c ∈ rest.head?, c ∈ Toml.closers) → Toml.leaf (ds ++ rest) = some (.leaf (.integer n), rest) := by
  refine ⟨?_, fun ds rest n => Toml.leaf_of_digits⟩
  obtain ⟨t, s₀, laid, read, same⟩ := exists_layers loaded
  refine ⟨t, laid, fun shape k v m l x n there writes small => ?_⟩
  obtain ⟨σ, key, here, field⟩ := written?_eq_some.mp there
  obtain ⟨o, d, number, value⟩ := figures_read read (same ▸ m) here
  cases number.symm.trans (nat?_of_writes field writes small)
  rw [Option.getD_some, kept] at value
  constructor
  · intro fits
    rw [value]
    split
    · next rate => exact Nat.mod_eq_of_lt (fits.resolve_left (absurd rate))
    · rfl
  · intro rate
    rw [value, if_pos rate]

/-- One number of the file, and one of the environment. -/
theorem ofFile_numbers_each :
    let text := "[rpc]\nhttp_url = 'a'\nqps_limit = 4294967295\n[contracts]\nrocket_storage = 'x'"
    let ε : Environment := [("SDK_BATCHING__VERSION_BATCH_SIZE", "0012")]
    (∃ t s, layers? (some text) ε = some t ∧ ofFile (some text) ε = .ok s ∧ s.rpc.rate = 4294967295 ∧
      s.batching.version = 12) ∧
    Toml.leaf ("4294967295".toList ++ ['\n']) = some (.leaf (.integer 4294967295), ['\n']) := by
  intro text ε
  obtain ⟨s, loaded⟩ : ∃ s, (ofFile (some text) ε).toOption = some s :=
    Option.isSome_iff_exists.mp (by decide +kernel)
  obtain ⟨⟨t, laid, each⟩, digits⟩ := ofFile_numbers (toOption_eq_some.mp loaded)
  have file : (layers? (some text) ε).bind (written? · .rpc "qps_limit") =
      some (.file, .integer 4294967295) := by
    decide +kernel
  have environment : (layers? (some text) ε).bind (written? · .batching "version_batch_size") =
      some (.environment, Environment.scalar "0012") := by
    decide +kernel
  rw [laid] at file environment
  refine ⟨⟨t, s, laid, toOption_eq_some.mp loaded, ?_, ?_⟩, ?_⟩
  · exact (each .rpc "qps_limit" _ (by simp [figures]) _ _ _ file .file (by decide)).1 (.inr (by decide))
  · refine (each .batching "version_batch_size" _ ?_ _ _ _ environment (.environment ?_) ?_).1 (.inl ?_)
    · simp [figures, Batching.fields]
    all_goals decide
  · exact digits _ _ _ (by decide) (by decide) (by decide) (by simp [Toml.closers])

/-- The rate is dropped to zero, which sets no limit. -/
theorem ofFile_numbers_dropped :
    let text := "[rpc]\nhttp_url = 'a'\nqps_limit = 4294967296\n[contracts]\nrocket_storage = 'x'"
    (layers? (some text) []).bind (written? · .rpc "qps_limit") = some (.file, .integer 4294967296) ∧
      ofFile (some text) [] = .ok { rpc := ⟨"a", 30, 0⟩, contracts := { storage := "x" } } :=
  ⟨by decide +kernel, toOption_eq_some.mp (by decide +kernel)⟩

end Settings

end PoolSnapshot
