import PoolSnapshot.Batching
import PoolSnapshot.Settings.Error

/-!
Sections of the settings, and their fields read as text or as whole numbers. A section written as a
list has its fields by place.
-/
namespace PoolSnapshot

namespace Scalar

/-- A whole number of 64 bits. Text may also say yes or no. -/
def toNat : Scalar → Except (Found × Wanted) Nat
  | .bool b => .ok b.toNat
  | .integer n => if n < 0 then .error (.negative n, .unsigned) else .ok n.toNat
  | .real x => .ok x.toWhole
  | .text s =>
    match s.toLower with
    | "true" | "on" | "yes" => .ok 1
    | "false" | "off" | "no" => .ok 0
    | _ =>
      match (Text.natural? s.toList).filter (· < Nat.pow 2 64) with
      | some n => .ok n
      | none => .error (.text s, .whole)

end Scalar

structure Shape where
  key : String
  label : String
  fields : List String

namespace Shape

def rpc : Shape := ⟨"rpc", "Rpc", ["http_url", "timeout_seconds", "qps_limit"]⟩

def contracts : Shape := ⟨"contracts", "Contracts", ["rocket_storage", "multicall"]⟩

def batching : Shape := ⟨"batching", "Batching", (Batching.fields {}).map (·.1)⟩

def log : Shape := ⟨"log", "Log", ["level"]⟩

end Shape

structure Section where
  shape : Shape
  body : Layered

namespace Section

def field? (σ : Section) (name : String) : Option (String × Layered) :=
  match σ.body with
  | .vacant | .leaf .. => none
  | .table _ es => (es.lookup name).map (s!"{σ.shape.key}.{name}", ·)
  | .list _ ts =>
    let i := σ.shape.fields.idxOf name
    ts[i]?.map (s!"{σ.shape.key}[{i}]", ·)

def read? {α : Type} (σ : Section) (wanted : Wanted) (f : Scalar → Except (Found × Wanted) α)
    (name : String) : Except SettingsError (Option α) :=
  match σ.field? name with
  | none => .ok none
  | some (key, v) =>
    let r : Except (Found × Wanted) α := match v with
      | .vacant => .error (.nothing, wanted)
      | .leaf _ s => f s
      | .list .. => .error (.list, wanted)
      | .table .. => .error (.table, wanted)
    match r with
    | .ok a => .ok (some a)
    | .error (found, wanted) => .error (.mismatch key found wanted v.layer?)

def nat? (σ : Section) : String → Except SettingsError (Option Nat) := σ.read? .whole Scalar.toNat

def text? (σ : Section) : String → Except SettingsError (Option String) :=
  σ.read? .text fun s => .ok s.toText

/-- What to say of a field that must be there. -/
def missing (σ : Section) (name : String) : SettingsError :=
  match σ.body with
  | .list .. =>
    .shortSection σ.shape.label (σ.shape.fields.idxOf name) σ.shape.fields.length
  | _ => .missingField name

def ofLayered? (t : Layered) (shape : Shape) : Except SettingsError (Option Section) :=
  match t.get? shape.key with
  | none | some .vacant => .ok none
  | some (.leaf _ s) => .error (.noSection shape.label s)
  | some body => .ok (some ⟨shape, body⟩)

end Section

end PoolSnapshot
