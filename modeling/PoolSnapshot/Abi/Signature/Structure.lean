import PoolSnapshot.Abi.Signature.Mention
import PoolSnapshot.Abi.Signature.Parameter

/-!
Structs: declared with fields, resolved to the types of their fields, and then used like any other
type. A struct may be declared before those that its fields use.
-/
namespace PoolSnapshot.Abi.Signature

/-- Structs by name, with the types of their fields. -/
abbrev Structs := List (String × List Ty)

namespace Structs

def mentioned (τ : Structs) (s : List Char) : Except Fault Ty :=
  match Mention.read s with
  | .error _ => .error (.noType (String.ofList s))
  | .ok μ =>
    match τ.lookup μ.name with
    | some ts => .ok (μ.ty ts)
    | none => .error (.unknownStruct μ.name)

def ty (τ : Structs) (s : List Char) : Except Fault Ty :=
  Fault.recover (Parameter.read s) (τ.mentioned s)

end Structs

inductive FieldTy where
  | plain (t : Ty)
  | struct (μ : Mention)
  | mapping

namespace FieldTy

/-- An address that can be paid is stored like any other. -/
def unpaid (s : List Char) : List Char :=
  if " payable".toList.isSuffixOf s then Text.trimEnd Text.isBlank (s.take (s.length - 7)) else s

/-- A type, or a mapping from an elementary type to another field type. -/
def readFrom : Nat → List Char → Except Fault FieldTy
  | 0, s => .error (.nothingToName (String.ofList s))
  | n + 1, s =>
    let s := s.dropWhile Text.isBlank
    match Text.after? "mapping".toList s with
    | some s => do
      let s := Text.trim Text.isBlank s
      let text := String.ofList s
      let s := Text.trimEnd (· = ')') (s.dropWhile (· = '('))
      let (key, value) := ((Text.cutAt "=>".toList s).map (·.map id some)).getD (s, none)
      let κ ← Parameter.read (Text.trim Text.isBlank key)
      if !κ.isElementary then throw (.noKey text κ.shown)
      let some value := value | throw (.noMappedType text)
      let _ ← readFrom n (Text.trim Text.isBlank value)
      return .mapping
    | none =>
      let s := unpaid s
      Fault.recover (.plain <$> Parameter.read s)
        (.struct <$> Mention.read (Text.trimEnd Text.isBlank s))

def read (s : List Char) : Except Fault FieldTy := readFrom (s.length + 1) s

def ty (τ : Structs) (struct field : String) : FieldTy → Except Fault Ty
  | .plain t => .ok t
  | .struct μ =>
    match τ.lookup μ.name with
    | some ts => .ok (μ.ty ts)
    | none => .error (.unresolved struct field μ.shown)
  | .mapping => .error (.mapped struct)

end FieldTy

structure Structure where
  name : String
  fields : List (String × FieldTy)

namespace Structure

/-- A type and a name. An initial value is left out. -/
def field (s : List Char) : Except Fault (String × FieldTy) := do
  let s := s.dropWhile Text.isBlank
  let s := if "mapping".toList.isPrefixOf s then s
    else Text.trimEnd Text.isBlank (s.takeWhile (· ≠ '='))
  match Text.cutLast isSpace (Text.trimEnd Text.isBlank s) with
  | some (type, k) =>
    let (k, _) ← takeName k
    return (k, ← FieldTy.read (Text.trimEnd Text.isBlank type))
  | none =>
    let _ ← takeName s
    throw (.noFieldType (String.ofList s))

def read (line : List Char) : Except Fault Structure := do
  let text := String.ofList line
  let some s := keyword? "struct" line | throw (.noStruct text)
  let (k, s) ← takeName s
  match s.dropWhile isSpace with
  | [] => throw .noFields
  | '\x7B' :: s =>
    let some s := Text.before? ['\x7D'] (Text.trim Text.isBlank s) | throw (.unclosedFields text)
    let fields := (Text.splitOn ';' (Text.trimEnd Text.isBlank s)).filter (!·.isEmpty)
    return ⟨k, ← fields.mapM field⟩
  | c :: _ => throw (.stray c text)

def tys (τ : Structs) (σ : Structure) : Except Fault (List Ty) :=
  σ.fields.mapM fun (k, φ) => φ.ty τ σ.name k

/-- Puts off a struct until those that it uses are known; when a whole round was put off, one is
missing. -/
def resolveFrom (putOff : Nat) : List Structure → Structs → Except Fault Structs
  | [], τ => .ok τ
  | σ :: σs, τ =>
    match σ.tys τ with
    | .ok ts => resolveFrom 0 σs ((σ.name, ts) :: τ)
    | .error (.unresolved k f t) =>
      if σs.length ≤ putOff then .error (.unresolved k f t)
      else resolveFrom (putOff + 1) (σs ++ [σ]) τ
    | .error φ => .error φ
  termination_by σs _ => (σs.length, σs.length - putOff)

def resolve (σs : List Structure) : Except Fault Structs := resolveFrom 0 σs []

end Structure

/-- Reads the declarations one by one, so that a second one of a name is found before a later fault. -/
def Structs.ofLines : List (List Char) → List Structure → Except Fault Structs
  | [], σs => Structure.resolve σs
  | l :: ls, σs => do
    let σ ← Structure.read l
    if σs.any (·.name = σ.name) then throw (.declaredTwice σ.name)
    ofLines ls (σs ++ [σ])

end PoolSnapshot.Abi.Signature
