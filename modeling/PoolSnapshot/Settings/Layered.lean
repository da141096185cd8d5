import PoolSnapshot.Keyed
import PoolSnapshot.Toml.Document

/-!
Values laid over each other in layers. Each remembers the layer that it came from, but tables that
were joined, and lists that were made to hold a place, came from none.
-/
namespace PoolSnapshot

inductive Layer where
  | file
  | environment
  deriving DecidableEq

inductive Layered where
  /-- A place before one that was set. -/
  | vacant
  | leaf (l : Layer) (s : Scalar)
  | list (l : Option Layer) (items : List Layered)
  | table (l : Option Layer) (entries : List (String × Layered))

/-- A step into a table, or into a list; places below zero count from its end. -/
inductive Layered.Step where
  | key (k : String)
  | place (i : Int)
  deriving DecidableEq

namespace Layered

def layer? : Layered → Option Layer
  | .vacant => none
  | .leaf l _ => some l
  | .list l _ | .table l _ => l

/-- The entries of a table; anything else has none. -/
def entries : Layered → List (String × Layered)
  | .table _ es => es
  | _ => []

def items : Layered → List Layered
  | .list _ ts => ts
  | _ => []

def get? (t : Layered) (k : String) : Option Layered := t.entries.lookup k

/-- A table with other entries. What is no table becomes one. -/
def withEntries (es : List (String × Layered)) : Layered → Layered
  | .table l _ => .table l es
  | _ => .table none es

def withItems (ts : List Layered) : Layered → Layered
  | .list l _ => .list l ts
  | _ => .list none ts

def put (t : Layered) (k : String) (v : Layered) : Layered := t.withEntries (Keyed.put k v t.entries)

/-- What stands under a key, an empty table if nothing does. -/
def under (t : Layered) (k : String) : Layered := (t.get? k).getD (.table none [])

mutual

/-- Lays the first over the second: tables are joined key by key, and all else replaces. -/
def onto : Layered → Layered → Layered
  | .vacant => fun _ => .vacant
  | .leaf l s => fun _ => .leaf l s
  | .list l ts => fun _ => .list l ts
  | .table _ es => ontoEach es

def ontoEach : List (String × Layered) → Layered → Layered
  | [] => id
  | (k, v) :: es => fun t => ontoEach es (t.put k (onto v (t.under k)))

end

/-- No list is longer than this. -/
def capacity : Nat := Nat.pow 2 28

def place? (len : Nat) (i : Int) : Option Nat :=
  let i := if 0 ≤ i then i else len + i
  if 0 ≤ i ∧ i < capacity then some i.toNat else none

/-- Makes room up to a place. -/
def reaching (n : Nat) (ts : List Layered) : List Layered :=
  ts ++ List.replicate (n + 1 - ts.length) .vacant

/-- Changes what stands at the end of a path, if lists have the places that it asks for. -/
def updateAt (f : Layered → Layered) : List Step → Layered → Option Layered
  | [], t => some (f t)
  | .key k :: p, t => (updateAt f p (t.under k)).map (t.put k)
  | .place i :: p, t => do
    let n ← place? t.items.length i
    let ts := reaching n t.items
    return t.withItems (ts.set n (← updateAt f p (ts.getD n .vacant)))

/-- Lays a value down at the end of a path. In a list it replaces what was there. -/
def lay (t : Layered) (p : List Step) (v : Layered) : Option Layered :=
  match p.getLast? with
  | some (.place _) => t.updateAt (fun _ => v) p
  | _ => t.updateAt v.onto p

mutual

def ofDocument : Toml.Value → Layered
  | .leaf s => .leaf .file s
  | .list vs => .list (some .file) (ofDocuments vs)
  | .table es => .table (some .file) (ofEntries es)

def ofDocuments : List Toml.Value → List Layered
  | [] => []
  | v :: vs => ofDocument v :: ofDocuments vs

def ofEntries : List (String × Toml.Value) → List (String × Layered)
  | [] => []
  | (k, v) :: es => (k, ofDocument v) :: ofEntries es

end

theorem get?_put (t : Layered) (k k' : String) (v : Layered) :
    (t.put k v).get? k' = if k' = k then some v else t.get? k' := by
  cases t <;> exact Keyed.lookup_put ..

end Layered

end PoolSnapshot
