import PoolSnapshot.Abi.Reading
import PoolSnapshot.Contract.Basic
import PoolSnapshot.Schedule.Worker

/-!
Batches of reads: each call carries the record it belongs to and what its answer does to that record,
so an outcome is always decoded by the function that was called.
-/
namespace PoolSnapshot

open Abi (Function Value Readable)

/-- A read to be queued: record `slot` takes the answer of `method` as `store` says. -/
structure Read (R : Type) where
  slot : Nat
  contract : Contract
  method : String
  args : List Value
  store : Value → Except String (R → R)

/-- A read that was queued, with the call that stands for it. -/
structure Entry (R : Type) where
  slot : Nat
  function : Function
  call : Call
  store : Value → Except String (R → R)

abbrev Batch (R : Type) := List (Entry R)

inductive CallMode where
  | strict
  | lenient
  deriving DecidableEq

namespace Read

variable {R α : Type}

def of [Readable α] (slot : Nat) (κ : Contract) (method : String) (args : List Value)
    (set : R → α → R) : Read R :=
  ⟨slot, κ, method, args, fun v => (v.read α).map fun a r => set r a⟩

def entry (ρ : Read R) : Except BatchError (Entry R) := do
  let f ← ρ.contract.function ρ.method
  let c ← ρ.contract.call f ρ.args
  return ⟨ρ.slot, f, c, ρ.store⟩

end Read

namespace Entry

variable {R : Type}

def decode (e : Entry R) (data : Bytes) : Except String (R → R) :=
  match e.function.decodeOutput data with
  | .error r => .error r.message
  | .ok [] => .error "empty output"
  | .ok (v :: _) => e.store v

/-- What the `i`-th outcome does to its record, or why it does nothing. -/
def effect (e : Entry R) (i : Nat) (o : Outcome) : Except BatchError (R → R) :=
  if o.success then (e.decode o.data).mapError (.decode e.function.name e.call.target)
  else .error (.callFailed i e.function.name e.call.target)

end Entry

namespace Batch

variable {R : Type}

/-- A refused read leaves the batch as it was. -/
def add (b : Batch R) (ρ : Read R) : Except BatchError (Batch R) := return b ++ [← ρ.entry]

def ofReads (ρs : List (Read R)) : Except BatchError (Batch R) := ρs.mapM Read.entry

def request (b : Batch R) (mode : CallMode) (block : Nat) : Request :=
  ⟨b.map (·.call), mode = .lenient, block⟩

/-- Outcomes in order from the `i`-th on. Strict mode ends at the first without effect; lenient mode
counts it as failed and goes on. -/
def bind (mode : CallMode) : Nat → List (Entry R × Outcome) → List R →
    List R × Except BatchError (List Bool)
  | _, [], rs => (rs, .ok [])
  | i, (e, o) :: es, rs =>
    if e.slot < rs.length then
      match e.effect i o, mode with
      | .ok f, _ =>
        let (rs, flags) := bind mode (i + 1) es (rs.modify e.slot f)
        (rs, flags.map (true :: ·))
      | .error _, .lenient =>
        let (rs, flags) := bind mode (i + 1) es rs
        (rs, flags.map (false :: ·))
      | .error err, .strict => (rs, .error err)
    else (rs, .error (.slotOutOfRange e.slot rs.length))

/-- The records after a reply, and a flag for each call. -/
def settle (b : Batch R) (mode : CallMode) (reply : Reply) (rs : List R) :
    List R × Except BatchError (List Bool) :=
  match reply with
  | .error e => (rs, .error e)
  | .ok os =>
    if os.length = b.length then bind mode 0 (b.zip os) rs
    else (rs, .error (.outcomeCount b.length os.length))

/-- An empty batch makes no round trip. -/
def execute (b : Batch R) (aggregate : Request → Reply) (mode : CallMode) (block : Nat)
    (rs : List R) : List R × Except BatchError (List Bool) :=
  if b.isEmpty then (rs, .ok []) else b.settle mode (aggregate (b.request mode block)) rs

/-- The batch as a worker of at most one round trip; `finish` sees the flags. -/
def worker {ε : Type} (b : Batch R) (mode : CallMode) (block : Nat) (report : BatchError → ε)
    (finish : List Bool → List R → List R) : Worker Request Reply ε R :=
  if b.isEmpty then []
  else [.ask (b.request mode block) fun reply rs =>
    match b.settle mode reply rs with
    | (rs, .ok flags) => (finish flags rs, none)
    | (rs, .error e) => (rs, some (report e))]

end Batch

namespace Read

variable {R ε : Type}

def workerWith (ρs : List (Read R)) (mode : CallMode) (block : Nat) (report : BatchError → ε)
    (finish : List Bool → List R → List R) : Worker Request Reply ε R :=
  match Batch.ofReads ρs with
  | .ok b => b.worker mode block report finish
  | .error e => .fail (report e)

/-- All reads must succeed. A read that cannot be queued fails without a request. -/
def worker (ρs : List (Read R)) (block : Nat) (report : BatchError → ε) :
    Worker Request Reply ε R :=
  workerWith ρs .strict block report fun _ rs => rs

end Read

end PoolSnapshot
