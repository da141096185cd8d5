import PoolSnapshot.Abi.Function
import PoolSnapshot.Call

/-!
One request to a multicall contract that stands for many calls. Equal calls are sent once and share
their outcome; the response is a list of flags and answers in the order sent.
-/
namespace PoolSnapshot

open Abi (Function Ty Value)

namespace Call

/-- Each call once, where it first occurs. -/
def distinct : List Call → List Call
  | [] => []
  | c :: cs => c :: (distinct cs).filter (· ≠ c)

/-- The outcomes of the calls sent, handed to all calls they stand for. -/
def expand (calls sent : List Call) (outcomes : List Outcome) : List Outcome :=
  calls.filterMap fun c => (sent.zip outcomes).lookup c

end Call

namespace Aggregate

def callTy : Ty := .tuple [.address, .bool, .bytes]

def outcomeTy : Ty := .tuple [.bool, .bytes]

def function : Function := ⟨"aggregate3", [("calls", .array callTy)], [.array outcomeTy], .payable⟩

def callValue (allowFailure : Bool) (c : Call) : Value :=
  .tuple [.address c.target, .bool allowFailure, .bytes c.data]

def outcomeValue (o : Outcome) : Value := .tuple [.bool o.success, .bytes o.data]

def encodeCalls (calls : List Call) (allowFailure : Bool) : Bytes :=
  function.selector ++ Abi.encode [.array (calls.map (callValue allowFailure))]

def encodeOutcomes (os : List Outcome) : Bytes := Abi.encode [.array (os.map outcomeValue)]

def outcome? : Value → Option Outcome
  | .tuple [.bool success, .bytes data] => some ⟨success, data⟩
  | _ => none

def decodeOutcomes (data : Bytes) : Reply :=
  match Abi.decode [.array outcomeTy] data with
  | .error e => .error (.malformedResponse e.message)
  | .ok [.array vs] =>
    match vs.mapM outcome? with
    | some os => .ok os
    | none => .error (.malformedResponse "result tuple is not (bool, bytes)")
  | .ok _ => .error (.malformedResponse "missing result array")

end Aggregate

/-- A read-only execution at a block. -/
structure Execution where
  target : Address
  data : Bytes
  block : Nat
  deriving DecidableEq

/-- What a node makes of an execution. A result is text, or something that is no text. -/
inductive NodeReply where
  | unreachable (reason : String)
  | refused (code : Int) (message : String)
  | result (text : Option String)
  deriving DecidableEq

namespace NodeReply

def isRevert (message : String) : Bool := message.contains "revert"

def read : NodeReply → Except BatchError Bytes
  | .unreachable r => .error (.transport r)
  | .refused code m =>
    if isRevert m then .error (.reverted m) else .error (.transport s!"rpc error {code}: {m}")
  | .result t =>
    match t.bind Hex.toBytes? with
    | some b => .ok b
    | none => .error (.transport "result is not hex data")

end NodeReply

structure Multicall where
  address : Address
  timeout : Duration := .ofSeconds 30
  deriving DecidableEq

namespace Multicall

/-- No calls need no request. -/
def execution (μ : Multicall) (ρ : Request) : Option Execution :=
  if ρ.calls.isEmpty then none
  else some ⟨μ.address, Aggregate.encodeCalls (Call.distinct ρ.calls) ρ.allowFailure, ρ.block⟩

def settle (calls : List Call) (reply : NodeReply) : Reply := do
  let sent := Call.distinct calls
  let os ← Aggregate.decodeOutcomes (← reply.read)
  if os.length = sent.length then .ok (Call.expand calls sent os)
  else .error (.outcomeCount sent.length os.length)

/-- The answer of a node that takes no time. -/
def aggregate (μ : Multicall) (node : Execution → NodeReply) (ρ : Request) : Reply :=
  match μ.execution ρ with
  | none => .ok []
  | some ε => settle ρ.calls (node ε)

/-- The answer of a node that replies after `delay` milliseconds, and when it is there. -/
def aggregateAfter (μ : Multicall) (delay : Nat) (node : Execution → NodeReply) (ρ : Request) :
    Reply × Nat :=
  match μ.execution ρ with
  | none => (.ok [], 0)
  | some ε =>
    if delay ≤ μ.timeout.millis then (settle ρ.calls (node ε), delay)
    else (.error (.timeout μ.timeout), μ.timeout.millis)

end Multicall

end PoolSnapshot
