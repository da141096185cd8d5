import PoolSnapshot.Settings.Section
import PoolSnapshot.Text.Blank

/-!
The settings: where the node is, which contracts everything starts from, how requests are cut, and how
much is logged. A field is taken from the environment, else from the file, else it has a default.
-/
namespace PoolSnapshot

/-- The rate is in round trips per second, and zero sets no limit. -/
structure Endpoint where
  url : String
  timeout : Nat := 30
  rate : Nat := 0
  deriving DecidableEq

structure Roots where
  storage : String
  multicall : String := "0xcA11bde05977b3631167028862bE2a173976CA11"
  deriving DecidableEq

structure Settings where
  rpc : Endpoint
  contracts : Roots
  batching : Batching := {}
  level : String := "info"
  deriving DecidableEq

namespace Settings

def required {α : Type} (e : SettingsError) : Option α → Except SettingsError α
  | some a => .ok a
  | none => .error e

/-- Rates have 32 bits, and higher ones are dropped. -/
def endpoint (σ : Section) : Except SettingsError Endpoint := do
  let url ← σ.text? "http_url"
  let timeout ← σ.nat? "timeout_seconds"
  let rate ← σ.nat? "qps_limit"
  return ⟨← required (σ.missing "http_url") url, timeout.getD 30, rate.getD 0 % Nat.pow 2 32⟩

def roots (σ : Section) : Except SettingsError Roots := do
  let storage ← σ.text? "rocket_storage"
  let multicall ← σ.text? "multicall"
  let ρ : Roots := { storage := ← required (σ.missing "rocket_storage") storage }
  return { ρ with multicall := multicall.getD ρ.multicall }

def sizes (σ : Section) : Except SettingsError Batching := do
  let β : Batching := {}
  return {
    address := (← σ.nat? "address_batch_size").getD β.address
    version := (← σ.nat? "version_batch_size").getD β.version
    minipool := (← σ.nat? "minipool_batch_size").getD β.minipool
    completeShare := (← σ.nat? "complete_share_batch_size").getD β.completeShare
    odaoDetails := (← σ.nat? "odao_details_batch_size").getD β.odaoDetails
    challengeState := (← σ.nat? "challenge_state_batch_size").getD β.challengeState
    maxConcurrent := (← σ.nat? "max_concurrent_batches").getD β.maxConcurrent }

def logLevel (σ : Section) : Except SettingsError String := do
  return (← σ.text? "level").getD "info"

def read? {α : Type} (t : Layered) (shape : Shape) (f : Section → Except SettingsError α) :
    Except SettingsError (Option α) := do
  match ← Section.ofLayered? t shape with
  | some σ => some <$> f σ
  | none => return none

/-- A wrong section is reported before a missing one. -/
def ofLayered (t : Layered) : Except SettingsError Settings := do
  let rpc ← read? t .rpc endpoint
  let contracts ← read? t .contracts roots
  let batching ← read? t .batching sizes
  let level ← read? t .log logLevel
  let rpc ← required (.missingField "rpc") rpc
  let contracts ← required (.missingField "contracts") contracts
  return ⟨rpc, contracts, batching.getD {}, level.getD "info"⟩

def fault? (ς : Settings) : Option SettingsError :=
  if Text.trimmed ς.rpc.url = "" then some .blankUrl
  else if ς.rpc.timeout = 0 then some .zeroTimeout
  else ς.batching.zeroField?.map .zeroBatching

def validate (ς : Settings) : Except SettingsError Settings :=
  match ς.fault? with
  | some e => .error e
  | none => .ok ς

/-- The variable that sets the address of the node unless it is blank. -/
def url? (ε : Environment) : Option String :=
  ((ε.lookup "SDK_RPC_HTTP_URL").map Text.trimmed).filter (· ≠ "")

def withUrl (ς : Settings) : Option String → Settings
  | some u => { ς with rpc.url := u }
  | none => ς

def ofSources (document : Toml.Value) (ε : Environment) : Except SettingsError Settings := do
  let t ← required .noPlace (Layered.ofSources document ε)
  ((← ofLayered t).withUrl (url? ε)).validate

/-- Reads the text of a file, if there is one. -/
def ofFile (text : Option String) (ε : Environment) : Except SettingsError Settings :=
  match text with
  | none => .error .fileMissing
  | some s =>
    match Toml.parse? s with
    | none => .error .fileMalformed
    | some document => ofSources document ε

def path (ε : Environment) : String := (ε.lookup "SDK_CONFIG_PATH").getD "Config.toml"

/-- Loads the file that the environment names. -/
def load (files : String → Option String) (ε : Environment) : Except SettingsError Settings :=
  ofFile (files (path ε)) ε

def toJson (ς : Settings) : Json :=
  .object [
    ("rpc", .object [("http_url", .text ς.rpc.url), ("timeout_seconds", .nat ς.rpc.timeout),
      ("qps_limit", .nat ς.rpc.rate)]),
    ("contracts", .object [("rocket_storage", .text ς.contracts.storage),
      ("multicall", .text ς.contracts.multicall)]),
    ("batching", ς.batching.toJson),
    ("log", .object [("level", .text ς.level)])]

end Settings

end PoolSnapshot
