import PoolSnapshot.Settings.Source

/-!
What can be wrong with the settings. The report names the file that was asked for.
-/
namespace PoolSnapshot

inductive Found where
  | nothing
  | negative (n : Int)
  | text (s : String)
  | list
  | table
  deriving DecidableEq

inductive Wanted where
  | unsigned
  | whole
  | text
  deriving DecidableEq

inductive SettingsError where
  | fileMissing
  | fileMalformed
  | noPlace
  | missingField (name : String)
  | noSection (label : String) (found : Scalar)
  | shortSection (label : String) (place size : Nat)
  | mismatch (key : String) (found : Found) (wanted : Wanted) (layer : Option Layer)
  | blankUrl
  | zeroTimeout
  | zeroBatching (name : String)
  deriving DecidableEq

namespace SettingsError

def foundText : Found → String
  | .nothing => "unit value"
  | .negative n => s!"integer 64 bit `{n}`"
  | .text s => "string " ++ Text.quoted s
  | .list => "sequence"
  | .table => "map"

def wantedText : Wanted → String
  | .unsigned => "an unsigned 64 bit or less integer"
  | .whole => "an integer"
  | .text => "a string"

def originText (path : String) : Option Layer → String
  | none => ""
  | some .file => " in " ++ path
  | some .environment => " in the environment"

def message (path : String) : SettingsError → String
  | fileMissing => "configuration file \"" ++ path ++ "\" not found"
  | fileMalformed => "malformed configuration"
  | noPlace => "no such place in a list"
  | missingField name => s!"missing field `{name}`"
  | noSection label found => s!"invalid type: {found.described}, expected struct {label}"
  | shortSection label place size =>
    s!"invalid length {place}, expected struct {label} with {size} element" ++
      if size = 1 then "" else "s"
  | mismatch key found wanted layer =>
    s!"invalid type: {foundText found}, expected {wantedText wanted} for key `{key}`" ++
      originText path layer
  | blankUrl => "rpc.http_url must be set"
  | zeroTimeout => "rpc.timeout_seconds must be > 0"
  | zeroBatching name => name ++ " must be > 0"

end SettingsError

end PoolSnapshot
