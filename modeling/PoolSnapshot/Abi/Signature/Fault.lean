/-!
What can be wrong in an interface that is written as text.
-/
namespace PoolSnapshot.Abi.Signature

inductive Fault where
  | noFunction (line : String)
  | noError (line : String)
  | noEvent (line : String)
  | noStruct (line : String)
  | noName (text : String)
  | nothingToName (text : String)
  | noArguments
  | noFields
  | unopened (line : String)
  | unclosed (line : String)
  | unclosedFields (line : String)
  | stray (c : Char) (text : String)
  | notIndexed (argument : String)
  | noType (text : String)
  | noFieldType (text : String)
  | unknownStruct (name : String)
  | declaredTwice (name : String)
  | unresolved (struct field type : String)
  | mapped (name : String)
  | noKey (text type : String)
  | noMappedType (text : String)
  | openArray (text : String)
  | brokenSize (size text : String)
  | strayInSize (c : Char) (text : String)
  | noSize (size text : String)
  | misplaced (start stop : Nat) (token : String)
  | noToken (start stop : Nat) (token : String)
  | noDigit (start stop : Nat)
  | noDigitLeft (start stop : Nat)
  | ended
  | endedBefore (token : String)
  /-- A size that is no number of 64 bits. Nothing is read after it. -/
  | oversized
  deriving DecidableEq

namespace Fault

def message : Fault → String
  | noFunction l => s!"Illegal abi `{l}`, expected function"
  | noError l => s!"Illegal abi `{l}`, expected error"
  | noEvent l => s!"Not an event `{l}`"
  | noStruct l => s!"Not a struct `{l}`"
  | noName s => s!"Invalid name: {s}"
  | nothingToName s => s!"Empty identifier in `{s}`"
  | noArguments => "Expected event"
  | noFields => "Expected struct"
  | unopened l => s!"Expected leading `(` in `{l}`"
  | unclosed l => s!"Expected closing `)` in `{l}`"
  | unclosedFields l => "Expected closing `\x7d` in `" ++ l ++ "`"
  | stray c s => "Illegal char `" ++ c.toString ++ "` at `" ++ s ++ "`"
  | notIndexed s => s!"Expected indexed keyword at `{s}`"
  | noType s => s!"Failed determine event type `{s}`"
  | noFieldType s => s!"Expected field type in `{s}`"
  | unknownStruct k => s!"Unknown struct `{k}`"
  | declaredTwice k => s!"Duplicate struct declaration for struct `{k}`"
  | unresolved k f t => s!"Could not resolve field of struct '{k}': `{f}: {t}`"
  | mapped k => s!"mappings are not allowed as params in public functions of struct `{k}`"
  | noKey s t => s!"Expected elementary mapping key type at `{s}` got {t}"
  | noMappedType s => s!"Expected mapping value type at `{s}`"
  | openArray s => s!"Expected Array `{s}`"
  | brokenSize n s => s!"Illegal whitespace in array size after `{n}` in `{s}`"
  | strayInSize c s => "Illegal char `" ++ c.toString ++ "` inner array `" ++ s ++ "`"
  | noSize n s => s!"Illegal array size `{n}` at `{s}`"
  | misplaced i j s => s!"UnrecognisedToken {i}:{j} `{s}`"
  | noToken i j s => s!"Expected token `{s}` at {i}:{j} "
  | noDigit i j => s!"MissingNumber {i}:{j}"
  | noDigitLeft i j => s!"EndofFileInHex {i}:{j}"
  | ended => "end of file"
  | endedBefore s => s!"end of file but expected `{s}`"
  | oversized => "number too large"

/-- Another reading of what was at fault. An oversized number leaves none. -/
def recover {α : Type} (r : Except Fault α) (f : Except Fault α) : Except Fault α :=
  match r with
  | .ok a => .ok a
  | .error .oversized => .error .oversized
  | .error _ => f

end Fault

end PoolSnapshot.Abi.Signature
