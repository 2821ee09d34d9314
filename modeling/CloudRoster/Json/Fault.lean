import CloudRoster.Json.Value
import CloudRoster.Text.Quoted

/-!
# Why a JSON text is not a value of a type

A fault is either a slip of the text against the grammar or a value that does not fit its type. The
wording of every fault is fixed here.
-/

namespace CloudRoster.Json

/-- What stood where a value of another kind was wanted. -/
inductive Found where
  | null
  | boolean (value : Bool)
  | number (value : Number)
  | text (value : String)
  | sequence
  | map
  | unitVariant
  deriving Repr, DecidableEq

namespace Found

/-- How a diagnostic names what it found. -/
def describe : Found → String
  | .null => "null"
  | .boolean true => "boolean `true`"
  | .boolean false => "boolean `false`"
  | .number (.integer n) => "integer `" ++ (Number.integer n).text ++ "`"
  | .number (.real x) => "floating point `" ++ x.text ++ "`"
  | .text s => "string " ++ Text.quoted s
  | .sequence => "sequence"
  | .map => "map"
  | .unitVariant => "unit variant"

end Found

/-- Why a text cannot be read as a value of a type. -/
inductive Fault where
  /-- The text ends inside an array. -/
  | endInList
  /-- The text ends inside an object. -/
  | endInMap
  /-- The text ends inside a string. -/
  | endInText
  /-- The text ends where a value should stand. -/
  | endInValue
  | colonExpected
  | listEndExpected
  | mapEndExpected
  /-- A word starts like `true`, `false` or `null` and goes on otherwise. -/
  | wordExpected
  | valueExpected
  | invalidEscape
  | invalidNumber
  | numberOutOfRange
  /-- A string holds bytes that are no UTF-8. -/
  | invalidCodePoint
  | controlCharacter
  | keyNotText
  | loneSurrogate
  | surrogateCutShort
  | trailingComma
  | trailingCharacters
  | tooDeep
  | wrongKind (found : Found) (wanted : String)
  | integerOutOfRange (value : Int) (wanted : String)
  | wrongLength (length : Nat) (wanted : String)
  | mapOfOneExpected
  | unknownVariant (name : String) (known : List String)
  | missingField (name : String)
  | duplicateField (name : String)
  | malformedUuid
  deriving Repr, DecidableEq

namespace Fault

/-- The alternatives of a closed choice. -/
def alternatives : List String → String
  | [] => "there are no variants"
  | [a] => "expected `" ++ a ++ "`"
  | [a, b] => "expected `" ++ a ++ "` or `" ++ b ++ "`"
  | names => "expected one of " ++ ", ".intercalate (names.map fun n => "`" ++ n ++ "`")

/-- The wording of a fault. -/
def message : Fault → String
  | .endInList => "EOF while parsing a list"
  | .endInMap => "EOF while parsing an object"
  | .endInText => "EOF while parsing a string"
  | .endInValue => "EOF while parsing a value"
  | .colonExpected => "expected `:`"
  | .listEndExpected => "expected `,` or `]`"
  | .mapEndExpected => "expected `,` or `\x7d`"
  | .wordExpected => "expected ident"
  | .valueExpected => "expected value"
  | .invalidEscape => "invalid escape"
  | .invalidNumber => "invalid number"
  | .numberOutOfRange => "number out of range"
  | .invalidCodePoint => "invalid unicode code point"
  | .controlCharacter => "control character (\\u0000-\\u001F) found while parsing a string"
  | .keyNotText => "key must be a string"
  | .loneSurrogate => "lone leading surrogate in hex escape"
  | .surrogateCutShort => "unexpected end of hex escape"
  | .trailingComma => "trailing comma"
  | .trailingCharacters => "trailing characters"
  | .tooDeep => "recursion limit exceeded"
  | .wrongKind found wanted => "invalid type: " ++ found.describe ++ ", expected " ++ wanted
  | .integerOutOfRange n wanted =>
    "invalid value: integer `" ++ (Number.integer n).text ++ "`, expected " ++ wanted
  | .wrongLength n wanted =>
    "invalid length " ++ (Number.integer n).text ++ ", expected " ++ wanted
  | .mapOfOneExpected => "invalid value: map, expected map with a single key"
  | .unknownVariant name known => "unknown variant `" ++ name ++ "`, " ++ alternatives known
  | .missingField name => "missing field `" ++ name ++ "`"
  | .duplicateField name => "duplicate field `" ++ name ++ "`"
  | .malformedUuid => "UUID parsing failed"

end Fault

end CloudRoster.Json
