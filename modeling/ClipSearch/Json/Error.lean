import ClipSearch.Decimal.Text
import ClipSearch.Text.Escape
/-!
What can go wrong when reading JSON, and the messages for it.

A `Problem` is either a fault of the text itself (`Grammar`) or a value that does not fit what
the reader expects: of the wrong type, out of range, a missing or repeated field, an unknown
variant, or a message of the record's own rules. A problem found in text carries a line and a
column (counted in bytes from the start of the line); a problem found in a value already in
memory has none. Messages name what was found (`integer 5`, `string "x"`, `null`) and what was
expected.
-/
namespace ClipSearch.Json

/-- Faults of the text itself. -/
inductive Grammar where
  | eofList | eofObject | eofString | eofValue | expectedColon | expectedListCommaOrEnd
  | expectedObjectCommaOrEnd | expectedIdent | expectedValue | invalidEscape | invalidNumber
  | numberOutOfRange | controlCharacter | keyMustBeAString | loneLeadingSurrogate
  | trailingComma | trailingCharacters | unexpectedEndOfHexEscape | recursionLimit
  deriving DecidableEq, Repr

def Grammar.message : Grammar → String
  | .eofList => "EOF while parsing a list"
  | .eofObject => "EOF while parsing an object"
  | .eofString => "EOF while parsing a string"
  | .eofValue => "EOF while parsing a value"
  | .expectedColon => "expected `:`"
  | .expectedListCommaOrEnd => "expected `,` or `]`"
  | .expectedObjectCommaOrEnd => "expected `,` or `\x7d`"
  | .expectedIdent => "expected ident"
  | .expectedValue => "expected value"
  | .invalidEscape => "invalid escape"
  | .invalidNumber => "invalid number"
  | .numberOutOfRange => "number out of range"
  | .controlCharacter => "control character (\\u0000-\\u001F) found while parsing a string"
  | .keyMustBeAString => "key must be a string"
  | .loneLeadingSurrogate => "lone leading surrogate in hex escape"
  | .trailingComma => "trailing comma"
  | .trailingCharacters => "trailing characters"
  | .unexpectedEndOfHexEscape => "unexpected end of hex escape"
  | .recursionLimit => "recursion limit exceeded"

/-- What a value turned out to be, as messages name it. -/
inductive Found where
  | null
  | bool (b : Bool)
  | nat (n : Nat)
  | int (n : Int)
  | float (x : Float)
  | str (s : String)
  | seq
  | map
  deriving Repr

def Found.text : Found → String
  | .null => "null"
  | .bool b => "boolean `" ++ (if b then "true" else "false") ++ "`"
  | .nat n => "integer `" ++ toString n ++ "`"
  | .int n => "integer `" ++ toString n ++ "`"
  | .float x => "floating point `" ++ ClipSearch.Decimal.render ClipSearch.Decimal.Style.data x ++ "`"
  | .str s => "string " ++ ClipSearch.Text.quoted s
  | .seq => "sequence"
  | .map => "map"

/-- Why reading failed. -/
inductive Problem where
  | grammar (s : Grammar)
  | invalidType (found : Found) (expected : String)
  | invalidValue (found : Found) (expected : String)
  | invalidLength (n : Nat) (expected : String)
  | missingField (name : String)
  | duplicateField (name : String)
  | unknownVariant (name : String) (choices : List String)
  | custom (text : String)
  deriving Repr

/-- Names of choices in backquotes: one, two joined by `or`, or a list. -/
def choicesText (choices : List String) : String :=
  let q (s : String) := "`" ++ s ++ "`"
  match choices with
  | [] => "there are no variants"
  | [a] => "expected " ++ q a
  | [a, b] => "expected " ++ q a ++ " or " ++ q b
  | cs => "expected one of " ++ ", ".intercalate (cs.map q)

def Problem.message : Problem → String
  | .grammar s => s.message
  | .invalidType f e => "invalid type: " ++ f.text ++ ", expected " ++ e
  | .invalidValue f e => "invalid value: " ++ f.text ++ ", expected " ++ e
  | .invalidLength n e => "invalid length " ++ toString n ++ ", expected " ++ e
  | .missingField n => "missing field `" ++ n ++ "`"
  | .duplicateField n => "duplicate field `" ++ n ++ "`"
  | .unknownVariant n cs => "unknown variant `" ++ n ++ "`, " ++ choicesText cs
  | .custom t => t

/-- A problem, with the line and column where it was found in text, if it was. -/
structure Fault where
  problem : Problem
  position : Option (Nat × Nat) := none
  deriving Repr

/-- The message of a fault: the problem, then `at line L column C` when it has a position. -/
def Fault.message (f : Fault) : String :=
  match f.position with
  | some (l, c) => f.problem.message ++ " at line " ++ toString l ++ " column " ++ toString c
  | none => f.problem.message

end ClipSearch.Json
