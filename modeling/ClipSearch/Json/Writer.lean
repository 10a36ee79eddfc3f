import ClipSearch.Json.Value
import ClipSearch.Decimal.Text
/-!
Writing JSON text.

Strings escape `"` and `\`, write the control characters backspace, form feed, line feed,
carriage return and tab as `\b`, `\f`, `\n`, `\r`, `\t`, and every other character below
U+0020 as `\u00xx` in lowercase hexadecimal; all else is written as it is. Integers are written
in full; doubles in the data style (`90.0`, `1e300`), and a double that is not finite as `null`.

`compact` writes no blanks at all. `pretty` puts each member on its own line, indented by two
spaces per level, with `": "` after keys; an empty array or object stays `[]` or `{}`.
-/
namespace ClipSearch.Json

open ClipSearch.Decimal

/-- How a character is written inside a JSON string. -/
def escapeChar (c : Char) : String :=
  if c == '"' then "\\\"" else if c == '\\' then "\\\\"
  else if c.toNat == 8 then "\\b" else if c.toNat == 12 then "\\f"
  else if c == '\n' then "\\n" else if c == '\r' then "\\r" else if c == '\t' then "\\t"
  else if c.toNat < 0x20 then
    let h := String.ofList (Nat.toDigits 16 c.toNat)
    "\\u" ++ String.ofList (List.replicate (4 - h.length) '0') ++ h
  else String.singleton c

def quote (s : String) : String := "\"" ++ String.join (s.toList.map escapeChar) ++ "\""

def Number.text : Number → String
  | .nat n => toString n
  | .neg n => toString n
  | .float x => if Binary.isSpecial x then "null" else render Style.data x

def compact : Value → String
  | .null => "null"
  | .bool b => if b then "true" else "false"
  | .number n => n.text
  | .string s => quote s
  | .array items => "[" ++ ",".intercalate (items.attach.map fun ⟨v, _⟩ => compact v) ++ "]"
  | .object fields =>
    "\x7b" ++ ",".intercalate (fields.attach.map fun ⟨(k, v), _⟩ => quote k ++ ":" ++ compact v) ++ "\x7d"
termination_by v => sizeOf v
decreasing_by
  all_goals
    simp_wf
    have h := List.sizeOf_lt_of_mem ‹_ ∈ _›
    simp_all
    omega

def indent (level : Nat) : String := String.ofList (List.replicate (2 * level) ' ')

/-- Writes a value over several lines, nested `level` deep. -/
def prettyAt (level : Nat) : Value → String
  | .array [] => "[]"
  | .object [] => "\x7b\x7d"
  | .array items =>
    "[\n" ++ ",\n".intercalate (items.attach.map fun ⟨v, _⟩ => indent (level + 1) ++ prettyAt (level + 1) v) ++
      "\n" ++ indent level ++ "]"
  | .object fields =>
    "\x7b\n" ++ ",\n".intercalate (fields.attach.map fun ⟨(k, v), _⟩ =>
      indent (level + 1) ++ quote k ++ ": " ++ prettyAt (level + 1) v) ++ "\n" ++ indent level ++ "\x7d"
  | v => compact v
termination_by v => sizeOf v
decreasing_by
  all_goals
    simp_wf
    have h := List.sizeOf_lt_of_mem ‹_ ∈ _›
    simp_all
    omega

def pretty (v : Value) : String := prettyAt 0 v

end ClipSearch.Json
