import ClipSearch.Json.Reader
/-!
Reading a whole JSON value from text.

`Scan.value` reads any value: literal words, numbers, strings, and arrays and objects of values
(nesting at most 127 deep). An array or object is closed even when one of its members fails, and
the first failure is reported. `parse` reads one value and then allows only blanks.
-/
namespace ClipSearch.Json

namespace Scan

def value : Nat → Scan Value
  | 0 => failHere .recursionLimit
  | fuel + 1 => do
    match ← skipBlank with
    | none => failAhead .eofValue
    | some 'n' => do eat; word "ull".toList; return .null
    | some 't' => do eat; word "rue".toList; return .bool true
    | some 'f' => do eat; word "alse".toList; return .bool false
    | some '-' => do eat; return .number (← integer false)
    | some '"' => do eat; return .string (← string)
    | some '[' =>
      enter
      eat
      let items ← closing (elements fuel true []) endArray
      leave
      return .array items
    | some '{' =>
      enter
      eat
      let entries ← closing (members fuel true []) endObject
      leave
      return objectOf entries
    | some c =>
      if c.isDigit then return .number (← integer true) else failAhead .expectedValue
where
  /-- Reads the elements of an array; `acc` holds those read so far, most recent first. -/
  elements (fuel : Nat) (first : Bool) (acc : List Value) : Scan (List Value) := do
    match fuel with
    | 0 => failHere .recursionLimit
    | fuel + 1 =>
      if ← nextElement first then
        let v ← value fuel
        elements fuel false (v :: acc)
      else return acc.reverse
  /-- Reads the entries of an object, in reading order; `acc` holds those read so far, most
  recent first. -/
  members (fuel : Nat) (first : Bool) (acc : List (String × Value)) :
      Scan (List (String × Value)) := do
    match fuel with
    | 0 => failHere .recursionLimit
    | fuel + 1 =>
      match ← nextKey first with
      | none => return acc.reverse
      | some k =>
        colon
        let v ← value fuel
        members fuel false ((k, v) :: acc)

end Scan

/-- Runs a reading step over a whole text, which must hold nothing else but blanks. -/
def runText {α : Type} (text : String) (step : Nat → Scan α) : Except Fault α :=
  let budget := text.utf8ByteSize + 2
  let run : Scan α := do
    let v ← step budget
    Scan.finish
    return v
  (run.run.run { rest := text.toList, budget }).1

def parse (text : String) : Except Fault Value := runText text Scan.value

end ClipSearch.Json
