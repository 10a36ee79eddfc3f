import ClipSearch.Query.Token
import ClipSearch.Query.Predicate
import ClipSearch.Text.Split
/-!
Compiling query text into a predicate.

The tokens of the query are joined by `and`. A token may start with `-`, which negates it. A
keyed token `?key:value` tests the field of its key; a token `?key` without a `:` adds no test
at all. A value in parentheses is a group: its terms, separated by ` OR `, trimmed and with
empty terms dropped, are joined by `or`, and each term may carry its own `-`. An unkeyed token is
a free word, or a group of free words. One pair of double quotes is removed from a value or
term: a leading `"` and then a trailing `"`.

Compiling never fails: the empty query holds of every clip.
-/
namespace ClipSearch.Query

open ClipSearch.Catalog ClipSearch.Text

/-- A leading `-` as a negation, and the rest. -/
def stripNegation (s : String) : Bool × String :=
  match s.toList with
  | '-' :: rest => (true, String.ofList rest)
  | _ => (false, s)

/-- The inside of `(...)`: a leading `(` and then a trailing `)` removed. -/
def stripParens? (s : String) : Option String :=
  match s.toList with
  | '(' :: rest =>
    match rest.reverse with
    | ')' :: inner => some (String.ofList inner.reverse)
    | _ => none
  | _ => none

/-- Removes a leading `"` if there is one, and then a trailing `"` if there is one. -/
def stripQuotes (s : String) : String :=
  let cs := match s.toList with
    | '"' :: rest => rest
    | cs => cs
  match cs.reverse with
  | '"' :: rest => String.ofList rest.reverse
  | _ => String.ofList cs

def splitColon (s : String) : Option (String × String) := splitFirst ':' s

/-- A group: its terms joined by `or`, each a field test of `key` or a free word. -/
def groupPredicate (key : Option String) (content : String) (settings : Settings) : Predicate :=
  let terms := (splitText " OR " content).map trim
    |>.filter (fun t => !t.isEmpty)
  .or <| terms.map fun t =>
    let (neg, t) := stripNegation t
    let t := stripQuotes t
    let p : Predicate := match key with
      | some k => .field (FieldTest.ofKey k t)
      | none => .word (FreeWord.make t settings)
    if neg then .not p else p

/-- The predicate of one token; a keyed token without `:` gives none. -/
def tokenPredicate (settings : Settings) (token : String) : Option Predicate :=
  let (neg, body) := stripNegation token
  let p : Option Predicate :=
    match body.toList with
    | '?' :: keyed =>
      match splitColon (String.ofList keyed) with
      | none => none
      | some (key, value) =>
        match stripParens? value with
        | some inner => some (groupPredicate (some key) inner settings)
        | none => some (.field (FieldTest.ofKey key (stripQuotes value)))
    | _ =>
      match stripParens? body with
      | some inner => some (groupPredicate none inner settings)
      | none => some (.word (FreeWord.make (stripQuotes body) settings))
  p.map fun q => if neg then .not q else q

/-- Compiles query text into a predicate; free words search the fields of `settings`. -/
def compile (query : String) (settings : Settings := Settings.all) : Predicate :=
  .and ((tokens query).filterMap (tokenPredicate settings))

end ClipSearch.Query
