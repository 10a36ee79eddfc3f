/-!
JSON values as a reader of JSON text holds them.

A number is kept in one of three kinds, as it was written: a non-negative integer that fits 64
bits, a negative integer that fits 64 signed bits, or else a double. Objects keep one entry per
key, sorted by key (the last of repeated keys wins), so that a record is visited in key order.
-/
namespace ClipSearch.Json

/-- A JSON number in the kind it was read as. -/
inductive Number where
  | nat (n : Nat)
  | neg (n : Int)
  | float (x : Float)
  deriving Repr, Inhabited

inductive Value where
  | null
  | bool (b : Bool)
  | number (n : Number)
  | string (s : String)
  | array (items : List Value)
  | object (fields : List (String × Value))
  deriving Repr, Inhabited

namespace Value

/-- The value stored under a key of an object. -/
def get? (v : Value) (key : String) : Option Value :=
  match v with
  | .object fields => (fields.find? (·.1 == key)).map Prod.snd
  | _ => none

def str? : Value → Option String
  | .string s => some s
  | _ => none

end Value

/-- Inserts an entry into fields sorted by key, replacing an entry of the same key. -/
def insertSorted (key : String) (v : Value) : List (String × Value) → List (String × Value)
  | [] => [(key, v)]
  | (k, w) :: rest =>
    if key == k then (key, v) :: rest
    else if key < k then (key, v) :: (k, w) :: rest
    else (k, w) :: insertSorted key v rest

/-- An object from entries in reading order: sorted by key, the last of repeated keys kept. -/
def objectOf (entries : List (String × Value)) : Value :=
  .object (entries.foldl (fun acc (k, v) => insertSorted k v acc) [])

end ClipSearch.Json
