import ClipSearch.Json.Value
import ClipSearch.Calendar.Reading
import ClipSearch.Catalog.Brand
import ClipSearch.Text.Split
/-!
The lenient forms of dates and brands in catalog records.

A date may be `null`, an integer count of milliseconds since 1970-01-01 (UTC), blank text
(no date) or text in one of the date forms that `readMoment` accepts. Brands may be `null`, a bit
mask that fits 32 bits and uses only the ten brand bits, an array of brand names (flag names in
any ASCII case, or exact display labels), or one text of names separated by `", "`, each
trimmed, empty ones skipped. Each refusal comes with its message.
-/
namespace ClipSearch.Catalog

open ClipSearch.Json ClipSearch.Calendar ClipSearch.Text

/-- Why a date or brand value was refused. -/
inductive LenientError where
  | invalidTimestamp
  | timestampOutOfRange
  | invalidDate (text : String)
  | dateKind
  | invalidBitmask
  | unknownBits (bits : Nat)
  | brandNotText
  | unknownBrand (name : String)
  | brandsKind
  deriving DecidableEq, Repr

def LenientError.message : LenientError → String
  | .invalidTimestamp => "invalid timestamp"
  | .timestampOutOfRange => "timestamp out of range"
  | .invalidDate s => "invalid date: " ++ s
  | .dateKind => "date must be a number, string or null"
  | .invalidBitmask => "invalid brand bitmask"
  | .unknownBits n => "unknown brand bits in 0x" ++ String.ofList (Nat.toDigits 16 n)
  | .brandNotText => "brand must be a string"
  | .unknownBrand s => "unknown brand: " ++ s
  | .brandsKind => "brands must be a number, array or string"

def i64Max : Nat := Nat.pow 2 63 - 1

def dateOfValue : Value → Except LenientError (Option Moment)
  | .null => .ok none
  | .number n =>
    let ms : Option Int := match n with
      | .nat k => if k ≤ i64Max then some k else none
      | .neg k => some k
      | .float _ => none
    match ms with
    | none => .error .invalidTimestamp
    | some ms => match Moment.ofEpochMillis? ms with
      | some m => .ok (some m)
      | none => .error .timestampOutOfRange
  | .string s =>
    if (trim s).isEmpty then .ok none
    else match readMoment s with
      | some m => .ok (some m)
      | none => .error (.invalidDate s)
  | _ => .error .dateKind

/-- Uppercases ASCII letters only. -/
def asciiUpper (s : String) : String := String.ofList (s.toList.map Char.toUpper)

/-- A brand from a flag name in any ASCII case or an exact display label. -/
def brandOfName (name : String) : Except LenientError Brand :=
  match Brand.ofName? (asciiUpper name) with
  | some b => .ok b
  | none => match Brand.ofLabel? name with
    | some b => .ok b
    | none => .error (.unknownBrand name)

/-- Adds the brands of names to a set, stopping at the first unknown name. -/
def addNames (acc : BrandSet) : List String → Except LenientError BrandSet
  | [] => .ok acc
  | n :: ns => do addNames (acc.insert (← brandOfName n)) ns

/-- Adds the brands of array items, which must be texts. -/
def addItems (acc : BrandSet) : List Value → Except LenientError BrandSet
  | [] => .ok acc
  | .string n :: vs => do addItems (acc.insert (← brandOfName n)) vs
  | _ :: _ => .error .brandNotText

def brandsOfValue : Value → Except LenientError BrandSet
  | .null => .ok .empty
  | .number n =>
    match n with
    | .nat k =>
      if k < Nat.pow 2 32 then
        match BrandSet.ofBits? k with
        | some s => .ok s
        | none => .error (.unknownBits k)
      else .error .invalidBitmask
    | _ => .error .invalidBitmask
  | .array items => addItems .empty items
  | .string s => addNames .empty ((splitText ", " s).map trim |>.filter (!·.isEmpty))
  | _ => .error .brandsKind

end ClipSearch.Catalog
