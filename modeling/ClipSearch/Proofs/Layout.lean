import ClipSearch.Proofs.ScanWritten
/-!
# The two layouts of written values

`compact` writes no blanks. `prettyAt` puts each item of an array and each entry of an object on
a line of its own, indented two spaces a level, with a space after each colon, and writes an
empty array or object as `[]` or `{}`. Both lay out an array as its items, each after the same
lead of blanks, separated by commas, with blanks before the closing bracket, and an object the
same way with its entries (`Layout.text_array`, `Layout.text_object`); strings, numbers and
`null` are written alike by both (`Layout.text_string`, `Layout.text_number`, `Layout.text_null`).

The reader skips blanks before every token, so what is proved of reading over a `Layout` holds
of both writers.
-/
namespace ClipSearch.Json

open Scan

/-- How values are written: with no blanks, or over lines nested at a level. -/
inductive Layout where
  | compact
  | pretty (level : Nat)
  deriving DecidableEq, Repr

namespace Layout

/-- A value as written in the layout. -/
def write : Layout → Value → String
  | .compact, v => Json.compact v
  | .pretty level, v => prettyAt level v

/-- The characters a value is written with. -/
def text (lay : Layout) (v : Value) : List Char := (lay.write v).toList

/-- The layout of what an array or an object holds. -/
def inner : Layout → Layout
  | .compact => .compact
  | .pretty level => .pretty (level + 1)

/-- The blanks before each item of an array and each entry of an object. -/
def itemLead : Layout → List Char
  | .compact => []
  | .pretty level => '\n' :: (indent (level + 1)).toList

/-- The blanks before the bracket that closes an array or an object, empty or not. -/
def closer : Layout → Bool → List Char
  | .pretty level, false => '\n' :: (indent level).toList
  | _, _ => []

/-- The blanks between the colon after a key and the value. -/
def gap : Layout → List Char
  | .compact => []
  | .pretty _ => [' ']

theorem blanks_indent (level : Nat) : Blanks (indent level).toList := by
  intro w hw
  simp only [indent, String.toList_ofList, List.mem_replicate] at hw
  rw [hw.2]
  rfl

theorem blanks_itemLead (lay : Layout) : Blanks lay.itemLead := by
  cases lay with
  | compact => exact blanks_nil
  | pretty level =>
    intro w hw
    rcases List.mem_cons.1 hw with rfl | hw
    · rfl
    · exact blanks_indent _ w hw

theorem blanks_closer (lay : Layout) (empty : Bool) : Blanks (lay.closer empty) := by
  cases lay with
  | compact => exact blanks_nil
  | pretty level =>
    cases empty with
    | true => exact blanks_nil
    | false =>
      intro w hw
      rcases List.mem_cons.1 hw with rfl | hw
      · rfl
      · exact blanks_indent _ w hw

theorem blanks_gap (lay : Layout) : Blanks lay.gap := by
  cases lay with
  | compact => exact blanks_nil
  | pretty level =>
    intro w hw
    rw [List.mem_singleton.1 hw]
    rfl

/-- A line feed before the items, and one after each comma, is a line feed before each item. -/
theorem lineFeed_cons_intercalate (y : List Char) (ys : List (List Char)) :
    '\n' :: [',', '\n'].intercalate (y :: ys) = [','].intercalate ((y :: ys).map ('\n' :: ·)) := by
  induction ys generalizing y with
  | nil => simp
  | cons z zs ih =>
    rw [List.intercalate_cons_cons, List.map_cons, List.map_cons, List.intercalate_cons_cons,
      ← List.map_cons, ← ih z]
    simp

theorem text_string (lay : Layout) (s : String) : lay.text (.string s) = (quote s).toList := by
  cases lay with
  | compact => rw [text, write, Json.compact]
  | pretty level =>
    rw [text, write, prettyAt, Json.compact]
    -- the last equation of `prettyAt` asks that the value is no array and no object
    all_goals (intros; contradiction)

theorem text_number (lay : Layout) (n : Number) :
    lay.text (.number n) = (Json.compact (.number n)).toList := by
  cases lay with
  | compact => rfl
  | pretty level =>
    rw [text, write, prettyAt]
    all_goals (intros; contradiction)

theorem text_null (lay : Layout) : lay.text .null = "null".toList := by
  cases lay with
  | compact => rw [text, write, Json.compact]
  | pretty level =>
    rw [text, write, prettyAt, Json.compact]
    all_goals (intros; contradiction)

/-- An array: its items, each after the lead, separated by commas, in brackets. -/
theorem text_array (lay : Layout) (vs : List Value) :
    lay.text (.array vs) =
      '[' :: ([','].intercalate (vs.map fun v => lay.itemLead ++ lay.inner.text v) ++
        lay.closer vs.isEmpty ++ [']']) := by
  cases lay with
  | compact =>
    simp only [text, write, inner, itemLead, closer, List.nil_append, List.append_nil,
      compact_array_toList]
  | pretty level =>
    cases vs with
    | nil =>
      rw [text, write, prettyAt]
      rfl
    | cons v vs =>
      rw [text, write, prettyAt]
      · simp only [String.toList_append, String.toList_intercalate, List.map_map,
          Function.comp_def, List.map_attach_eq_pmap, List.pmap_eq_map, text, write, inner,
          itemLead, closer, List.isEmpty_cons]
        simp only [show "[\n".toList = ['[', '\n'] from rfl, show ",\n".toList = [',', '\n'] from rfl,
          show "\n".toList = ['\n'] from rfl, show "]".toList = [']'] from rfl,
          List.cons_append, List.nil_append, List.append_assoc]
        -- the line feed after the bracket goes before the first item, like those after commas
        rw [← List.cons_append, List.map_cons, lineFeed_cons_intercalate]
        simp only [List.map_cons, List.map_map, Function.comp_def]
      all_goals (intros; contradiction)

/-- An object: its entries, each after the lead, a key, a colon, the gap and a value, separated
by commas, in braces. -/
theorem text_object (lay : Layout) (es : List (String × Value)) :
    lay.text (.object es) =
      '{' :: ([','].intercalate (es.map fun e =>
          lay.itemLead ++ (quote e.1).toList ++ ':' :: (lay.gap ++ lay.inner.text e.2)) ++
        lay.closer es.isEmpty ++ ['}']) := by
  cases lay with
  | compact =>
    simp only [text, write, inner, itemLead, closer, gap, List.nil_append, List.append_nil,
      compact_object_toList]
  | pretty level =>
    cases es with
    | nil =>
      rw [text, write, prettyAt]
      rfl
    | cons e es =>
      rw [text, write, prettyAt]
      · simp only [String.toList_append, String.toList_intercalate, List.map_map,
          Function.comp_def, List.map_attach_eq_pmap, List.pmap_eq_map, text, write, inner,
          itemLead, closer, gap, List.isEmpty_cons]
        simp only [show "\x7b\n".toList = ['{', '\n'] from rfl, show ",\n".toList = [',', '\n'] from rfl,
          show "\n".toList = ['\n'] from rfl, show "\x7d".toList = ['}'] from rfl,
          show ": ".toList = [':', ' '] from rfl, List.cons_append, List.nil_append,
          List.append_assoc]
        rw [← List.cons_append, List.map_cons, lineFeed_cons_intercalate]
        simp only [List.map_cons, List.map_map, Function.comp_def]
      all_goals (intros; contradiction)

/-! ## Reading either layout -/

theorem startsItem_quote (s : String) : StartsItem (quote s).toList :=
  ⟨'"', _, quote_toList s, by decide, by decide⟩

theorem startsItem_text_array (lay : Layout) (vs : List Value) : StartsItem (lay.text (.array vs)) :=
  ⟨'[', _, text_array lay vs, by decide, by decide⟩

theorem startsItem_text_object (lay : Layout) (es : List (String × Value)) :
    StartsItem (lay.text (.object es)) :=
  ⟨'{', _, text_object lay es, by decide, by decide⟩

/-- An array of strings reads back in either layout, given more fuel than it has items and a
level of nesting to enter. -/
theorem value_strings (lay : Layout) {ss : List String} {fuel depth : Nat} (hdepth : 1 < depth)
    (hfuel : ss.length < fuel) :
    ReadsAt (value (fuel + 1)) (.array (ss.map .string)) (lay.text (.array (ss.map .string)))
      depth := by
  rw [text_array]
  refine value_array_items lay.inner.text (blanks_itemLead lay) (blanks_closer lay _) hdepth
    (by simpa using hfuel) fun v hv => ?_
  obtain ⟨s, -, rfl⟩ := List.mem_map.1 hv
  refine ⟨by rw [text_string]; exact startsItem_quote s, fun f hf => ?_⟩
  obtain ⟨f, rfl⟩ : ∃ g, f = g + 1 := ⟨f - 1, by omega⟩
  rw [text_string]
  exact value_string f (depth - 1) s

end Layout

end ClipSearch.Json
