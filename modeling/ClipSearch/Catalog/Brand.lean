/-!
Brands: the ten series a clip can belong to, and sets of them.

Each brand has a flag name (`MILLION`), a display label (`ミリオンライブ！`) and a bit, from bit 0
for `IMAS` to bit 9 for `OTHER`. A brand set is a bit mask of those ten bits; its labels are
listed in bit order and its display text joins them with `", "`.
-/
namespace ClipSearch.Catalog

/-- The ten brands, in bit order. -/
inductive Brand where
  | imas | ds | cinderella | million | sidem | shiny | valiv | gakuen | goudou | other
  deriving DecidableEq, Repr, Inhabited

namespace Brand

def all : List Brand := [.imas, .ds, .cinderella, .million, .sidem, .shiny, .valiv, .gakuen,
  .goudou, .other]

def bit : Brand → Nat
  | .imas => 0 | .ds => 1 | .cinderella => 2 | .million => 3 | .sidem => 4
  | .shiny => 5 | .valiv => 6 | .gakuen => 7 | .goudou => 8 | .other => 9

def name : Brand → String
  | .imas => "IMAS" | .ds => "DS" | .cinderella => "CINDERELLA" | .million => "MILLION"
  | .sidem => "SIDEM" | .shiny => "SHINY" | .valiv => "VALIV" | .gakuen => "GAKUEN"
  | .goudou => "GOUDOU" | .other => "OTHER"

def label : Brand → String
  | .imas => "765PRO AS" | .ds => "ディアリースターズ" | .cinderella => "シンデレラガールズ"
  | .million => "ミリオンライブ！" | .sidem => "SideM" | .shiny => "シャイニーカラーズ"
  | .valiv => "ヴイアライヴ" | .gakuen => "学園アイドルマスター" | .goudou => "合同ライブ"
  | .other => "その他"

/-- The brand with exactly this flag name. -/
def ofName? (s : String) : Option Brand := all.find? (·.name == s)

/-- The brand with exactly this display label. -/
def ofLabel? (s : String) : Option Brand := all.find? (·.label == s)

end Brand

/-- A set of brands as a bit mask of the ten brand bits. -/
structure BrandSet where
  bits : Nat
  deriving DecidableEq, Repr, Inhabited

namespace BrandSet

def empty : BrandSet := ⟨0⟩

def has (s : BrandSet) (b : Brand) : Bool := s.bits / Nat.pow 2 b.bit % 2 == 1

def insert (s : BrandSet) (b : Brand) : BrandSet :=
  if s.has b then s else ⟨s.bits + Nat.pow 2 b.bit⟩

def union (s t : BrandSet) : BrandSet := Brand.all.foldl (fun acc b => if t.has b then acc.insert b else acc) s

/-- The set of a mask that uses only the ten brand bits. -/
def ofBits? (n : Nat) : Option BrandSet := if n < Nat.pow 2 10 then some ⟨n⟩ else none

/-- The set of the brand bits of a mask; other bits are dropped. -/
def truncate (n : Nat) : BrandSet := ⟨n % Nat.pow 2 10⟩

def members (s : BrandSet) : List Brand := Brand.all.filter s.has

def labels (s : BrandSet) : List String := s.members.map Brand.label

/-- The display text of the set: its labels joined by `", "`. -/
def display (s : BrandSet) : String := ", ".intercalate s.labels

def single (b : Brand) : BrandSet := empty.insert b

end BrandSet

end ClipSearch.Catalog
