/-!
Live types: the kind of concert a clip was recorded at.

Each kind has a name (`Seiyuu`, `Mr`, `Other`), used in catalog records, and a display label
(`声優ライブ`, `MRライブ`, `その他`), used in matching and in listings. A clip without one is a
voice-actor concert.
-/
namespace ClipSearch.Catalog

/-- The kind of concert a clip was recorded at. -/
inductive LiveType where
  | seiyuu | mr | other
  deriving DecidableEq, Repr

instance : Inhabited LiveType := ⟨.seiyuu⟩

namespace LiveType

def all : List LiveType := [.seiyuu, .mr, .other]

def name : LiveType → String
  | .seiyuu => "Seiyuu" | .mr => "Mr" | .other => "Other"

def label : LiveType → String
  | .seiyuu => "声優ライブ" | .mr => "MRライブ" | .other => "その他"

def ofLabel? (s : String) : Option LiveType := all.find? (·.label == s)

def ofName? (s : String) : Option LiveType := all.find? (·.name == s)

end LiveType

end ClipSearch.Catalog
