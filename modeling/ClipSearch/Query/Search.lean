import ClipSearch.Query.Parse
/-!
Searching a catalog with a predicate.

`filterClips` keeps the clips a predicate holds of, in catalog order; for the empty `and` it
returns the catalog without testing a clip. `parFilterClips` is the parallel filter: the catalog
is cut into contiguous chunks, each chunk is filtered on its own, and the results are joined in
chunk order. Where the cuts fall is the scheduler's choice, so the chunks are its argument.
`searchClips` compiles a query, over the fields the settings switch on or over every field when
there are none, and filters the catalog with it.
-/
namespace ClipSearch.Query

open ClipSearch.Catalog

/-- The clips a predicate holds of, in catalog order; the whole catalog for the empty `and`. -/
def filterClips (p : Predicate) (clips : List Clip) : List Clip :=
  if p.isMatchAll then clips else select p clips

/-- The parallel filter over a catalog cut into contiguous chunks: each chunk filtered on its
own, the results joined in chunk order. -/
def parFilterClips (p : Predicate) (chunks : List (List Clip)) : List Clip :=
  chunks.flatMap (select p)

def searchClips (clips : List Clip) (query : String) (settings : Option Settings) : List Clip :=
  filterClips (compile query (settings.getD Settings.all)) clips

end ClipSearch.Query
