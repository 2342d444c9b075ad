import TableQuery.Catalog

/-! Catalogs given as plain lists.
Names are listed as they were given, repeats included, so a listing may name what its
look-ups do not find.
-/

namespace TableQuery

/-- Named contents in any order; a name may lack content or occur several times. -/
abbrev Listing (α : Type) := List (String × Option α)

namespace Listing

variable {α : Type}

def names (listing : Listing α) : List String :=
  listing.map Prod.fst

/-- The content of the first entry of a name. -/
def content? (listing : Listing α) (name : String) : Option α :=
  (listing.find? (fun entry => entry.1 == name)).bind Prod.snd

end Listing

/-- Databases, schemas, tables and rows as lists. -/
structure ListingCatalog where
  content : Listing (Listing (Listing (List Record)))

namespace ListingCatalog

/-- The look-ups of a listing, each answered by the first entry of a name. -/
def toCatalog (catalog : ListingCatalog) : Catalog where
  databases := catalog.content.names
  schemas := fun database => (catalog.content.content? database).map Listing.names
  tables := fun database schema =>
    ((catalog.content.content? database).bind (·.content? schema)).map Listing.names
  rows := fun path =>
    ((catalog.content.content? path.database).bind (·.content? path.schema)).bind
      (·.content? path.table)

end ListingCatalog

end TableQuery
