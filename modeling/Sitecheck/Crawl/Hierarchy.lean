import Sitecheck.Crawl.Address
import Sitecheck.Graph.Basic

/-!
# The hierarchy of pages

Every page below the base has a parent: the nearest of its ancestors that was
crawled, or else the base.
-/

namespace Sitecheck.Crawl

def ancestor (base : String) (names : List String) : String :=
  clean base ++ "/" ++ Text.join "/" names

def ancestors (base : String) (names : List String) : List String :=
  ((List.range names.length).drop 1).reverse.map fun count => ancestor base (names.take count)

def parent (pages : List (String × Json)) (base : String) (names : List String) : String :=
  ((ancestors base names).find? (Fields.has · pages)).getD (clean base)

structure ChildLink where
  source : Json
  target : Json
  text : String

def childLink? (pages : List (String × Json)) (base : String) (page : String × Json) :
    Option ChildLink :=
  if clean page.1 == clean base then none
  else
    let names := segments base page.1
    match names.getLast? with
    | none => none
    | some name =>
      (Fields.get? (parent pages base names) pages).map fun source => ⟨source, page.2, name⟩

def hierarchy (pages : List (String × Json)) (base : String) : List ChildLink :=
  pages.filterMap (childLink? pages base)

/-- Stores the hierarchy; a link that cannot be stored is passed over. -/
def linkHierarchy (pages : List (String × Json)) (base : String) : Run Unit :=
  (hierarchy pages base).forM fun link =>
    discard (Run.attempt (Graph.linkPages link.source link.target (.str link.text)))

end Sitecheck.Crawl
