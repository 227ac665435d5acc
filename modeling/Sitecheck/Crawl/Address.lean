import Sitecheck.Text.Basic

/-!
# Addresses of a site

An address is compared without its fragment, its query and the slashes at its
end.  Its depth below a base is the number of names that follow the base.
-/

namespace Sitecheck.Crawl

def clean (url : String) : String :=
  Text.trimEnd (· = '/') (Text.before '?' (Text.before '#' url))

def segments (base url : String) : List String :=
  (Text.splitOn "/" (Text.replace (clean base) "" (clean url))).filter (· != "")

/-- How many names an address has below the base; an address outside the base has none. -/
def depth (url base : String) : Nat :=
  if Text.startsWith (clean base) (clean url) then (segments base url).length else 0

/-! ## Links -/

/-- A link that stays below the base and is not the base, cleaned. -/
def internal? (base : String) (visited : List String) (link : String) : Option String :=
  if Text.startsWith base link && !visited.contains link
      && clean link != Text.trimEnd (· = '/') base then
    some (clean link)
  else none

def topDepth : Nat := 2

def distinctSorted (links : List String) : List String :=
  (links.mergeSort fun x y => Text.atOrBefore x y).eraseDups

/-- The links to follow: those near the base, then the deeper ones. -/
def internalLinks (base : String) (visited hrefs : List String) : List String :=
  let (top, deeper) := (hrefs.filterMap (internal? base visited)).partition
    fun link => depth link base ≤ topDepth
  distinctSorted top ++ distinctSorted deeper

end Sitecheck.Crawl
