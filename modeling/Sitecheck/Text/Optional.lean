/-!
# Optional texts
-/

namespace Sitecheck

def firstText (first second : Option String) : Option String :=
  (first.filter (· != "")).or (second.filter (· != ""))

end Sitecheck
