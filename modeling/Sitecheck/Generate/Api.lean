import Sitecheck.Json.Access

/-!
# Tests of interfaces

For every interface one test that it answers, and for one that takes data a
test that it refuses none.
-/

namespace Sitecheck.Generate

def apiTests (api : Json) : Except Fault (List Json) := do
  let method ← api.member "method"
  let path ← api.member "path"
  let name (what : String) : Json :=
    .str ("API " ++ method.display ++ " " ++ path.display ++ " - " ++ what)
  let description (what : String) : Json := .str ("Validates " ++ path.display ++ " " ++ what)
  let success : Json :=
    .obj [("name", name "Success"), ("endpoint", path), ("method", method),
      ("expected_status", .int 200), ("description", description "returns success")]
  let refusal : Json :=
    .obj [("name", name "Invalid Data"), ("endpoint", path), ("method", method),
      ("body", .emptyObj), ("expected_status", .int 400),
      ("description", description "handles invalid input")]
  match method with
  | .str "POST" => return [success, refusal]
  | _ => return [success]

def allApiTests (apis : List Json) : Except Fault (List Json) := do
  return (← apis.mapM apiTests).flatten

end Sitecheck.Generate
