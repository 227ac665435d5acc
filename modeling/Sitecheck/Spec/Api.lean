import Sitecheck.Spec.Suite

/-!
# Code of tests that call an interface

Such a test is an untyped object: what is called, with which body and headers,
and what is expected of the answer.  Members that are not there have defaults.
-/

namespace Sitecheck.Spec.Api

def isNumber (n : Int) : Json → Bool
  | .int value => value == n
  | .float value => value.compare? (Binary64.ofSigned n 1) == some .eq
  | _ => false

def bodyMember : Json → Except Fault String
  | .str "form" => .ok "form"
  | .str "multipart" => .ok "multipart"
  | .arr _ | .obj _ => .error (.wrongKind "unhashable type")
  | _ => .ok "data"

def bodyCode (test : Json) : Except Fault String := do
  let body ← test.get "body"
  if body.isTruthy then
    let member ← bodyMember (← test.getD "body_type" (.str "json"))
    return "      " ++ member ++ ": " ++ body.write (.block 8)
  else return ""

def headerCode (test : Json) : Except Fault String := do
  let headers ← test.get "headers"
  if headers.isTruthy then
    let fields ← headers.fieldsFor "get"
    let contentType := (Fields.get? "Content-Type" fields).getD (.str "application/json")
    let others := (fields.filter fun (name, _) => name != "Content-Type").map fun (name, value) =>
      "        '" ++ name ++ "': '" ++ value.display ++ "',"
    return Text.join "\n"
      ["      headers: \x7b",
        "        'Content-Type': '" ++ contentType.display ++ "',",
        Text.join "\n" others,
        "      \x7d"]
  else return ""

def statusCode (expected : Json) : String :=
  let toBe := "    expect(response.status()).toBe("
  if isNumber 200 expected then
    "    expect(response.ok()).toBeTruthy();\n" ++ toBe ++ "200);"
  else
    match [201, 400, 401, 404].find? fun n => isNumber n expected with
    | some n => toBe ++ Json.displayInt n ++ ");"
    | none => toBe ++ expected.display ++ ");"

def readBody : String := "    const body = await response.json();"

def expectedBodyCode : Json → List String
  | .obj fields => fields.map fun (name, _) =>
      readBody ++ "\n    expect(body).toHaveProperty('" ++ name ++ "');"
  | .str "array" =>
    [readBody ++ "\n    expect(Array.isArray(body)).toBeTruthy();\n" ++
      "    expect(body.length).toBeGreaterThan(0);"]
  | _ => []

def responseTimeCode (limit : Json) : List String :=
  if limit.isTruthy then ["    // Response time should be under " ++ limit.display ++ "ms"] else []

def testCode (test : Json) : Except Fault String := do
  let method := Text.lower (← (← test.getD "method" (.str "get")).textFor "lower")
  let endpoint := (← test.getD "endpoint" (.str "/")).display
  let status ← test.getD "expected_status" (.int 200)
  let body ← bodyCode test
  let headers ← headerCode test
  let assertions := statusCode status :: (expectedBodyCode (← test.get "expected_body") ++
    responseTimeCode (← test.get "max_response_time_ms"))
  let call := Text.upper method ++ " " ++ endpoint
  let name := (← test.getD "name" (.str call)).display
  let description := (← test.getD "description" (.str ("Tests " ++ call))).display
  return Text.join "\n"
    ["  test('" ++ name ++ "', async (\x7b request \x7d) => \x7b",
      "    // " ++ description,
      "    ",
      "    const response = await request." ++ method ++ "('" ++ endpoint ++ "', \x7b",
      body,
      headers,
      "    \x7d);",
      "    ",
      Text.join "\n" assertions,
      "  \x7d);"]

def fileCode (baseUrl : String) (tests : List String) : String :=
  Text.join "\n"
    ["import \x7b test, expect \x7d from '@playwright/test';",
      "",
      "test.describe('API Tests - " ++ baseUrl ++ "', () => \x7b",
      "",
      Text.join "\n\n" tests,
      "",
      "\x7d);",
      ""]

def compile (tests : List Json) (baseUrl : Json) (suiteId : String) : Run Path := do
  let settings ← Settings.current
  let codes ← Run.lift (tests.mapM testCode)
  save settings.base.storage (suiteId ++ "_api.spec.ts") (fileCode baseUrl.display codes)

end Sitecheck.Spec.Api
