import Sitecheck.Settings.File
import Sitecheck.Spec.Step

/-!
# Code of a suite

A suite becomes one file.  Every test starts on the base page; its assertions
in words become comments.
-/

namespace Sitecheck.Spec

def stepCodes : (number : Int) → List Step → List String
  | _, [] => []
  | number, step :: steps => stepCode step number .null :: stepCodes (number + 1) steps

def assertionLines : List String → String
  | [] => comment "No explicit assertions"
  | assertions => Text.join "\n" (assertions.map fun assertion => comment ("Assert: " ++ assertion))

def caseCode (case : TestCase) : String :=
  Text.join "\n"
    ["  test(" ++ literal case.name ++ ", async (\x7b page \x7d) => \x7b",
      comment case.description,
      "",
      Text.join "\n" (stepCodes 1 case.steps),
      "",
      assertionLines case.assertions,
      "  \x7d);"]

def suiteCode (suite : Suite) : String :=
  Text.join "\n"
    ["import \x7b test, expect \x7d from '@playwright/test';",
      "",
      "test.describe('Generated E2E Tests', () => \x7b",
      "  test.beforeEach(async (\x7b page \x7d) => \x7b",
      "    await page.goto(" ++ literal suite.baseUrl ++ ");",
      "  \x7d);",
      "",
      Text.join "\n\n" (suite.cases.map caseCode),
      "\x7d);",
      ""]

def compiledDirectory (storage : Settings.Storage) : Path := (Path.ofText storage.specs).join "compiled"

def save (storage : Settings.Storage) (name code : String) : Run Path := do
  let directory := compiledDirectory storage
  Run.makeDirectory directory
  let path := directory.join name
  Run.writeFile path code
  return path

def compile (suite : Suite) : Run Path := do
  let settings ← Settings.current
  save settings.base.storage (suite.id ++ ".spec.ts") (suiteCode suite)

end Sitecheck.Spec
