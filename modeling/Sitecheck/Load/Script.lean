import Sitecheck.Load.Basic

/-!
# Load scripts

The script of a load test: users arrive, stay and leave in three stages, and
each visits the pages in order.
-/

namespace Sitecheck.Load

/-- The address of a page, from the base address unless it has its own. -/
def pageUrl (baseUrl page : String) : String :=
  if Text.startsWith "http" page then page
  else Text.trimEnd (· = '/') baseUrl ++ "/" ++ Text.trimStart (· = '/') page

def visit (baseUrl : String) (index : Nat) (page : String) : String :=
  let name := "res" ++ toString index
  Text.join "\n"
    ["  // Step " ++ toString (index + 1) ++ ": Visit " ++ page,
      "  const " ++ name ++ " = http.get('" ++ pageUrl baseUrl page ++ "');",
      "  check(" ++ name ++ ", \x7b",
      "    'status is 200': (r) => r.status === 200,",
      "    'response time OK': (r) => r.timings.duration < 2000,",
      "  \x7d) || errorRate.add(1);",
      "  ",
      "  sleep(0.5); // Brief pause between pages",
      ""]

def visits (baseUrl : String) : (index : Nat) → List String → List String
  | _, [] => []
  | index, page :: pages => visit baseUrl index page :: visits baseUrl (index + 1) pages

def journey (pages : List String) (baseUrl : String) : String :=
  Text.join "\n" (visits baseUrl 0 pages)

def thresholdLines (thresholds : List (String × String)) : String :=
  Text.join ",\n    " (thresholds.map fun (metric, bound) => "'" ++ metric ++ "': ['" ++ bound ++ "']")

def script (profile : Profile) (baseUrl : String) : String :=
  Text.join "\n"
    ["import http from 'k6/http';",
      "import \x7b check, sleep \x7d from 'k6';",
      "import \x7b Rate \x7d from 'k6/metrics';",
      "",
      "// Custom metrics",
      "const errorRate = new Rate('errors');",
      "",
      "export const options = \x7b",
      "  stages: [",
      "    \x7b duration: '" ++ Json.displayInt profile.rampUp ++ "s', target: " ++ Json.displayInt profile.maxUsers ++ " \x7d, // Ramp up",
      "    \x7b duration: '" ++ Json.displayInt profile.steady ++ "s', target: " ++ Json.displayInt profile.maxUsers ++ " \x7d, // Steady state",
      "    \x7b duration: '" ++ Json.displayInt profile.rampDown ++ "s', target: 0 \x7d,               // Ramp down",
      "  ],",
      "  thresholds: \x7b",
      "    " ++ thresholdLines profile.thresholds,
      "  \x7d,",
      "\x7d;",
      "",
      "export default function() \x7b",
      "  // Simulate user journey",
      journey profile.pages baseUrl,
      "  ",
      "  // Think time between iterations",
      "  sleep(" ++ Json.displayInt profile.thinkTime ++ ");",
      "\x7d",
      "",
      "export function handleSummary(data) \x7b",
      "  return \x7b",
      "    'stdout': JSON.stringify(data, null, 2),",
      "  \x7d;",
      "\x7d",
      ""]

end Sitecheck.Load
