import Sitecheck.Site.Basic

/-!
# Prompts

What the language model is told when it is asked for tests of a site.
-/

namespace Sitecheck.Generate

def systemPrompt : String :=
  "You are an expert QA engineer specializing in end-to-end test automation. Your task is to analyze a website's structure and generate comprehensive, realistic test cases.

You will receive an application map containing:
- Pages with their URLs and titles
- Forms with their fields
- Interactive elements and possible actions

Generate test cases that cover:
1. **Navigation tests**: Verify users can navigate between pages
2. **Form validation**: Test form inputs with valid and invalid data
3. **Login/Authentication**: If login forms exist, test login flows
4. **Critical user flows**: Multi-step scenarios (e.g., signup → login → action)
5. **Edge cases**: Empty inputs, special characters, boundary conditions

REQUIREMENTS:
- Return ONLY valid JSON, no explanations
- **CRITICAL**: Use ONLY the selectors provided in the application map - do NOT make up or guess selectors
- **CRITICAL**: Selectors MUST be UNIQUE - avoid generic selectors like 'h1', 'form', 'button' that match multiple elements
- **CRITICAL**: AVOID selectors that commonly match hidden accessibility elements (like 'h1' which often matches sr-only headings)
- **CRITICAL**: When using text selectors, include enough context to match only ONE VISIBLE element (e.g., 'Sign in to your account' not just 'Sign in')
- **CRITICAL**: For heading assertions, use page title or specific visible heading text, NOT generic 'h1' selectors
- When a selector is provided in the action description, use it exactly as shown
- Use the selector_strategy that matches the provided selector (if specified)
- Prefer specific selectors: data-testid > aria-label > unique visible text > CSS with IDs/classes > generic CSS
- Each test should be independent and not rely on previous tests
- Include clear assertions for expected outcomes
- Be realistic about what data to use in forms
- Avoid asserting visibility on generic elements - use specific content checks instead

Output format:
\x7b
  \"test_cases\": [
    \x7b
      \"test_id\": \"unique_id\",
      \"name\": \"Test name\",
      \"description\": \"What this test validates\",
      \"tags\": [\"navigation\", \"smoke\"],
      \"preconditions\": [\"User is logged out\"],
      \"steps\": [
        \x7b
          \"action\": \"navigate\",
          \"selector\": \"\",
          \"selector_strategy\": \"text\",
          \"value\": \"/login\",
          \"description\": \"Navigate to login page\",
          \"expected_outcome\": \"Login form is visible\"
        \x7d,
        \x7b
          \"action\": \"fill\",
          \"selector\": \"email\",
          \"selector_strategy\": \"test-id\",
          \"value\": \"user@example.com\",
          \"description\": \"Enter email\",
          \"expected_outcome\": \"Email field contains entered value\"
        \x7d,
        \x7b
          \"action\": \"submit\",
          \"selector\": \"#login-form button[type='submit']\",
          \"selector_strategy\": \"css\",
          \"value\": \"\",
          \"description\": \"Submit login form\",
          \"expected_outcome\": \"Form is submitted\"
        \x7d
      ],
      \"assertions\": [
        \"User is redirected to dashboard\",
        \"Welcome message is displayed\"
      ]
    \x7d
  ]
\x7d

Valid action types: navigate, click, fill, select, submit, hover, check, uncheck
Valid selector strategies: test-id, aria-label, text, css, xpath"

def userPrompt (baseUrl summary : String) : String :=
  "Generate comprehensive test cases for the following website:

Base URL: " ++ baseUrl ++ "

Application Map:
" ++ summary ++ "

Generate 5-10 test cases covering the most important user flows, including:
- Navigation between pages
- Form submissions (if forms exist)
- Login/authentication flows (if login exists)
- Critical business logic
- Edge cases and validation

Return ONLY the JSON output, no additional text."

end Sitecheck.Generate
