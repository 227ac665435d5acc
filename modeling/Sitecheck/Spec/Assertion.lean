import Sitecheck.Text.Basic
import Sitecheck.Text.Case

/-!
# Assertions in words

A statement for an assertion in words, by the words that stand in it.
-/

namespace Sitecheck.Spec

def assertionCode (assertion : String) : String :=
  let words := Text.lower assertion
  if Text.contains "visible" words then "    await expect(page.locator('selector')).toBeVisible();"
  else if Text.contains "text" words || Text.contains "contains" words then
    "    await expect(page).toContainText('expected text');"
  else if Text.contains "url" words then "    await expect(page).toHaveURL(/expected-url/);"
  else "    // TODO: Implement assertion: " ++ assertion

end Sitecheck.Spec
