import Sitecheck.Site.Basic

/-!
# Site summaries

The pages of a site in words: address, title, forms with the names of their
fields, and the first interactions with their selectors.
-/

namespace Sitecheck.Generate

def fieldNames (fields : Json) : Except Fault String := do
  let names ← (← fields.elements).mapM (·.member "name")
  let texts ← names.mapM fun name =>
    match name with
    | .str text => pure text
    | other => throw (.wrongKind ("expected str instance, " ++ other.kindName ++ " found"))
  return Text.join ", " texts

def formSelector (form : Json) : Except Fault String := do
  let id ← form.getD "id" (.str "")
  if id.isTruthy then return "#" ++ id.display
  else return (← form.getD "selector" (.str "form")).display

def formLine (number : Nat) (form : Json) : Except Fault String := do
  let names ← fieldNames (← form.member "fields")
  let selector ← formSelector form
  let method ← form.member "method"
  return "  - Form " ++ toString number ++ " (selector: " ++ selector ++ "): " ++ method.display ++
    " with fields: " ++ names ++ "\n"

def formLines : (number : Nat) → List Json → Except Fault String
  | _, [] => pure ""
  | number, form :: forms => do return (← formLine number form) ++ (← formLines (number + 1) forms)

def interactionLine (interaction : Interaction) : String :=
  let element := interaction.element
  let selector :=
    if element.selector == "" then ""
    else " (selector: " ++ element.selector ++ ", strategy: " ++ element.strategy.name ++ ")"
  "  - " ++ interaction.description ++ selector ++ "\n"

def maxInteractions : Nat := 10

def pageSummary (number : Nat) (page : Page) : Except Fault String := do
  let forms ←
    if page.forms.isEmpty then pure ""
    else (("Forms:\n" ++ ·) <$> formLines 1 (page.forms.map .obj))
  let interactions :=
    if page.interactions.isEmpty then ""
    else
      "Actions (" ++ toString page.interactions.length ++ "):\n" ++
        String.join ((page.interactions.take maxInteractions).map interactionLine)
  return "\nPage " ++ toString number ++ ": " ++ page.url ++ "\nTitle: " ++ page.title ++ "\n" ++
    forms ++ interactions

def pageSummaries : (number : Nat) → List Page → Except Fault (List String)
  | _, [] => pure []
  | number, page :: pages => do
    return (← pageSummary number page) :: (← pageSummaries (number + 1) pages)

def siteSummary (site : SiteMap) : Except Fault String := do
  return Text.join "\n" (← pageSummaries 1 site.pages)

end Sitecheck.Generate
