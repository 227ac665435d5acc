import Sitecheck.Site.Basic

/-!
# Locators

The expression by which a compiled test finds the element of a selector.  A
selector in an old form stands for the text it names; without a strategy, the
form of the selector decides.
-/

namespace Sitecheck.Spec

def literal (text : String) : String := "'" ++ text ++ "'"

/-- The elements with a test id, a label or a visible text, or those that a
style rule or a path expression matches. -/
inductive Locator where
  | testId (value : String)
  | label (value : String)
  | text (value : String)
  | css (rule : String)
  | xpath (expression : String)
  deriving DecidableEq, Repr

namespace Locator

/-! ## Old forms of selectors -/

def isQuote (c : Char) : Bool := c = '\'' || c = '"'

/-- What stands before the first quote with a closing bracket behind it, on
one line. -/
def beforeClosing? : List Char → Option (List Char)
  | c :: rest =>
    if isQuote c && rest.head? == some ')' then some []
    else if c = '\n' then none
    else (beforeClosing? rest).map (c :: ·)
  | [] => none

/-- The text of a link named as `a:text('…')`; it is not empty. -/
def linkText? (selector : List Char) : Option (List Char) :=
  match Chars.after? ['a', ':', 't', 'e', 'x', 't', '('] selector with
  | some (mark :: first :: rest) =>
    if isQuote mark && first != '\n' then (beforeClosing? rest).map (first :: ·) else none
  | _ => none

/-- A selector in an old form gives way to the text it names. -/
def normalize (selector : String) : String :=
  match linkText? selector.toList with
  | some found => String.ofList found
  | none => if Text.startsWith "text=" selector then Text.drop 5 selector else selector

/-! ## The strategy of a selector -/

def isPlainText (selector : String) : Bool :=
  selector != "" && selector.toList.all fun c => c.isAlpha || Text.isBlank c

def strategyOf (selector : String) : Strategy :=
  if Text.startsWith "[data-testid" selector then .testId
  else if Text.startsWith "[aria-label" selector then .ariaLabel
  else if Text.startsWith "//" selector then .xpath
  else if isPlainText selector then .text
  else .css

def ofStrategy (selector : String) : Strategy → Locator
  | .testId => .testId selector
  | .ariaLabel => .label selector
  | .text => .text selector
  | .css => .css selector
  | .xpath => .xpath selector

def ofSelector (selector : String) (strategy : Option Strategy) : Locator :=
  let selector := normalize selector
  ofStrategy selector (strategy.getD (strategyOf selector))

/-! ## Code -/

/-- Texts and style rules often match several elements; the first is meant. -/
def code : Locator → String
  | .testId value => "page.getByTestId(" ++ literal value ++ ")"
  | .label value => "page.getByLabel(" ++ literal value ++ ")"
  | .text value => "page.getByText(" ++ literal value ++ ").first()"
  | .css rule => "page.locator(" ++ literal rule ++ ").first()"
  | .xpath expression => "page.locator(" ++ literal expression ++ ")"

end Locator

end Sitecheck.Spec
