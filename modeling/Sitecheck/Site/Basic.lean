import Sitecheck.Schema.Container
import Sitecheck.Url.Web

/-!
# What is known of a site

A page has elements that a visitor can use, each with a selector and the
strategy by which the selector finds it, and interactions that the elements
allow.  A site map is the list of its pages.
-/

namespace Sitecheck

inductive Strategy where
  | testId
  | ariaLabel
  | text
  | css
  | xpath
  deriving DecidableEq, Repr

namespace Strategy

def members : List (String × Strategy) :=
  [("test-id", testId), ("aria-label", ariaLabel), ("text", text), ("css", css), ("xpath", xpath)]

def name : Strategy → String
  | testId => "test-id"
  | ariaLabel => "aria-label"
  | text => "text"
  | css => "css"
  | xpath => "xpath"

def ofName? (name : String) : Option Strategy := Fields.get? name members

@[simp] theorem ofName?_name (strategy : Strategy) : ofName? strategy.name = some strategy := by
  cases strategy <;> rfl

end Strategy

inductive ActionKind where
  | click
  | fill
  | select
  | navigate
  | submit
  | hover
  | check
  | uncheck
  | goto
  | expect
  | goBack
  | reload
  | wait
  deriving DecidableEq, Repr

namespace ActionKind

def members : List (String × ActionKind) :=
  [("click", click), ("fill", fill), ("select", select), ("navigate", navigate),
    ("submit", submit), ("hover", hover), ("check", check), ("uncheck", uncheck),
    ("goto", goto), ("expect", expect), ("goBack", goBack), ("reload", reload), ("wait", wait)]

def name : ActionKind → String
  | click => "click"
  | fill => "fill"
  | select => "select"
  | navigate => "navigate"
  | submit => "submit"
  | hover => "hover"
  | check => "check"
  | uncheck => "uncheck"
  | goto => "goto"
  | expect => "expect"
  | goBack => "goBack"
  | reload => "reload"
  | wait => "wait"

def ofName? (name : String) : Option ActionKind := Fields.get? name members

@[simp] theorem ofName?_name (kind : ActionKind) : ofName? kind.name = some kind := by
  cases kind <;> rfl

def label : ActionKind → String
  | click => "ActionType.CLICK"
  | fill => "ActionType.FILL"
  | select => "ActionType.SELECT"
  | navigate => "ActionType.NAVIGATE"
  | submit => "ActionType.SUBMIT"
  | hover => "ActionType.HOVER"
  | check => "ActionType.CHECK"
  | uncheck => "ActionType.UNCHECK"
  | goto => "ActionType.GOTO"
  | expect => "ActionType.EXPECT"
  | goBack => "ActionType.GO_BACK"
  | reload => "ActionType.RELOAD"
  | wait => "ActionType.WAIT"

end ActionKind

structure Element where
  selector : String
  strategy : Strategy
  kind : String
  text : Option String
  attributes : List (String × Json)

structure Interaction where
  kind : ActionKind
  element : Element
  value : Option String
  description : String

structure Page where
  url : String
  title : String
  elements : List Element
  interactions : List Interaction
  screenshot : Option String
  forms : List (List (String × Json))

structure SiteMap where
  baseUrl : String
  pages : List Page
  takenAt : String
  pageCount : Int

open Schema

namespace Element

def ofFields (fields : List (String × Json)) : Outcome Element :=
  Element.mk <$> required "selector" Schema.text fields
    <*> required "selector_strategy" (choice Strategy.members) fields
    <*> required "element_type" Schema.text fields
    <*> optional "text" Schema.text fields
    <*> withDefault "attributes" [] (table anything) fields

def toJson (element : Element) : Json :=
  .obj [("selector", .str element.selector), ("selector_strategy", .str element.strategy.name),
    ("element_type", .str element.kind), ("text", .ofOption element.text),
    ("attributes", .obj element.attributes)]

end Element

namespace Interaction

def ofFields (fields : List (String × Json)) : Outcome Interaction :=
  Interaction.mk <$> required "action_type" (choice ActionKind.members) fields
    <*> required "element" (record Element.ofFields) fields
    <*> optional "value" Schema.text fields
    <*> required "description" Schema.text fields

def toJson (interaction : Interaction) : Json :=
  .obj [("action_type", .str interaction.kind.name), ("element", interaction.element.toJson),
    ("value", .ofOption interaction.value), ("description", .str interaction.description)]

end Interaction

namespace Page

def ofFields (fields : List (String × Json)) : Outcome Page :=
  Page.mk <$> required "url" webAddress fields
    <*> required "title" Schema.text fields
    <*> required "elements" (list (record Element.ofFields)) fields
    <*> required "actions" (list (record Interaction.ofFields)) fields
    <*> optional "screenshot_path" Schema.text fields
    <*> withDefault "forms" [] (list (table anything)) fields

def toJson (page : Page) : Json :=
  .obj [("url", .str page.url), ("title", .str page.title),
    ("elements", .arr (page.elements.map Element.toJson)),
    ("actions", .arr (page.interactions.map Interaction.toJson)),
    ("screenshot_path", .ofOption page.screenshot), ("forms", .arr (page.forms.map .obj))]

end Page

namespace SiteMap

def ofFields (fields : List (String × Json)) : Outcome SiteMap :=
  SiteMap.mk <$> required "base_url" webAddress fields
    <*> required "pages" (list (record Page.ofFields)) fields
    <*> required "crawl_timestamp" Schema.text fields
    <*> required "total_pages" integer fields

def toJson (site : SiteMap) : Json :=
  .obj [("base_url", .str site.baseUrl), ("pages", .arr (site.pages.map Page.toJson)),
    ("crawl_timestamp", .str site.takenAt), ("total_pages", .int site.pageCount)]

end SiteMap

end Sitecheck
