import Sitecheck.Generate.Form
import Sitecheck.Proofs.Clock
import Sitecheck.Proofs.Crawl.Visit
import Sitecheck.Proofs.Spec.Rule

/-!
# The tests of all forms

For every form of a site there is a test that submits it empty, one for each of its e-mail
fields, and one that fills in every field.  They are made in the order of the pages, the
forms and the fields (`makes_siteFormTests`).  Their selectors are style rules, whatever
the fields and the forms are called, and are compiled as such (`siteFormTests_covers`).
-/

namespace Sitecheck.Generate

variable {s : Surroundings} {item : Json} {items : List Json} {selector : String}

open Run Spec

/-! ## Forms and their fields -/

/-- A field of a form.  Without a type it is one for text. -/
structure Field where
  name : String
  type : Json

namespace Field

def ofJson? : Json → Option Field
  | .obj members =>
    match Fields.get? "name" members with
    | some (.str name) => some ⟨name, (Fields.get? "type" members).getD (.str "text")⟩
    | _ => none
  | _ => none

def isEmail (field : Field) : Bool :=
  match field.type with
  | .str type => type == "email"
  | _ => false

end Field

/-- The fields of a form, if it lists them and each of them has a name. -/
def fieldsOf? (form : List (String × Json)) : Option (List Field) :=
  match Fields.get? "fields" form with
  | some (.arr items) => items.mapM Field.ofJson?
  | _ => none

structure Form where
  url : String
  name : String
  hasId : Bool
  fields : List Field

namespace Form

/-- A form goes by its identifier, or by its number on the page if it has no such member. -/
def ofPage (url : String) (number : Int) (form : List (String × Json)) : Form where
  url := url
  name := ((Fields.get? "id" form).getD (.str ("form_" ++ Json.displayInt number))).display
  hasId := ((Fields.get? "id" form).getD .null).isTruthy
  fields := (fieldsOf? form).getD []

/-- What a test of a form is for. -/
inductive Purpose where
  | empty
  | invalid (field : Field)
  | valid

def purposes (form : Form) : List Purpose :=
  .empty :: ((form.fields.filter Field.isEmail).map .invalid ++ [.valid])

end Form

def formsFrom (url : String) : (number : Int) → List (List (String × Json)) → List Form
  | _, [] => []
  | number, form :: forms => .ofPage url number form :: formsFrom url (number + 1) forms

def formsOf (site : SiteMap) : List Form :=
  site.pages.flatMap fun page => formsFrom page.url 0 page.forms

def plan (forms : List Form) : List (Form × Form.Purpose) :=
  forms.flatMap fun form => form.purposes.map (form, ·)

@[simp] theorem plan_cons (form : Form) (forms : List Form) :
    plan (form :: forms) = form.purposes.map (form, ·) ++ plan forms := rfl

theorem plan_append (front back : List Form) : plan (front ++ back) = plan front ++ plan back :=
  List.flatMap_append

theorem length_plan (forms : List Form) :
    (plan forms).length = (forms.map fun form => 2 + form.fields.countP Field.isEmail).sum := by
  induction forms with
  | nil => rfl
  | cons form forms ih =>
    simp only [plan_cons, Form.purposes, List.length_append, List.length_map, List.length_cons,
      List.length_nil, List.map_cons, List.sum_cons, ih, List.countP_eq_length_filter]
    omega

/-! ## The tests of one form -/

namespace Form

def Purpose.ending : Purpose → String
  | .empty => " - Empty Form Validation"
  | .invalid _ => " - Invalid Email Validation"
  | .valid => " - Valid Submission"

def title (form : Form) (purpose : Purpose) : String := form.name ++ purpose.ending

def fill (field : Field) : Step :=
  fillStep (inputNamed field.name) (validValue field.type field.name)
    ("Enter valid " ++ field.type.display ++ " in " ++ field.name)

def steps (form : Form) : Purpose → List Step
  | .empty =>
    [gotoStep form.url,
      clickStep (if form.hasId then "form#" ++ form.name ++ " " ++ submitButton else submitButton)
        "Submit empty form",
      expectVisible ".error, .validation-error, [role='alert']" "Verify validation error appears"]
  | .invalid field =>
    [gotoStep form.url,
      fillStep (inputNamed field.name) "invalid-email-format" ("Enter invalid email in " ++ field.name),
      clickStep submitButton "Submit form",
      expectVisible (".error, [data-field='" ++ field.name ++ "'] .error")
        "Verify email validation error"]
  | .valid =>
    gotoStep form.url :: (form.fields.map fill ++
      [clickStep submitButton "Submit form with valid data",
        expectVisible ".success, .confirmation, [role='status']"
          "Verify success message or redirect"])

end Form

/-- The tests are those of a plan, in its order, with identifiers from successive readings
of the clock. -/
structure Made (s : Surroundings) (items : List (Form × Form.Purpose)) (tests : List TestCase) :
    Prop where
  planned : List.Forall₂ (fun item test => test.name = item.1.title item.2 ∧
    test.steps = item.1.steps item.2) items tests
  ids : tests.map TestCase.id =
    (List.range items.length).map fun number => (s.reading number).identifier "test_"

/-- While the clock goes on, the action makes the tests of a plan. -/
def Makes (items : List (Form × Form.Purpose)) (action : Run (List TestCase)) : Prop :=
  ∀ s, s.Timely items.length → ∃ tests, action s = (.ok tests, s.after items.length) ∧
    Made s items tests

theorem Made.append {front back : List (Form × Form.Purpose)} {tests more : List TestCase}
    (hfront : Made s front tests) (hback : Made (s.after front.length) back more) :
    Made s (front ++ back) (tests ++ more) where
  planned := List.rel_append hfront.planned hback.planned
  ids := by
    rw [List.map_append, hfront.ids, hback.ids, List.length_append, List.range_add, List.map_append,
      List.map_map]
    simp only [Surroundings.reading_after]
    rfl

namespace Makes

theorem nil : Makes [] (pure []) := fun s _ => ⟨[], by simp, .nil, rfl⟩

theorem append {front back : List (Form × Form.Purpose)} {first second : Run (List TestCase)}
    (hfirst : Makes front first) (hsecond : Makes back second) :
    Makes (front ++ back) (do return (← first) ++ (← second)) := by
  intro s hs
  rw [List.length_append] at hs ⊢
  obtain ⟨tests, hrun, hmade⟩ := hfirst s hs.of_add_left
  obtain ⟨more, hmore, hmade'⟩ := hsecond _ hs.of_add_right
  refine ⟨tests ++ more, ?_, hmade.append hmade'⟩
  rw [bind_of_ok hrun, bind_of_ok hmore, Surroundings.after_after]
  rfl

theorem cons {item : Form × Form.Purpose} {items : List (Form × Form.Purpose)}
    {action : Run TestCase} {rest : Run (List TestCase)} (h : Makes [item] (do return [← action]))
    (hrest : Makes items rest) : Makes (item :: items) (do return (← action) :: (← rest)) := by
  have hboth := h.append hrest
  simpa only [bind_assoc, pure_bind, List.singleton_append] using hboth

theorem flatten {α : Type} {items : List α} {planned : α → List (Form × Form.Purpose)}
    {action : α → Run (List TestCase)} (h : ∀ item ∈ items, Makes (planned item) (action item)) :
    Makes (items.flatMap planned) (do return (← items.mapM action).flatten) := by
  induction items with
  | nil => exact nil
  | cons item items ih =>
    rw [List.forall_mem_cons] at h
    have hboth := h.1.append (ih h.2)
    simpa only [List.flatMap_cons, List.mapM_cons, bind_assoc, pure_bind, List.flatten_cons] using hboth

end Makes

theorem newCase_of_timely (h : s.Timely 1) (name description : String) (tags : List String)
    (steps : List Step) (assertions : List String) :
    newCase name description tags steps assertions s =
      (.ok ⟨(s.reading 0).identifier "test_", name, description, tags, [], steps, assertions⟩,
        s.after 1) := by
  unfold newCase
  rw [bind_of_ok (freshId_of_timely h (by decide))]
  rfl

theorem makes_newCase {form : Form} {purpose : Form.Purpose} {description : String}
    {tags : List String} {assertions : List String} {action : Run TestCase}
    (h : action = newCase (form.title purpose) description tags (form.steps purpose) assertions) :
    Makes [(form, purpose)] (do return [← action]) := by
  intro s hs
  exact ⟨_, bind_of_ok (h ▸ newCase_of_timely hs _ _ _ _ _), .cons ⟨rfl, rfl⟩ .nil, rfl⟩

theorem makes_emptyTest (form : Form) :
    Makes [(form, .empty)] (do return [← emptyTest form.url form.name form.hasId]) :=
  makes_newCase rfl

theorem makes_invalidTest (form : Form) (field : Field) :
    Makes [(form, .invalid field)] (do return [← invalidTest form.url form.name field.name]) :=
  makes_newCase rfl

/-! ## Fields as they are read -/

theorem Field.exists_of_ofJson? {field : Field} (h : Field.ofJson? item = some field) :
    ∃ members, item = .obj members ∧ Fields.get? "name" members = some (.str field.name) ∧
      (Fields.get? "type" members).getD (.str "text") = field.type := by
  unfold Field.ofJson? at h
  split at h
  · next members =>
    split at h
    · next name hname =>
      cases h
      exact ⟨members, rfl, hname, rfl⟩
    · cases h
  · cases h

theorem exists_of_mapM_cons {fields : List Field}
    (h : (item :: items).mapM Field.ofJson? = some fields) :
    ∃ field others, Field.ofJson? item = some field ∧ items.mapM Field.ofJson? = some others ∧
      fields = field :: others := by
  rw [List.mapM_cons] at h
  obtain ⟨field, hfield, h⟩ := Option.bind_eq_some_iff.mp h
  obtain ⟨others, hothers, h⟩ := Option.bind_eq_some_iff.mp h
  cases h
  exact ⟨field, others, hfield, hothers, rfl⟩

theorem Field.isEmail_iff (field : Field) : field.isEmail = true ↔ field.type = .str "email" := by
  unfold Field.isEmail
  split
  · next type htype => simp [htype]
  · next hother => simpa using fun htype => hother _ htype

theorem validStep_of_ofJson? {field : Field} (h : Field.ofJson? item = some field) :
    validStep item = .ok (Form.fill field) := by
  obtain ⟨members, rfl, hname, htype⟩ := Field.exists_of_ofJson? h
  have hmember : (Json.obj members).member "name" = .ok (.str field.name) := by
    simp only [Json.member, hname]
  simp only [validStep, Json.getD_obj, hmember, hname, htype]
  rfl

theorem mapM_validStep {fields : List Field} (h : items.mapM Field.ofJson? = some fields) :
    items.mapM validStep = .ok (fields.map Form.fill) := by
  induction items generalizing fields with
  | nil =>
    cases h
    rfl
  | cons item items ih =>
    obtain ⟨field, others, hfield, hothers, rfl⟩ := exists_of_mapM_cons h
    rw [List.mapM_cons, validStep_of_ofJson? hfield, ih hothers]
    rfl

theorem makes_validTest (form : Form) (h : items.mapM Field.ofJson? = some form.fields) :
    Makes [(form, .valid)] (do return [← validTest form.url form.name items]) := by
  unfold validTest
  rw [mapM_validStep h]
  exact makes_newCase rfl

theorem invalidTests_cons {field : Field} (h : Field.ofJson? item = some field) (url name : String)
    (items : List Json) :
    invalidTests url name (item :: items) =
      if field.isEmail then do
        return (← invalidTest url name field.name) :: (← invalidTests url name items)
      else invalidTests url name items := by
  obtain ⟨members, rfl, hname, htype⟩ := Field.exists_of_ofJson? h
  have hmember : (Json.obj members).member "name" = .ok (.str field.name) := by
    simp only [Json.member, hname]
  have hgiven : ((Fields.get? "type" members).getD .null = .str "email") ↔ field.isEmail = true := by
    rw [Field.isEmail_iff, ← htype]
    cases Fields.get? "type" members <;> simp
  rw [invalidTests, Json.get_obj, hmember, lift_ok_bind, lift_ok_bind]
  split
  · next hemail => rw [if_pos (hgiven.mp hemail)]; rfl
  · next hother => rw [if_neg fun hemail => hother (hgiven.mpr hemail)]

theorem makes_invalidTests (form : Form) {fields : List Field}
    (h : items.mapM Field.ofJson? = some fields) :
    Makes ((fields.filter Field.isEmail).map fun field => (form, .invalid field))
      (invalidTests form.url form.name items) := by
  induction items generalizing fields with
  | nil =>
    cases h
    exact Makes.nil
  | cons item items ih =>
    obtain ⟨field, others, hfield, hothers, rfl⟩ := exists_of_mapM_cons h
    rw [invalidTests_cons hfield, List.filter_cons]
    split
    · exact (makes_invalidTest form field).cons (ih hothers)
    · exact ih hothers

/-! ## The tests of a site -/

theorem exists_of_fieldsOf? {form : List (String × Json)} (h : (fieldsOf? form).isSome = true)
    (url : String) (number : Int) :
    ∃ items, Fields.get? "fields" form = some (.arr items) ∧
      items.mapM Field.ofJson? = some (Form.ofPage url number form).fields := by
  obtain ⟨fields, hfields⟩ := Option.isSome_iff_exists.mp h
  have hown : (Form.ofPage url number form).fields = fields := by
    rw [Form.ofPage, hfields, Option.getD_some]
  rw [hown]
  unfold fieldsOf? at hfields
  split at hfields
  · next items hgiven => exact ⟨items, hgiven, hfields⟩
  · cases hfields

theorem makes_formTests (url : String) (number : Int) {form : List (String × Json)}
    (h : (fieldsOf? form).isSome = true) :
    Makes (plan [.ofPage url number form]) (formTests url (.obj form) number) := by
  obtain ⟨items, hgiven, hitems⟩ := exists_of_fieldsOf? h url number
  have hmakes := (makes_emptyTest (.ofPage url number form)).cons
    ((makes_invalidTests (.ofPage url number form) hitems).append
      (makes_validTest (.ofPage url number form) hitems))
  have hplan : plan [.ofPage url number form] =
      (Form.ofPage url number form, .empty) ::
        (((Form.ofPage url number form).fields.filter Field.isEmail).map
          (fun field => (Form.ofPage url number form, .invalid field)) ++
          [(Form.ofPage url number form, .valid)]) := by
    simp [plan, Form.purposes]
  have helements : (Json.obj form).getD "fields" (.arr []) >>= Json.elements = .ok items := by
    rw [Json.getD_obj, hgiven]
    rfl
  simp only [bind_assoc, pure_bind] at hmakes
  rw [hplan, formTests, Json.getD_obj, Json.get_obj, helements]
  exact hmakes

theorem makes_pageFormTests (url : String) (number : Int) {forms : List (List (String × Json))}
    (h : ∀ form ∈ forms, (fieldsOf? form).isSome = true) :
    Makes (plan (formsFrom url number forms)) (pageFormTests url number (forms.map .obj)) := by
  induction forms generalizing number with
  | nil => exact Makes.nil
  | cons form forms ih =>
    rw [List.forall_mem_cons] at h
    rw [formsFrom, ← List.singleton_append, plan_append]
    exact (makes_formTests url number h.1).append (ih (number + 1) h.2)

def HasFields (site : SiteMap) : Prop :=
  ∀ page ∈ site.pages, ∀ form ∈ page.forms, (fieldsOf? form).isSome = true

theorem makes_siteFormTests {site : SiteMap} (h : HasFields site) :
    Makes (plan (formsOf site)) (siteFormTests site) := by
  have hplan : plan (formsOf site) =
      site.pages.flatMap fun page => plan (formsFrom page.url 0 page.forms) :=
    List.flatMap_assoc
  rw [hplan]
  exact Makes.flatten fun page hpage => makes_pageFormTests page.url 0 (h page hpage)

/-! ## What the tests are to do -/

def Goes (url : String) (step : Step) : Prop := step.action = .goto ∧ step.url = some url

def Fills (name value : String) (step : Step) : Prop :=
  step.action = .fill ∧ step.selector = some ("input[name='" ++ name ++ "']") ∧ step.value = some value

def Acts (action : ActionKind) (step : Step) : Prop :=
  step.action = action ∧ (firstText step.selector none).isSome = true

/-- What the steps of a test have to do, one by one. -/
def Form.asks (form : Form) : Form.Purpose → List (Step → Prop)
  | .empty => [Goes form.url, Acts .click, Acts .expect]
  | .invalid field =>
    [Goes form.url, Fills field.name "invalid-email-format", Acts .click, Acts .expect]
  | .valid =>
    Goes form.url ::
      ((form.fields.map fun field => Fills field.name (validValue field.type field.name)) ++
        [Acts .click, Acts .expect])

/-- Each step does what is asked in its place. -/
def Follows (asked : List (Step → Prop)) (steps : List Step) : Prop :=
  List.Forall₂ (fun ask step => ask step) asked steps

theorem isSome_firstText (h : isRule selector = true) :
    (firstText (some selector) none).isSome = true := by
  have hne : selector ≠ "" := by
    rintro rfl
    cases h
  simp [firstText, hne]

theorem acts_clickStep (h : isRule selector = true) (description : String) :
    Acts .click (clickStep selector description) :=
  ⟨rfl, isSome_firstText h⟩

theorem acts_expectVisible (h : isRule selector = true) (description : String) :
    Acts .expect (expectVisible selector description) :=
  ⟨rfl, isSome_firstText h⟩

theorem isRule_submit (form : Form) :
    isRule (if form.hasId then "form#" ++ form.name ++ " " ++ submitButton else submitButton) = true := by
  split
  · exact isRule_append (isRule_append (isRule_append (by decide) _) _) _
  · decide

theorem isRule_inputNamed (name : String) : isRule (inputNamed name) = true :=
  isRule_append (isRule_append (by decide) _) _

theorem isRule_errorOf (name : String) :
    isRule (".error, [data-field='" ++ name ++ "'] .error") = true :=
  isRule_append (isRule_append (by decide) _) _

theorem follows_fills (fields : List Field) :
    Follows (fields.map fun field => Fills field.name (validValue field.type field.name))
      (fields.map Form.fill) := by
  rw [Follows, List.forall₂_map_left_iff, List.forall₂_map_right_iff, List.forall₂_same]
  intro field hfield
  exact ⟨rfl, rfl, rfl⟩

theorem follows_steps (form : Form) (purpose : Form.Purpose) :
    Follows (form.asks purpose) (form.steps purpose) := by
  cases purpose with
  | empty =>
    exact .cons ⟨rfl, rfl⟩ (.cons (acts_clickStep (isRule_submit form) _)
      (.cons (acts_expectVisible (by decide) _) .nil))
  | invalid =>
    exact .cons ⟨rfl, rfl⟩ (.cons ⟨rfl, rfl, rfl⟩ (.cons (acts_clickStep (by decide) _)
      (.cons (acts_expectVisible (isRule_errorOf _) _) .nil)))
  | valid =>
    refine .cons ⟨rfl, rfl⟩ (List.rel_append (follows_fills form.fields) ?_)
    exact .cons (acts_clickStep (by decide) _) (.cons (acts_expectVisible (by decide) _) .nil)

/-! ## How the tests are compiled -/

theorem isStyled_gotoStep (url : String) : IsStyled (gotoStep url) := nofun

theorem isStyled_clickStep (h : isRule selector = true) (description : String) :
    IsStyled (clickStep selector description) :=
  isStyled_of_isRule rfl h rfl rfl nofun

theorem isStyled_fillStep (h : isRule selector = true) (value description : String) :
    IsStyled (fillStep selector value description) :=
  isStyled_of_isRule rfl h rfl rfl nofun

theorem isStyled_expectVisible (h : isRule selector = true) (description : String) :
    IsStyled (expectVisible selector description) :=
  isStyled_of_isRule rfl h rfl rfl fun _ => ⟨lower_ne_title_of_isRule h, .inl rfl⟩

theorem isStyled_of_mem_steps {form : Form} {purpose : Form.Purpose} {step : Step}
    (h : step ∈ form.steps purpose) : IsStyled step := by
  cases purpose with
  | empty =>
    simp only [Form.steps, List.mem_cons, List.not_mem_nil, or_false] at h
    rcases h with rfl | rfl | rfl
    · exact isStyled_gotoStep _
    · exact isStyled_clickStep (isRule_submit form) _
    · exact isStyled_expectVisible (by decide) _
  | invalid =>
    simp only [Form.steps, List.mem_cons, List.not_mem_nil, or_false] at h
    rcases h with rfl | rfl | rfl | rfl
    · exact isStyled_gotoStep _
    · exact isStyled_fillStep (isRule_inputNamed _) _ _
    · exact isStyled_clickStep (by decide) _
    · exact isStyled_expectVisible (isRule_errorOf _) _
  | valid =>
    simp only [Form.steps, List.mem_cons, List.mem_append, List.mem_map, List.not_mem_nil,
      or_false] at h
    rcases h with rfl | ⟨field, -, rfl⟩ | rfl | rfl
    · exact isStyled_gotoStep _
    · exact isStyled_fillStep (isRule_inputNamed _) _ _
    · exact isStyled_clickStep (by decide) _
    · exact isStyled_expectVisible (by decide) _

/-- The tests of a site are those that its forms call for, in the order of the pages, the
forms and the fields, and they look for style rules only. -/
theorem siteFormTests_covers {site : SiteMap} {s : Surroundings} (h : HasFields site)
    (hclock : s.Timely (plan (formsOf site)).length) :
    ∃ tests, siteFormTests site s = (.ok tests, s.after tests.length) ∧
      List.Forall₂ (fun item test => test.name = item.1.title item.2 ∧
        Follows (item.1.asks item.2) test.steps) (plan (formsOf site)) tests ∧
      tests.length =
        ((formsOf site).map fun form => 2 + form.fields.countP Field.isEmail).sum ∧
      ∀ test ∈ tests, ∀ step ∈ test.steps, IsStyled step := by
  obtain ⟨tests, hrun, hmade⟩ := makes_siteFormTests h s hclock
  have hlength : (plan (formsOf site)).length = tests.length := hmade.planned.length_eq
  refine ⟨tests, ?_, ?_, ?_, ?_⟩
  · rw [hrun, hlength]
  · refine hmade.planned.imp fun item test hplanned => ⟨hplanned.1, ?_⟩
    rw [hplanned.2]
    exact follows_steps item.1 item.2
  · rw [← hlength, length_plan]
  · intro test htest step hstep
    obtain ⟨item, -, -, hsteps⟩ := exists_of_mem_forall₂ hmade.planned htest
    rw [hsteps] at hstep
    exact isStyled_of_mem_steps hstep

def oddSite : SiteMap :=
  ⟨"http://a.co", [⟨"http://a.co", "", [], [], none, [
    [("id", .str "it's"), ("fields", .arr [
      .obj [("name", .str "text='e\\"), ("type", .str "email")],
      .obj [("name", .str "[data-testid='a']")]])],
    [("fields", .arr [])]]⟩], "", 1⟩

def oddHour : Surroundings :=
  { Crawl.Crawler.sampleSurroundings Crawl.Crawler.restlessWeb with
    now := ⟨63082281600000000, ""⟩ }

theorem hasFields_oddSite : HasFields oddSite := by
  unfold HasFields
  decide

theorem timely_oddHour : oddHour.Timely (plan (formsOf oddSite)).length := by
  refine ⟨rfl, ?_⟩
  decide +kernel

theorem siteFormTests_covers_oddSite : HasFields oddSite ∧
    oddHour.Timely (plan (formsOf oddSite)).length ∧
    ∃ tests, siteFormTests oddSite oddHour = (.ok tests, oddHour.after 5) ∧
      tests.map TestCase.name = ["it's - Empty Form Validation", "it's - Invalid Email Validation",
        "it's - Valid Submission", "form_1 - Empty Form Validation", "form_1 - Valid Submission"] ∧
      ∀ test ∈ tests, ∀ step ∈ test.steps, IsStyled step := by
  obtain ⟨tests, hrun, hplan, hlength, hstyled⟩ :=
    siteFormTests_covers hasFields_oddSite timely_oddHour
  have hfive : tests.length = 5 := hlength
  rw [hfive] at hrun
  refine ⟨hasFields_oddSite, timely_oddHour, tests, hrun, ?_, hstyled⟩
  rw [← map_eq_map_of_forall₂ hplan fun item test h => h.1.symm]
  decide +kernel

end Sitecheck.Generate
