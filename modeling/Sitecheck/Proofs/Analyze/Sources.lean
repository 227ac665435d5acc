import Sitecheck.Analyze.Page
import Sitecheck.Proofs.Except
import Sitecheck.Proofs.Text

/-!
# One element for each node

A node offers several sources of a selector, and the element that is made of it has the
best one that is there (`Describes`).  A class that holds blanks only is taken for a
source although it has no first name.  A node that has nothing better to offer is
passed over, and all others have their elements, in order (`elements_of_answers`).
-/

namespace Sitecheck

namespace Text

theorem words_eq_nil_iff (text : String) : words text = [] ↔ text.toList.all isBlank = true := by
  have hchars (chars current : List Char) :
      Words.ofChars current chars = [] ↔ current = [] ∧ chars.all isBlank = true := by
    induction chars generalizing current with
    | nil => cases current <;> simp [Words.ofChars]
    | cons c chars ih =>
      cases hc : isBlank c with
      | true => cases current <;> simp [Words.ofChars, hc, ih]
      | false => simp [Words.ofChars, hc, ih]
  rw [words, List.map_eq_nil_iff, hchars]
  simp

theorem strip_eq_empty_iff (text : String) : strip text = "" ↔ text.toList.all isBlank = true := by
  rw [strip, trim, Chars.trim, Chars.dropEndWhile_eq_rdropWhile, ← String.toList_inj, String.toList_ofList,
    String.toList_empty, List.rdropWhile_eq_nil_iff, List.all_eq_true]
  constructor
  · intro h c hc
    rw [← List.takeWhile_append_dropWhile (p := isBlank) (l := text.toList)] at hc
    rcases List.mem_append.mp hc with hc | hc
    · exact List.mem_takeWhile_imp hc
    · exact h c hc
  · intro h c hc
    exact h c ((List.dropWhile_sublist _).subset hc)

end Text

theorem answerUnless_of_isOk {α : Type} {faults : List (String × String)} {question : String} {answer : α}
    (h : (answerUnless faults question answer).isOk = true) :
    answerUnless faults question answer = .ok answer := by
  unfold answerUnless at h ⊢
  split at h
  · cases h
  · rfl

namespace Node

def value? (node : Node) (name : String) : Option String := Fields.get? name node.attributes

/-- No question for an attribute or the text of the node fails. -/
structure Responds (node : Node) : Prop where
  tells : ∀ name, (node.getAttribute name).isOk = true
  reads : node.textContent.isOk = true

theorem Responds.getAttribute {node : Node} (h : node.Responds) (name : String) :
    node.getAttribute name = .ok (node.value? name) :=
  answerUnless_of_isOk (h.tells name)

theorem Responds.textContent {node : Node} (h : node.Responds) : node.textContent = .ok node.text :=
  answerUnless_of_isOk h.reads

end Node

namespace Analyze

variable {page : WebPage}

/-! ## What a node offers -/

def spoken (text : Option String) : Option String := text.filter fun text => !text.toList.all Text.isBlank

/-- The selectors of a node with their strategies, best first.  The last one is always there. -/
def sources (node : Node) (kind : String) : List (String × Strategy) :=
  List.reduceOption
    [(filled (node.value? "data-testid")).map fun id => ("[data-testid='" ++ id ++ "']", .testId),
      (filled (node.value? "aria-label")).map fun label => (label, .ariaLabel),
      (spoken node.text).map fun text => (Text.strip text, .text),
      (filled (node.value? "id")).map fun id => ("#" ++ id, .css),
      ((node.value? "class").bind fun classes => (Text.words classes).head?).map fun first =>
        ("." ++ first, .css),
      (filled (node.value? "name")).map fun name => ("[name='" ++ name ++ "']", .css),
      some (kind, .css)]

/-- An element that has the first source of a node. -/
structure Describes (node : Node) (kind : String) (element : Element) : Prop where
  sameKind : element.kind = kind
  source : (sources node kind).head? = some (element.selector, element.strategy)
  text : element.text = if element.strategy = .text then node.text.map Text.strip else node.text

/-- The node has a class with nothing but blanks in it, and nothing better to offer. -/
def hasBlankClassOnly (node : Node) : Bool :=
  (filled (node.value? "data-testid")).isNone && (filled (node.value? "aria-label")).isNone &&
    (spoken node.text).isNone && (filled (node.value? "id")).isNone &&
    (filled (node.value? "class")).any fun classes => classes.toList.all Text.isBlank

theorem filled_strip (text : Option String) : filled (text.map Text.strip) = (spoken text).map Text.strip := by
  cases text with
  | none => rfl
  | some text =>
    by_cases hblank : Text.strip text = ""
    · have hall := (Text.strip_eq_empty_iff text).mp hblank
      simp [filled, spoken, Option.filter_some, hblank, hall]
    · have hall : text.toList.all Text.isBlank = false := by
        rw [← Bool.not_eq_true, ← Text.strip_eq_empty_iff]
        exact hblank
      simp [filled, spoken, Option.filter_some, hblank, hall]

/-- An empty class offers nothing, and neither does one that holds blanks only. -/
theorem firstClass_eq (classes : Option String) :
    (classes.bind fun classes => (Text.words classes).head?) =
      (filled classes).bind fun classes => (Text.words classes).head? := by
  cases classes with
  | none => rfl
  | some classes =>
    by_cases hempty : classes = ""
    · subst hempty
      decide
    · simp [filled, Option.filter_some, hempty]

theorem selector_of_responds {node : Node} (h : node.Responds) (kind : String) :
    (hasBlankClassOnly node = true ∧ Analyze.selector node kind = .error .outOfRange) ∨
      hasBlankClassOnly node = false ∧ ∃ selector strategy text,
        Analyze.selector node kind = .ok (selector, strategy, text) ∧
        (sources node kind).head? = some (selector, strategy) ∧
        text = if strategy = .text then node.text.map Text.strip else node.text := by
  unfold Analyze.selector styleSelector hasBlankClassOnly sources List.reduceOption
  rw [firstClass_eq]
  simp only [h.getAttribute, h.textContent, ok_bind, filled_strip]
  cases filled (node.value? "data-testid") with
  | some => simp [pure, Except.pure]
  | none =>
  cases filled (node.value? "aria-label") with
  | some => simp [pure, Except.pure]
  | none =>
  cases hspoken : spoken node.text with
  | some text =>
    have htext : node.text = some text := (Option.filter_eq_some_iff.mp hspoken).1
    simp [htext, pure, Except.pure]
  | none =>
  cases filled (node.value? "id") with
  | some => simp [pure, Except.pure, ok_bind]
  | none =>
  cases filled (node.value? "class") with
  | some classes =>
    have hwords := Text.words_eq_nil_iff classes
    cases hfirst : Text.words classes with
    | nil => simp [hwords.mp hfirst, hfirst, throw, throwThe, MonadExceptOf.throw, bind, Except.bind]
    | cons =>
      have hblank : classes.toList.all Text.isBlank = false := by
        rw [← Bool.not_eq_true, ← hwords, hfirst]
        simp
      simp [hblank, hfirst, pure, Except.pure, ok_bind]
  | none =>
  cases filled (node.value? "name") with
  | some | none => simp [pure, Except.pure, ok_bind]

theorem element?_of_responds {node : Node} (h : node.Responds) (kind : String) :
    (hasBlankClassOnly node = true ∧ element? node kind = none) ∨
      hasBlankClassOnly node = false ∧
        ∃ element, element? node kind = some element ∧ Describes node kind element := by
  unfold element?
  rcases selector_of_responds h kind with ⟨hlost, hselector⟩ |
    ⟨hkept, selector, strategy, text, hselector, hsource, htext⟩
  · exact .inl ⟨hlost, by rw [hselector]⟩
  · exact .inr ⟨hkept, _, by rw [hselector], rfl, hsource, htext⟩

/-! ## The nodes of a page -/

/-- The nodes that the queries find on a page, with the kinds of their elements. -/
def matched (page : WebPage) : List (Node × String) :=
  elementSelectors.flatMap fun (query, kind) =>
    ((Fields.get? query page.nodes).getD []).map fun node => (node, kind)

/-- No query fails, and the nodes that are found tell their attributes and texts. -/
structure Answers (page : WebPage) : Prop where
  queries : ∀ query ∈ elementSelectors, (page.queryAll query.1).isOk = true
  nodes : ∀ found ∈ matched page, found.1.Responds

theorem Answers.queryAll (h : Answers page) {query kind : String}
    (hquery : (query, kind) ∈ elementSelectors) :
    page.queryAll query = .ok ((Fields.get? query page.nodes).getD []) :=
  answerUnless_of_isOk (h.queries _ hquery)

theorem elements_eq (h : Answers page) :
    elements page = .ok ((matched page).filterMap fun (node, kind) => element? node kind) := by
  have hqueries : elementSelectors.mapM (fun (query, kind) => do
        return (← page.queryAll query).filterMap (element? · kind) : _ → Except Fault (List Element)) =
      .ok (elementSelectors.map fun (query, kind) =>
        ((Fields.get? query page.nodes).getD []).filterMap (element? · kind)) := by
    refine mapM_eq_ok_iff.mpr (List.forall₂_map_right_iff.mpr (List.forall₂_same.mpr ?_))
    rintro ⟨query, kind⟩ hquery
    dsimp only
    rw [h.queryAll hquery]
    rfl
  unfold elements
  rw [hqueries, ok_bind, matched, List.filterMap_flatMap, List.flatMap_def]
  simp only [List.filterMap_map]
  rfl

section

variable {α β : Type} {f : α → Option β} {lost : α → Bool} {R : α → β → Prop} {items : List α}

theorem forall₂_filterMap (h : ∀ item ∈ items, (lost item = true ∧ f item = none) ∨
      lost item = false ∧ ∃ result, f item = some result ∧ R item result) :
    List.Forall₂ R (items.filter fun item => !lost item) (items.filterMap f) := by
  induction items with
  | nil => exact .nil
  | cons item items ih =>
    obtain ⟨hitem, hitems⟩ := List.forall_mem_cons.mp h
    rcases hitem with ⟨hlost, hnone⟩ | ⟨hkept, result, hsome, hresult⟩
    · simpa [hlost, hnone] using ih hitems
    · simpa [hkept, hsome, hresult] using ih hitems

end

/-- Each node has its element, in order, except those that have a blank class and nothing
better to offer. -/
theorem elements_of_answers {page : WebPage} (h : Answers page) :
    ∃ found, elements page = .ok found ∧
      List.Forall₂ (fun node element => Describes node.1 node.2 element)
        ((matched page).filter fun node => !hasBlankClassOnly node.1) found ∧
      (List.Forall₂ (fun node element => Describes node.1 node.2 element) (matched page) found ↔
        ∀ node ∈ matched page, hasBlankClassOnly node.1 = false) := by
  have hdescribed := forall₂_filterMap fun node hnode => element?_of_responds (h.nodes node hnode) node.2
  refine ⟨_, elements_eq h, hdescribed, ?_, ?_⟩
  · intro hall node hnode
    have hlength := hdescribed.length_eq.trans hall.length_eq.symm
    simpa using List.length_filter_eq_length_iff.mp hlength node hnode
  · intro hkept
    rwa [List.filter_eq_self.mpr fun node hnode => by simp [hkept node hnode]] at hdescribed

def countryNode : Node := { (default : Node) with attributes := [("class", " "), ("name", "country")] }

def cityNode : Node := { (default : Node) with attributes := [("class", "wide"), ("name", "city")] }

def addressPage : WebPage := { WebPage.blank with nodes := [("select", [countryNode, cityNode])] }

theorem matched_addressPage :
    matched addressPage = [(countryNode, "select"), (cityNode, "select")] := rfl

theorem answers_addressPage : Answers addressPage := by
  refine ⟨fun query _ => rfl, ?_⟩
  rw [matched_addressPage]
  simp only [List.forall_mem_cons, List.not_mem_nil, false_imp_iff, implies_true, and_true]
  exact ⟨⟨fun _ => rfl, rfl⟩, fun _ => rfl, rfl⟩

/-- Of two lists to choose from, the one with a blank class has no element, although it has a
name. -/
theorem elements_of_addressPage : (sources countryNode "select").head? = some ("[name='country']", .css) ∧
    ∃ element, elements addressPage = .ok [element] ∧ Describes cityNode "select" element ∧
      ¬ List.Forall₂ (fun node element => Describes node.1 node.2 element)
        [(countryNode, "select"), (cityNode, "select")] [element] := by
  obtain ⟨found, hfound, hdescribed, hall⟩ := elements_of_answers answers_addressPage
  rw [matched_addressPage] at hdescribed hall
  have hkept : [(countryNode, "select"), (cityNode, "select")].filter
      (fun node => !hasBlankClassOnly node.1) = [(cityNode, "select")] := by
    rfl
  rw [hkept, List.forall₂_cons_left_iff] at hdescribed
  obtain ⟨element, rest, hcity, hrest, rfl⟩ := hdescribed
  obtain rfl := List.forall₂_nil_left_iff.mp hrest
  refine ⟨by decide +kernel, element, hfound, hcity, fun h => ?_⟩
  exact absurd (hall.mp h _ List.mem_cons_self) (by decide +kernel)

end Analyze

end Sitecheck
