import Sitecheck.Proofs.Spec.Agreement
import Sitecheck.Proofs.Spec.Difference

/-!
# The old forms of a selector for a text

A text was once named as `text=…`, `a:text('…')` or `a:text("…")`.  The quotes of a
selector are escaped before it is normalized, so the form with single quotes is no
longer known and stays a style rule, and the text that is left of the other two is
located by the strategy that its own characters call for (`stepCode_oldForm`).
-/

namespace Sitecheck

namespace Spec

inductive OldForm where
  | marked
  | single
  | double
  deriving DecidableEq

namespace OldForm

def selector (text : String) : OldForm → String
  | .marked => "text=" ++ text
  | .single => "a:text('" ++ text ++ "')"
  | .double => "a:text(\"" ++ text ++ "\")"

/-- The locator that a form of a text compiles to. -/
def locator (text : String) : OldForm → Locator
  | .single => .css ("a:text(\\'" ++ text ++ "\\')")
  | .marked | .double => .ofStrategy text (Locator.strategyOf text)

end OldForm

/-- A text that stands whole between quotes, on one line. -/
structure Quotable (text : String) : Prop where
  ne_empty : text ≠ ""
  no_quote : ∀ c ∈ text.toList, Locator.isQuote c = false
  no_break : '\n' ∉ text.toList

theorem quotable_iff (text : String) : Quotable text ↔
    text ≠ "" ∧ (text.toList.all fun c => !Locator.isQuote c && c != '\n') = true := by
  rw [List.all_eq_true]
  constructor
  · intro h
    refine ⟨h.ne_empty, fun c hc => ?_⟩
    have hbreak : c ≠ '\n' := fun heq => h.no_break (heq ▸ hc)
    simp [h.no_quote c hc, hbreak]
  · rintro ⟨hne, hall⟩
    refine ⟨hne, fun c hc => ?_, fun hmem => ?_⟩
    · simpa using (Bool.and_eq_true_iff.mp (hall c hc)).1
    · exact absurd (hall _ hmem) (by decide)

instance (text : String) : Decidable (Quotable text) := decidable_of_iff' _ (quotable_iff text)

end Spec

/-- The step on the element that an old form of a text names. -/
def Step.naming (step : Step) (form : Spec.OldForm) (text : String) : Step :=
  { step with selector := some (form.selector text) }

namespace Spec

variable {text : List Char} {rule code : String} {strategy : Strategy}

/-! ## What is left of a form -/

theorem quotesEscaped_of_not_mem (h : '\'' ∉ text) : quotesEscaped text = text := by
  induction text with
  | nil => rfl
  | cons c text ih =>
    rw [quotesEscaped_cons (List.ne_of_not_mem_cons h).symm, ih (List.not_mem_of_not_mem_cons h)]

theorem beforeClosing?_append (hquote : ∀ c ∈ text, Locator.isQuote c = false)
    (hbreak : '\n' ∉ text) {mark : Char} (hmark : Locator.isQuote mark = true) (back : List Char) :
    Locator.beforeClosing? (text ++ mark :: ')' :: back) = some text := by
  induction text with
  | nil => simp [Locator.beforeClosing?, hmark]
  | cons c text ih =>
    have hrest := ih (fun d hd => hquote d (List.mem_cons_of_mem _ hd))
      (List.not_mem_of_not_mem_cons hbreak)
    have hc : c ≠ '\n' := (List.ne_of_not_mem_cons hbreak).symm
    simp [Locator.beforeClosing?, hquote c List.mem_cons_self, hc, hrest]

namespace Quotable

variable {text : String} (h : Quotable text)
include h

theorem toList_ne_nil : text.toList ≠ [] := fun hnil => h.ne_empty (String.toList_eq_nil_iff.mp hnil)

theorem no_apostrophe : '\'' ∉ text.toList := fun hmem => absurd (h.no_quote _ hmem) (by decide)

theorem quotesEscaped_eq : quotesEscaped text.toList = text.toList :=
  quotesEscaped_of_not_mem h.no_apostrophe

theorem quotedText?_eq {mark : Char} (hmark : Locator.isQuote mark = true) :
    quotedText? (text.toList ++ [mark, ')']) = some text.toList := by
  obtain ⟨first, rest, htext⟩ := List.exists_cons_of_ne_nil h.toList_ne_nil
  have hquote := h.no_quote
  have hbreak := h.no_break
  rw [htext] at hquote hbreak ⊢
  have hclosed := beforeClosing?_append (fun c hc => hquote c (List.mem_cons_of_mem _ hc))
    (List.not_mem_of_not_mem_cons hbreak) hmark []
  have hfirst : first ≠ '\n' := (List.ne_of_not_mem_cons hbreak).symm
  simp [quotedText?, hfirst, hclosed]

theorem written_marked : written (OldForm.selector text .marked).toList = text.toList := by
  have hopening : (OldForm.selector text .marked).toList = textOpening ++ text.toList :=
    String.toList_append
  have hnone : Locator.linkText? (textOpening ++ text.toList) = none := linkText?_of_no_opening rfl
  have hescaped : quotesEscaped textOpening = textOpening := rfl
  rw [hopening, written, quotesEscaped_append, h.quotesEscaped_eq, hescaped, normalized, hnone]
  simp only [Chars.after?_append, Option.getD_some]

theorem written_double : written (OldForm.selector text .double).toList = text.toList := by
  have hopening : (OldForm.selector text .double).toList =
      linkOpening ++ '"' :: (text.toList ++ ['"', ')']) := by
    simp [OldForm.selector, linkOpening]
  have hescaped : quotesEscaped (linkOpening ++ '"' :: (text.toList ++ ['"', ')'])) =
      linkOpening ++ '"' :: (text.toList ++ ['"', ')']) := by
    refine quotesEscaped_of_not_mem fun hmem => ?_
    simp [linkOpening, h.no_apostrophe] at hmem
  rw [hopening, written, hescaped]
  refine normalized_of_link ?_
  have hmark : Locator.isQuote '"' = true := rfl
  rw [linkText?_opening, if_pos hmark]
  exact h.quotedText?_eq hmark

/-- The backslash before the first quote hides the form. -/
theorem written_single : written (OldForm.selector text .single).toList =
    ("a:text(\\'" ++ text ++ "\\')").toList := by
  have hescaped : quotesEscaped (OldForm.selector text .single).toList =
      linkOpening ++ '\\' :: ('\'' :: (text.toList ++ ['\\', '\'', ')'])) := by
    have hopening : (OldForm.selector text .single).toList =
        (linkOpening ++ ['\'']) ++ (text.toList ++ ['\'', ')']) := by
      simp [OldForm.selector, linkOpening]
    rw [hopening, quotesEscaped_append, quotesEscaped_append text.toList, h.quotesEscaped_eq]
    rfl
  have hnone : Locator.linkText? (linkOpening ++ '\\' :: ('\'' :: (text.toList ++ ['\\', '\'', ')']))) =
      none := by
    rfl
  rw [written, hescaped, normalized, hnone]
  simp [linkOpening, textOpening, Chars.after?]

theorem target_naming {step : Step} (hstrategy : step.strategy = none) (form : OldForm) :
    target (step.naming form text) = (form.locator text).code := by
  have hne : form.selector text ≠ "" := by
    intro hempty
    have hlength := congrArg String.length hempty
    cases form <;> simp [OldForm.selector] at hlength
  have hfirst : firstText (step.naming form text).selector none = some (form.selector text) := by
    simp [firstText, Step.naming, hne]
  have hgiven : (step.naming form text).strategy = none := hstrategy
  have hwritten : ∀ left : String, written (form.selector text).toList = left.toList →
      Locator.normalize (escapeQuotes (form.selector text)) = left := by
    intro left hleft
    rw [← String.toList_inj, toList_normalize, toList_escapeQuotes]
    exact hleft
  simp only [target, hfirst, hgiven, Locator.ofSelector, Option.getD_none]
  cases form with
  | marked => rw [hwritten _ h.written_marked]; rfl
  | double => rw [hwritten _ h.written_double]; rfl
  | single =>
    have hcss : Locator.strategyOf ("a:text(\\'" ++ text ++ "\\')") = .css := by
      have hcolon : Text.isBlank ':' = false := by decide
      simp [Locator.strategyOf, Locator.isPlainText, Text.startsWith, Chars.startsWith, Chars.after?,
        hcolon]
    rw [hwritten _ h.written_single, hcss]
    rfl

end Quotable

/-! ## The code of a step -/

/-- Code with a locator in front, or in the brackets of an expectation. -/
def LocatedBy (locator : Locator) (code : String) : Prop :=
  ∃ lead ∈ ["    await ", "    await expect("], ∃ rest, code = lead ++ (locator.code ++ rest)

theorem diverge_await_expect (strategy : Strategy) :
    Diverge ("    await " ++ locatorStart strategy) "    await expect(" := by
  cases strategy <;> decide

/-- Code that is located in two ways tells no more of them than how they begin. -/
theorem locatorStart_eq_of_locatedBy {other : String} {strategy' : Strategy}
    (h : LocatedBy (.ofStrategy rule strategy) code)
    (h' : LocatedBy (.ofStrategy other strategy') code) :
    locatorStart strategy = locatorStart strategy' := by
  obtain ⟨lead, hlead, rest, rfl⟩ := h
  obtain ⟨lead', hlead', rest', hcode⟩ := h'
  by_contra hne
  have hstart := diverge_locatorStart hne
  refine absurd hcode (Diverge.ne ?_)
  simp only [code_ofStrategy, String.append_assoc]
  simp only [List.mem_cons, List.not_mem_nil, or_false] at hlead hlead'
  rcases hlead with rfl | rfl <;> rcases hlead' with rfl | rfl
  · exact (hstart.append _ _).behind _
  · exact (diverge_await_expect strategy).append _ _
  · refine Diverge.symm ?_
    exact (diverge_await_expect strategy').append _ _
  · exact (hstart.append _ _).behind _

theorem eq_text_of_locatedBy {text : String} (h : LocatedBy (.ofStrategy rule strategy) code)
    (htext : LocatedBy (.text text) code) :
    strategy = .text := by
  have hlocator : Locator.text text = .ofStrategy text .text := rfl
  rw [hlocator] at htext
  have hstart := locatorStart_eq_of_locatedBy h htext
  revert hstart
  cases strategy <;> decide

theorem lower_selector_ne_title (form : OldForm) (text : String) :
    Text.lower (form.selector text) ≠ "title" := by
  rw [← String.toList_inj.ne]
  cases form <;> simp [OldForm.selector, Text.lower, Text.Case.lowerFrom, Text.Case.lowerAt]

variable {step : Step} {text : String} {form : OldForm}

theorem exists_frame_of_looks (haction : onElement step.action = true)
    (hlooks : Looks (step.naming form text)) (timeout : Json) :
    ∃ lead ∈ ["    await ", "    await expect("], ∃ rest, ∀ form : OldForm,
      statement (step.naming form text) timeout =
        lead ++ (target (step.naming form text) ++ rest) := by
  have hkept (form : OldForm) : (step.naming form text).action = step.action := rfl
  have hvalue (form : OldForm) : (step.naming form text).value = step.value := rfl
  cases hkind : step.action with
  | expect =>
    refine ⟨"    await expect(", by simp, ?_⟩
    have htitle (form : OldForm) :
        Text.lower ((step.naming form text).selector.getD "") ≠ "title" :=
      lower_selector_ne_title form text
    have hassertion (form : OldForm) : (step.naming form text).assertion = step.assertion := rfl
    obtain ⟨-, hchecked⟩ := hlooks hkind
    rw [hassertion, hvalue] at hchecked
    simp only [statement, hkept, hkind, expectCode, beq_iff_eq, htitle, if_false, expectTarget,
      hassertion, hvalue]
    split
    · exact ⟨_, fun form => by simp only [String.append_assoc]; rfl⟩
    · next hplain =>
      obtain ⟨value, hgiven⟩ := Option.isSome_iff_exists.mp (hchecked.resolve_left hplain)
      rw [hgiven]
      exact ⟨_, fun form => by simp only [String.append_assoc]; rfl⟩
  | navigate | goto | goBack | reload | wait => simp [onElement, hkind] at haction
  | _ =>
    refine ⟨"    await ", by simp, ?_⟩
    simp only [statement, hkept, hkind, hvalue]
    exact ⟨_, fun form => by simp only [String.append_assoc]; rfl⟩

theorem statement_of_not_looks (hlooks : ¬ Looks (step.naming form text)) (other : OldForm)
    (timeout : Json) :
    statement (step.naming other text) timeout =
      comment ("SKIPPED: " ++ (firstText step.assertion none).getD "toBeVisible" ++
        " requires a value but none was provided") := by
  obtain ⟨hkind, hnone⟩ := Classical.not_imp.mp hlooks
  obtain ⟨hassertion, hvalue⟩ :=
    not_or.mp fun hsome => hnone ⟨lower_selector_ne_title form text, hsome⟩
  have hkept : (step.naming other text).action = .expect := hkind
  have htitle : Text.lower ((step.naming other text).selector.getD "") ≠ "title" :=
    lower_selector_ne_title other text
  have hnovalue : firstText (step.naming other text).value none = none :=
    Option.not_isSome_iff_eq_none.mp hvalue
  simp only [statement, hkept, expectCode, beq_iff_eq, htitle, if_false, expectTarget, hnovalue]
  exact if_neg hassertion

theorem not_locatedBy_comment (locator : Locator) (text : String) :
    ¬ LocatedBy locator (comment text) := by
  rintro ⟨lead, hlead, rest, hcode⟩
  have hdiverge : Diverge "    // " lead := by
    simp only [List.mem_cons, List.not_mem_nil, or_false] at hlead
    rcases hlead with rfl | rfl <;> decide
  exact absurd hcode (hdiverge.append _ _).ne

theorem stepCode_naming_eq_iff (number : Int) (timeout : Json) (form other : OldForm) :
    stepCode (step.naming form text) number timeout =
        stepCode (step.naming other text) number timeout ↔
      statement (step.naming form text) timeout = statement (step.naming other text) timeout := by
  have hsame (form : OldForm) : (step.naming form text).description = step.description ∧
      (step.naming form text).action = step.action := ⟨rfl, rfl⟩
  simp only [stepCode, hsame]
  rw [← String.toList_inj, ← String.toList_inj]
  simp only [String.toList_append, List.append_cancel_left_eq]

/-- The rule that is left of the form with single quotes is longer than any locator of
the text. -/
theorem code_single_ne (text : String) (strategy : Strategy) :
    (OldForm.locator text .single).code ≠ (Locator.ofStrategy text strategy).code := by
  intro hcode
  have hrule : OldForm.locator text .single =
      .ofStrategy ("a:text(\\'" ++ text ++ "\\')") .css := rfl
  have hlength := congrArg String.length hcode
  simp only [hrule, code_ofStrategy, literal, String.length_append] at hlength
  have hshort : (locatorStart strategy).length + (locatorEnd strategy).length <
      (locatorStart .css).length + (locatorEnd .css).length + 12 := by
    cases strategy <;> decide
  have hopening : "a:text(\\'".length = 9 := rfl
  have hclosing : "\\')".length = 3 := rfl
  omega

theorem locator_of_ne_single (h : form ≠ .single) (text : String) :
    form.locator text = .ofStrategy text (Locator.strategyOf text) := by
  cases form with
  | single => exact absurd rfl h
  | marked | double => rfl

theorem code_locator_eq_iff (text : String) (form other : OldForm) :
    (form.locator text).code = (other.locator text).code ↔ (form = .single ↔ other = .single) := by
  have hne := code_single_ne text (Locator.strategyOf text)
  by_cases hform : form = .single
  · by_cases hother : other = .single
    · simp [hform, hother]
    · simp [hform, hother, locator_of_ne_single hother, hne]
  · by_cases hother : other = .single
    · simp [hform, hother, locator_of_ne_single hform, hne.symm]
    · simp [hform, hother, locator_of_ne_single hform, locator_of_ne_single hother]

theorem not_startsWith_of_isPlainText (h : Locator.isPlainText text = true) {opening : String}
    (hopening : ∃ c ∈ opening.toList, (c.isAlpha || Text.isBlank c) = false) :
    Text.startsWith opening text = false := by
  simp only [Locator.isPlainText, Bool.and_eq_true, List.all_eq_true] at h
  obtain ⟨c, hmem, hc⟩ := hopening
  by_contra hstarts
  rw [Bool.not_eq_false, Text.startsWith, Chars.startsWith, Option.isSome_iff_exists] at hstarts
  obtain ⟨rest, hrest⟩ := hstarts
  have hplain := h.2 c (Chars.eq_append_of_after? hrest ▸ List.mem_append_left rest hmem)
  exact absurd (hc ▸ hplain) Bool.false_ne_true

theorem strategyOf_eq_text_iff (text : String) :
    Locator.strategyOf text = .text ↔ Locator.isPlainText text = true := by
  constructor
  · intro h
    unfold Locator.strategyOf at h
    split_ifs at h with _ _ _ hplain
    exact hplain
  · intro h
    have hid : Text.startsWith "[data-testid" text = false :=
      not_startsWith_of_isPlainText h ⟨'[', by decide, by decide⟩
    have hlabel : Text.startsWith "[aria-label" text = false :=
      not_startsWith_of_isPlainText h ⟨'[', by decide, by decide⟩
    have hpath : Text.startsWith "//" text = false :=
      not_startsWith_of_isPlainText h ⟨'/', by decide, by decide⟩
    simp [Locator.strategyOf, hid, hlabel, hpath, h]

theorem locatedBy_text_iff (h : LocatedBy (form.locator text) code) :
    LocatedBy (.text text) code ↔ form ≠ .single ∧ Locator.isPlainText text = true := by
  rw [← strategyOf_eq_text_iff]
  constructor
  · intro htext
    by_cases hform : form = .single
    · rw [hform] at h
      have hrule : LocatedBy (.ofStrategy ("a:text(\\'" ++ text ++ "\\')") .css) code := h
      exact absurd (eq_text_of_locatedBy hrule htext) (by decide)
    · rw [locator_of_ne_single hform] at h
      exact ⟨hform, eq_text_of_locatedBy h htext⟩
  · rintro ⟨hform, hstrategy⟩
    rw [locator_of_ne_single hform, hstrategy] at h
    exact h

/-- The code of a text in two of the old forms is the same only if both or neither has
single quotes, and it locates the text as such only without them and if it has but
letters and blanks. -/
theorem stepCode_oldForm (step : Step) {text : String} (htext : Quotable text)
    (hstrategy : step.strategy = none) (haction : onElement step.action = true) (number : Int)
    (timeout : Json) (form other : OldForm) :
    (stepCode (step.naming form text) number timeout =
        stepCode (step.naming other text) number timeout ↔
      (form = .single ↔ other = .single) ∨ ¬ Looks (step.naming form text)) ∧
    (Looks (step.naming form text) →
      LocatedBy (form.locator text) (statement (step.naming form text) timeout)) ∧
    (LocatedBy (.text text) (statement (step.naming form text) timeout) ↔
      Looks (step.naming form text) ∧ form ≠ .single ∧ Locator.isPlainText text = true) := by
  rw [stepCode_naming_eq_iff]
  by_cases hlooks : Looks (step.naming form text)
  · obtain ⟨lead, hlead, rest, hframe⟩ := exists_frame_of_looks haction hlooks timeout
    simp only [htext.target_naming hstrategy] at hframe
    have hlocated : LocatedBy (form.locator text) (statement (step.naming form text) timeout) :=
      ⟨lead, hlead, rest, hframe form⟩
    refine ⟨?_, fun _ => hlocated, ?_⟩
    · rw [hframe, hframe, ← String.toList_inj]
      simp only [String.toList_append, List.append_cancel_left_eq, List.append_cancel_right_eq,
        String.toList_inj, hlooks, not_true_eq_false, or_false]
      exact code_locator_eq_iff text form other
    · simp only [hlooks, true_and]
      exact locatedBy_text_iff hlocated
  · have hskipped := fun other => statement_of_not_looks hlooks other timeout
    simp only [hskipped, hlooks, not_locatedBy_comment, false_and, not_false_eq_true, or_true,
      IsEmpty.forall_iff, and_self]

def openStep : Step := ⟨.click, none, none, none, "Open it", none, none, none⟩

theorem stepCode_oldForm_signIn :
    (Quotable "Sign in" ∧ Quotable "Step 2" ∧ openStep.strategy = none ∧
      onElement openStep.action = true) ∧
    stepCode (openStep.naming .marked "Sign in") 1 .null =
        stepCode (openStep.naming .double "Sign in") 1 .null ∧
      stepCode (openStep.naming .single "Sign in") 1 .null ≠
        stepCode (openStep.naming .double "Sign in") 1 .null ∧
      LocatedBy (.text "Sign in") (statement (openStep.naming .double "Sign in") .null) ∧
      ¬ LocatedBy (.text "Sign in") (statement (openStep.naming .single "Sign in") .null) ∧
      ¬ LocatedBy (.text "Step 2") (statement (openStep.naming .marked "Step 2") .null) := by
  have hsign : Quotable "Sign in" := by decide
  have hstep : Quotable "Step 2" := by decide
  have hlooks (form : OldForm) : Looks (openStep.naming form "Sign in") := fun h => nomatch h
  have hsame := stepCode_oldForm openStep hsign rfl rfl 1 .null .marked .double
  have hother := stepCode_oldForm openStep hsign rfl rfl 1 .null .single .double
  have hdouble := stepCode_oldForm openStep hsign rfl rfl 1 .null .double .double
  have hnumber := stepCode_oldForm openStep hstep rfl rfl 1 .null .marked .marked
  refine ⟨⟨hsign, hstep, rfl, rfl⟩, hsame.1.mpr (Or.inl (by decide)), fun heq => ?_,
    hdouble.2.2.mpr ⟨hlooks _, by decide, by decide⟩,
    fun h => (hother.2.2.mp h).2.1 rfl, fun h => absurd (hnumber.2.2.mp h).2.2 (by decide)⟩
  rcases hother.1.mp heq with hforms | hnot
  · exact absurd hforms (by decide)
  · exact hnot (hlooks _)

end Spec

end Sitecheck
