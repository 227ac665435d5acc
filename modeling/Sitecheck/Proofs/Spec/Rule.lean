import Sitecheck.Proofs.Spec.OldForm

/-!
# Selectors that are style rules

A selector that begins with the name of an element or with a class, and has a mark in it
that no plain text has, is taken for a style rule, whatever else it holds: its escaped
quotes make it no other kind of selector (`ofSelector_of_isRule`).
-/

namespace Sitecheck.Spec

variable {selector : String}

/-- The first letters of the rules for buttons, forms, inputs and classes. -/
def ruleStarts : List Char := ['b', 'f', 'i', '.']

/-- Taken for a style rule, whatever its quotes: it begins as one, and has a mark that no
plain text has. -/
def isRule (selector : String) : Bool :=
  selector.toList.head?.any ruleStarts.contains &&
    selector.toList.any fun c => !(c.isAlpha || Text.isBlank c || c = '\'')

theorem exists_of_isRule (h : isRule selector = true) :
    ∃ first ∈ ruleStarts, ∃ rest, selector.toList = first :: rest ∧
      ∃ c ∈ selector.toList, (c.isAlpha || Text.isBlank c) = false ∧ c ≠ '\'' := by
  obtain ⟨hstart, hmark⟩ := Bool.and_eq_true_iff.mp h
  obtain ⟨c, hmem, hc⟩ := List.any_eq_true.mp hmark
  simp only [Bool.not_eq_true', Bool.or_eq_false_iff, decide_eq_false_iff_not] at hc
  cases htext : selector.toList with
  | nil =>
    rw [htext] at hmem
    cases hmem
  | cons first rest =>
    rw [htext] at hstart hmem
    exact ⟨first, by simpa using hstart, rest, rfl, c, hmem, by simp [hc], hc.2⟩

theorem isRule_append {opening : String} (h : isRule opening = true) (rest : String) :
    isRule (opening ++ rest) = true := by
  obtain ⟨hstart, hmark⟩ := Bool.and_eq_true_iff.mp h
  rw [isRule, String.toList_append, List.any_append, hmark, Bool.true_or, Bool.and_true]
  cases htext : opening.toList with
  | nil =>
    rw [htext] at hstart
    cases hstart
  | cons =>
    rw [htext] at hstart
    exact hstart

theorem ofSelector_of_isRule (h : isRule selector = true) :
    Locator.ofSelector (escapeQuotes selector) none = .css (escapeQuotes selector) := by
  obtain ⟨first, hfirst, rest, htext, c, hmem, hc, hquote⟩ := exists_of_isRule h
  have hne (d : Char) (hd : d ∉ ruleStarts) : d ≠ first := fun heq => hd (heq ▸ hfirst)
  have hescaped : (escapeQuotes selector).toList = first :: quotesEscaped rest := by
    rw [toList_escapeQuotes, htext, quotesEscaped_cons (hne _ (by decide)).symm]
  have hstarts (pattern : String) (d : Char) (more : List Char) (hpattern : pattern.toList = d :: more)
      (hd : d ∉ ruleStarts) : Text.startsWith pattern (escapeQuotes selector) = false := by
    rw [Text.startsWith, Chars.startsWith, hescaped, hpattern, Chars.after?, if_neg (hne d hd)]
    rfl
  have hlink : Locator.linkText? (escapeQuotes selector).toList = none := by
    refine linkText?_of_no_opening ?_
    rw [hescaped, linkOpening, Chars.after?, if_neg (hne 'a' (by decide))]
  have hplain : Locator.isPlainText (escapeQuotes selector) = false := by
    rw [Locator.isPlainText, Bool.and_eq_false_iff, List.all_eq_false]
    refine .inr ⟨c, ?_, by simp [hc]⟩
    rw [toList_escapeQuotes]
    exact List.mem_flatMap.mpr ⟨c, hmem, by simp [hquote]⟩
  have hnormal : Locator.normalize (escapeQuotes selector) = escapeQuotes selector := by
    rw [Locator.normalize, hlink]
    rw [hstarts "text=" _ _ rfl (by decide)]
    rfl
  have hstrategy : Locator.strategyOf (escapeQuotes selector) = .css := by
    rw [Locator.strategyOf, hstarts "[data-testid" _ _ rfl (by decide),
      hstarts "[aria-label" _ _ rfl (by decide), hstarts "//" _ _ rfl (by decide), hplain]
    rfl
  rw [Locator.ofSelector, hnormal, Option.getD_none, hstrategy]
  rfl

theorem lower_ne_title_of_isRule (h : isRule selector = true) : Text.lower selector ≠ "title" := by
  obtain ⟨first, hfirst, rest, htext, -⟩ := exists_of_isRule h
  rw [← String.toList_inj.ne, Text.lower, htext]
  simp only [ruleStarts, List.mem_cons, List.not_mem_nil, or_false] at hfirst
  rcases hfirst with rfl | rfl | rfl | rfl <;> simp [Text.Case.lowerFrom, Text.Case.lowerAt]

/-- Code that looks for a style rule, and for no text, label or test id. -/
structure StyledBy (rule code : String) : Prop where
  rule : LocatedBy (.css rule) code
  noText : ∀ value, ¬ LocatedBy (.text value) code
  noLabel : ∀ value, ¬ LocatedBy (.label value) code
  noTestId : ∀ value, ¬ LocatedBy (.testId value) code

theorem styledBy_of_locatedBy {rule code : String} (h : LocatedBy (.css rule) code) :
    StyledBy rule code := by
  have hrule : LocatedBy (.ofStrategy rule .css) code := h
  have hother (strategy : Strategy) (hstart : locatorStart .css ≠ locatorStart strategy)
      (value : String) : ¬ LocatedBy (.ofStrategy value strategy) code :=
    fun hvalue => hstart (locatorStart_eq_of_locatedBy hrule hvalue)
  exact ⟨h, hother .text (by decide), hother .ariaLabel (by decide), hother .testId (by decide)⟩

/-- The selector of the step, if it has one, is compiled to a style rule. -/
def IsStyled (step : Step) : Prop :=
  ∀ selector, firstText step.selector none = some selector → ∀ timeout,
    StyledBy (escapeQuotes selector) (statement step timeout)

theorem isStyled_of_isRule {step : Step} (hselector : step.selector = some selector)
    (hrule : isRule selector = true) (hstrategy : step.strategy = none)
    (haction : onElement step.action = true) (hlooks : Looks step) : IsStyled step := by
  intro given hgiven timeout
  have hsame : given = selector := by
    rw [hselector] at hgiven
    simp only [firstText, Option.filter_none, Option.or_none] at hgiven
    exact (Option.filter_eq_some_iff.mp hgiven).1 |> Option.some.inj |>.symm
  have htarget : target step = (Locator.css (escapeQuotes selector)).code := by
    rw [target, hgiven, hsame, hstrategy]
    dsimp only
    rw [ofSelector_of_isRule hrule]
  obtain ⟨lead, tail, hlead, hcode⟩ := exists_statement_of_looks haction hlooks timeout
  rw [hsame]
  rw [htarget] at hcode
  refine styledBy_of_locatedBy ?_
  rcases hlead with rfl | rfl
  · refine ⟨"    await ", by simp, String.ofList tail, ?_⟩
    rw [← String.toList_inj, hcode]
    simp
  · refine ⟨"    await expect(", by simp, String.ofList tail, ?_⟩
    rw [← String.toList_inj, hcode]
    simp

end Sitecheck.Spec
