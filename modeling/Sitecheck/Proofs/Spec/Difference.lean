import Sitecheck.Proofs.Spec.Layout

/-!
# When two tests have the same code

Without the strategies of its steps and without its assertions a test has the
same code only if nothing of them can be seen in it (`caseCode_bare_eq_iff`).
Codes that differ do so at a character that both of them have, so that nothing
behind it makes them equal again.
-/

namespace Sitecheck

/-- A step without the strategy of its selector and the outcome that is expected. -/
def Step.bare (step : Step) : Step := { step with strategy := none, expected := none }

def TestCase.bare (case : TestCase) : TestCase :=
  { case with steps := case.steps.map Step.bare, assertions := [] }

namespace Spec

variable {first second rest front start more : String} {strategy other : Strategy} {step : Step}
  {steps : List Step}

/-! ## Texts that diverge -/

/-- Neither of two texts begins with the other one. -/
def Diverge (first second : String) : Prop :=
  ¬ first.toList <+: second.toList ∧ ¬ second.toList <+: first.toList

instance (first second : String) : Decidable (Diverge first second) :=
  inferInstanceAs (Decidable (_ ∧ _))

theorem Diverge.symm (h : Diverge first second) : Diverge second first :=
  ⟨h.2, h.1⟩

theorem Diverge.ne (h : Diverge first second) : first ≠ second := by
  rintro rfl
  exact h.1 (List.prefix_refl _)

theorem Diverge.append (h : Diverge first second) (more other : String) :
    Diverge (first ++ more) (second ++ other) := by
  constructor
  · intro hprefix
    rw [String.toList_append, String.toList_append] at hprefix
    have hfirst := (List.prefix_append first.toList more.toList).trans hprefix
    rcases List.prefix_or_prefix_of_prefix hfirst (List.prefix_append _ _) with hp | hp
    · exact h.1 hp
    · exact h.2 hp
  · intro hprefix
    rw [String.toList_append, String.toList_append] at hprefix
    have hsecond := (List.prefix_append second.toList other.toList).trans hprefix
    rcases List.prefix_or_prefix_of_prefix hsecond (List.prefix_append _ _) with hp | hp
    · exact h.2 hp
    · exact h.1 hp

theorem Diverge.longer (h : Diverge first second) (more : String) :
    Diverge first (second ++ more) := by
  simpa using h.append "" more

theorem Diverge.behind (h : Diverge first second) (common : String) :
    Diverge (common ++ first) (common ++ second) := by
  unfold Diverge
  simp only [String.toList_append, List.prefix_append_right_inj]
  exact h

/-! ## Locators -/

theorem diverge_locatorStart (h : locatorStart strategy ≠ locatorStart other) :
    Diverge (locatorStart strategy) (locatorStart other) := by
  revert h
  cases strategy <;> cases other <;> decide

theorem eq_of_locatorStart (h : strategy ≠ other)
    (hstart : locatorStart strategy = locatorStart other) :
    strategy = .css ∧ other = .xpath ∨ strategy = .xpath ∧ other = .css := by
  revert h hstart
  cases strategy <;> cases other <;> decide

/-- Locators of one selector by two strategies diverge, unless what follows calls
for the first element. -/
theorem diverge_code (h : strategy ≠ other) (selector : String) (hrest : Diverge ".first()" rest) :
    Diverge ((Locator.ofStrategy selector strategy).code ++ rest)
      ((Locator.ofStrategy selector other).code ++ rest) := by
  simp only [code_ofStrategy, String.append_assoc]
  by_cases hstart : locatorStart strategy = locatorStart other
  · rw [hstart]
    refine Diverge.behind (Diverge.behind ?_ _) _
    have hfirst : Diverge (".first()" ++ rest) rest := by
      simpa using hrest.append rest ""
    have hends : Diverge (").first()" ++ rest) (")" ++ rest) := hfirst.behind ")"
    rcases eq_of_locatorStart h hstart with ⟨rfl, rfl⟩ | ⟨rfl, rfl⟩
    · exact hends
    · exact hends.symm
  · exact (diverge_locatorStart hstart).append _ _

/-! ## Steps -/

/-- Whether the code of a step names what it acts on. -/
def usesTarget (step : Step) : Bool :=
  match step.action with
  | .click | .fill | .select | .submit | .hover | .check | .uncheck => true
  | .expect =>
    Text.lower (step.selector.getD "") != "title" &&
      (plainAssertions.contains ((firstText step.assertion none).getD "toBeVisible") ||
        (firstText step.value none).isSome)
  | .navigate | .goto | .goBack | .reload | .wait => false

/-- The strategy that a step gives for a selector in its code is the one that the
form of the selector calls for. -/
def Inferable (step : Step) : Prop :=
  usesTarget step = true → ∀ selector ∈ firstText step.selector none, ∀ strategy ∈ step.strategy,
    strategy = Locator.strategyOf (Locator.normalize (escapeQuotes selector))

theorem target_bare_of_inferable (h : Inferable step) (huses : usesTarget step = true) :
    target step.bare = target step := by
  unfold target
  have hselector : step.bare.selector = step.selector := rfl
  rw [hselector]
  cases hfound : firstText step.selector none with
  | none => rfl
  | some selector =>
    cases hstrategy : step.strategy with
    | none => rw [show step.bare.strategy = none from rfl]
    | some strategy =>
      have hsame := h huses selector hfound strategy hstrategy
      simp only [Step.bare, Locator.ofSelector, Option.getD_none, Option.getD_some, hsame]

theorem diverge_target_bare (h : ¬ Inferable step) (hrest : Diverge ".first()" rest) :
    Diverge (target step.bare ++ rest) (target step ++ rest) := by
  unfold Inferable at h
  push Not at h
  obtain ⟨-, selector, hselector, strategy, hstrategy, hne⟩ := h
  rw [Option.mem_def] at hselector hstrategy
  have hbare : target step.bare = (Locator.ofStrategy (Locator.normalize (escapeQuotes selector))
      (Locator.strategyOf (Locator.normalize (escapeQuotes selector)))).code := by
    simp only [target, Step.bare, hselector, Locator.ofSelector, Option.getD_none]
  have hgiven : target step =
      (Locator.ofStrategy (Locator.normalize (escapeQuotes selector)) strategy).code := by
    simp only [target, hselector, hstrategy, Locator.ofSelector, Option.getD_some]
  rw [hbare, hgiven]
  exact diverge_code hne.symm _ hrest

/-- What stands before a target in the code of a step, and behind it: a fixed start and
the rest. -/
def frame? (step : Step) : Option (String × String × String) :=
  let value := literal (step.value.getD "")
  let assertion := (firstText step.assertion none).getD "toBeVisible"
  let expect (argument : String) : String × String × String :=
    ("    await expect(", ").", assertion ++ ("(" ++ (argument ++ ");")))
  match step.action with
  | .click => some ("    await ", ".click();", "")
  | .fill => some ("    await ", ".fill(", value ++ ");")
  | .select => some ("    await ", ".selectOption(", value ++ ");")
  | .submit => some ("    await ", ".click(); // Submit form", "")
  | .hover => some ("    await ", ".hover();", "")
  | .check => some ("    await ", ".check();", "")
  | .uncheck => some ("    await ", ".uncheck();", "")
  | .expect =>
    if Text.lower (step.selector.getD "") == "title" then none
    else if plainAssertions.contains assertion then some (expect "")
    else (firstText step.value none).map fun value => expect (literal (escapeQuotes value))
  | .navigate | .goto | .goBack | .reload | .wait => none

theorem isSome_frame? (step : Step) : (frame? step).isSome = usesTarget step := by
  unfold frame? usesTarget
  cases step.action with
  | expect =>
    by_cases htitle : Text.lower (step.selector.getD "") = "title"
    · simp [htitle]
    · by_cases hplain : (firstText step.assertion none).getD "toBeVisible" ∈ plainAssertions
      · simp [htitle, hplain]
      · simp [htitle, hplain]
  | _ => rfl

theorem statement_of_frame? (h : frame? step = some (front, start, more)) :
    statement step .null = front ++ (target step ++ (start ++ more)) := by
  have htimeout : (timeoutOption .null).toList = [] := rfl
  unfold frame? at h
  unfold statement
  cases haction : step.action with
  | expect =>
    simp only [haction] at h ⊢
    rw [expectCode]
    split_ifs at h ⊢ with htitle hplain
    · cases h
      rw [expectTarget]
      rw [if_pos hplain]
      simp [htimeout, String.append_assoc]
    · obtain ⟨value, hvalue, heq⟩ := Option.map_eq_some_iff.mp h
      cases heq
      rw [expectTarget]
      rw [if_neg hplain, hvalue]
      simp [htimeout, String.append_assoc]
  | fill =>
    simp only [haction, Option.some.injEq, Prod.mk.injEq] at h ⊢
    obtain ⟨rfl, rfl, rfl⟩ := h
    have hcall : ".fill(" = "." ++ "fill(" := rfl
    simp only [hcall, String.append_assoc]
  | select =>
    simp only [haction, Option.some.injEq, Prod.mk.injEq] at h ⊢
    obtain ⟨rfl, rfl, rfl⟩ := h
    have hcall : ".selectOption(" = "." ++ "selectOption(" := rfl
    simp only [hcall, String.append_assoc]
  | _ =>
    simp only [haction, Option.some.injEq, Prod.mk.injEq, reduceCtorEq] at h ⊢
    all_goals obtain ⟨rfl, rfl, rfl⟩ := h
    all_goals simp [String.append_assoc]

theorem diverge_of_frame? (h : frame? step = some (front, start, more)) :
    Diverge ".first()" start := by
  unfold frame? at h
  cases haction : step.action with
  | expect =>
    have hstart : start = ")." := by
      simp only [haction] at h
      split_ifs at h with htitle hplain
      · cases h
        rfl
      · obtain ⟨value, -, heq⟩ := Option.map_eq_some_iff.mp h
        cases heq
        rfl
    rw [hstart]
    decide
  | _ =>
    simp only [haction, Option.some.injEq, Prod.mk.injEq, reduceCtorEq] at h
    all_goals
      rw [← h.2.1]
      decide

theorem statement_bare_of_frame? (h : frame? step = none) :
    statement step.bare .null = statement step .null := by
  cases haction : step.action with
  | expect =>
    simp only [frame?, haction] at h
    have hbare : step.bare.action = .expect := haction
    simp only [statement, haction, hbare, expectCode]
    have hselector : step.bare.selector = step.selector := rfl
    rw [hselector]
    split_ifs at h ⊢ with htitle hplain
    · rfl
    · have hvalue := Option.map_eq_none_iff.mp h
      have hsame : step.bare.value = step.value := rfl
      have hassertion : step.bare.assertion = step.assertion := rfl
      simp only [expectTarget, hassertion, hsame, hvalue]
      rw [if_neg hplain, if_neg hplain]
  | navigate | goto | goBack | reload | wait =>
    have hbare : step.bare.action = step.action := rfl
    have hvalue : step.bare.value = step.value := rfl
    have hurl : step.bare.url = step.url := rfl
    simp only [statement, hbare, haction, hvalue, hurl]
  | _ => simp [frame?, haction] at h

theorem stepCode_bare_of_inferable (h : Inferable step) (number : Int) :
    stepCode step.bare number .null = stepCode step number .null := by
  have hstatement : statement step.bare .null = statement step .null := by
    cases hframe : frame? step with
    | none => exact statement_bare_of_frame? hframe
    | some frame =>
      obtain ⟨front, start, more⟩ := frame
      have huses : usesTarget step = true := by rw [← isSome_frame?, hframe]; rfl
      have hbare : frame? step.bare = some (front, start, more) := hframe
      rw [statement_of_frame? hframe, statement_of_frame? hbare, target_bare_of_inferable h huses]
  have hdescription : step.bare.description = step.description := rfl
  have haction : step.bare.action = step.action := rfl
  simp only [stepCode, hstatement, hdescription, haction]

theorem diverge_stepCode_bare (h : ¬ Inferable step) (number : Int) :
    Diverge (stepCode step.bare number .null) (stepCode step number .null) := by
  have huses : usesTarget step = true := by
    by_contra hno
    exact h fun huses => absurd huses hno
  have hsome : (frame? step).isSome = true := (isSome_frame? step).trans huses
  obtain ⟨⟨front, start, more⟩, hframe⟩ := Option.isSome_iff_exists.mp hsome
  have hbare : frame? step.bare = some (front, start, more) := hframe
  have htarget := diverge_target_bare h ((diverge_of_frame? hframe).longer more)
  have hstatement : Diverge (statement step.bare .null) (statement step .null) := by
    rw [statement_of_frame? hframe, statement_of_frame? hbare]
    exact htarget.behind front
  exact hstatement.behind _

/-! ## Tests -/

theorem stepCodes_bare (h : ∀ step ∈ steps, Inferable step) (number : Int) :
    stepCodes number (steps.map Step.bare) = stepCodes number steps := by
  induction steps generalizing number with
  | nil => rfl
  | cons step steps ih =>
    rw [List.map_cons, stepCodes, stepCodes, stepCode_bare_of_inferable (h step List.mem_cons_self),
      ih fun s hs => h s (List.mem_cons_of_mem _ hs)]

theorem join_stepCodes_cons (number : Int) (step next : Step) (steps : List Step) :
    Text.join "\n" (stepCodes number (step :: next :: steps)) =
      stepCode step number .null ++
        ("\n" ++ Text.join "\n" (stepCodes (number + 1) (next :: steps))) := by
  rw [stepCodes, stepCodes, Text.join_cons_cons, String.append_assoc, ← stepCodes]

theorem diverge_stepCodes_bare (h : ¬ ∀ step ∈ steps, Inferable step) (number : Int) :
    Diverge (Text.join "\n" (stepCodes number (steps.map Step.bare)))
      (Text.join "\n" (stepCodes number steps)) := by
  induction steps generalizing number with
  | nil => exact absurd (by simp) h
  | cons step steps ih =>
    by_cases hstep : Inferable step
    · have hsteps : ¬ ∀ s ∈ steps, Inferable s := fun hall =>
        h (List.forall_mem_cons.mpr ⟨hstep, hall⟩)
      cases steps with
      | nil => exact absurd (by simp) hsteps
      | cons =>
        rw [List.map_cons, List.map_cons, join_stepCodes_cons, join_stepCodes_cons,
          stepCode_bare_of_inferable hstep]
        exact ((ih hsteps (number + 1)).behind "\n").behind _
    · have hcode := diverge_stepCode_bare hstep number
      cases steps with
      | nil => simpa [stepCodes] using hcode
      | cons =>
        rw [List.map_cons, List.map_cons, join_stepCodes_cons, join_stepCodes_cons]
        exact hcode.append _ _

theorem caseCode_eq (case : TestCase) :
    caseCode case =
      ("  test(" ++ literal case.name ++ ", async (\x7b page \x7d) => \x7b" ++ "\n" ++
        (comment case.description ++ "\n" ++ "\n")) ++
        (Text.join "\n" (stepCodes 1 case.steps) ++
          ("\n" ++ ("\n" ++ (assertionLines case.assertions ++ ("\n" ++ "  \x7d);"))))) := by
  simp only [caseCode, Text.join_cons_cons, Text.join_singleton, String.append_assoc,
    String.empty_append]

theorem diverge_assertionLines {assertions : List String} (h : assertions ≠ []) :
    Diverge (assertionLines []) (assertionLines assertions) := by
  have hstart : Diverge "    // No explicit assertions" "    // Assert: " := by decide
  cases assertions with
  | nil => exact absurd rfl h
  | cons first assertions =>
    have hcomment : "    // " ++ "Assert: " = "    // Assert: " := rfl
    have hfirst : comment ("Assert: " ++ first) = "    // Assert: " ++ first := by
      rw [comment, ← String.append_assoc, hcomment]
    cases assertions with
    | nil =>
      simp only [assertionLines, List.map_cons, List.map_nil, Text.join_singleton, hfirst]
      exact hstart.longer first
    | cons =>
      simp only [assertionLines, List.map_cons, Text.join_cons_cons, hfirst, String.append_assoc]
      exact hstart.longer _

/-- Without the strategies of its steps and without its assertions, a test has the
same code exactly if the strategies can be inferred and there are no assertions. -/
theorem caseCode_bare_eq_iff (case : TestCase) :
    caseCode case.bare = caseCode case ↔
      (∀ step ∈ case.steps, Inferable step) ∧ case.assertions = [] := by
  have hname : case.bare.name = case.name := rfl
  have hdescription : case.bare.description = case.description := rfl
  have hsteps : case.bare.steps = case.steps.map Step.bare := rfl
  have hassertions : case.bare.assertions = [] := rfl
  rw [caseCode_eq, caseCode_eq, hname, hdescription, hsteps, hassertions]
  constructor
  · intro heq
    have hinferable : ∀ step ∈ case.steps, Inferable step := by
      by_contra hnot
      exact (((diverge_stepCodes_bare hnot 1).append _ _).behind _).ne heq
    refine ⟨hinferable, ?_⟩
    by_contra hsome
    rw [stepCodes_bare hinferable] at heq
    have hlines := (diverge_assertionLines hsome).append ("\n" ++ "  \x7d);") ("\n" ++ "  \x7d);")
    exact ((((hlines.behind "\n").behind "\n").behind _).behind _).ne heq
  · rintro ⟨hinferable, hnone⟩
    rw [stepCodes_bare hinferable, hnone]

end Spec

end Sitecheck
