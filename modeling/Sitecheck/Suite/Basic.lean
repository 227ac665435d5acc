import Sitecheck.Site.Basic

/-!
# Test suites

A suite is a list of test cases for one site, a case a list of steps with
assertions about what they lead to.
-/

namespace Sitecheck

structure Step where
  action : ActionKind
  selector : Option String
  strategy : Option Strategy
  value : Option String
  description : String
  expected : Option String
  url : Option String
  assertion : Option String

structure TestCase where
  id : String
  name : String
  description : String
  tags : List String
  preconditions : List String
  steps : List Step
  assertions : List String

structure Suite where
  id : String
  name : String
  baseUrl : String
  cases : List TestCase

open Schema

namespace Step

def ofFields (fields : List (String × Json)) : Outcome Step :=
  Step.mk <$> required "action" (choice ActionKind.members) fields
    <*> withDefault "selector" (some "") (nullable Schema.text) fields
    <*> optional "selector_strategy" (choice Strategy.members) fields
    <*> optional "value" Schema.text fields
    <*> withDefault "description" "" Schema.text fields
    <*> optional "expected_outcome" Schema.text fields
    <*> optional "url" Schema.text fields
    <*> optional "assertion" Schema.text fields

def toJson (step : Step) : Json :=
  .obj [("action", .str step.action.name), ("selector", .ofOption step.selector),
    ("selector_strategy", .ofOption (step.strategy.map Strategy.name)),
    ("value", .ofOption step.value), ("description", .str step.description),
    ("expected_outcome", .ofOption step.expected), ("url", .ofOption step.url),
    ("assertion", .ofOption step.assertion)]

end Step

namespace TestCase

def ofFields (fields : List (String × Json)) : Outcome TestCase :=
  TestCase.mk <$> required "test_id" Schema.text fields
    <*> required "name" Schema.text fields
    <*> required "description" Schema.text fields
    <*> withDefault "tags" [] (list Schema.text) fields
    <*> withDefault "preconditions" [] (list Schema.text) fields
    <*> required "steps" (list (record Step.ofFields)) fields
    <*> withDefault "assertions" [] (list Schema.text) fields

def toJson (case : TestCase) : Json :=
  .obj [("test_id", .str case.id), ("name", .str case.name),
    ("description", .str case.description), ("tags", .texts case.tags),
    ("preconditions", .texts case.preconditions), ("steps", .arr (case.steps.map Step.toJson)),
    ("assertions", .texts case.assertions)]

end TestCase

namespace Suite

def ofFields (fields : List (String × Json)) : Outcome Suite :=
  Suite.mk <$> required "suite_id" Schema.text fields
    <*> required "name" Schema.text fields
    <*> required "base_url" webAddress fields
    <*> required "test_cases" (list (record TestCase.ofFields)) fields

def toJson (suite : Suite) : Json :=
  .obj [("suite_id", .str suite.id), ("name", .str suite.name), ("base_url", .str suite.baseUrl),
    ("test_cases", .arr (suite.cases.map TestCase.toJson))]

end Suite

end Sitecheck
