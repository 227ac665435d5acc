import Sitecheck.Proofs.Fields
import Sitecheck.Suite.Basic

/-!
# Typed data read from its own form

A reader that takes back what is written for a value takes back lists of such
values and records with such members.
-/

namespace Sitecheck

namespace Schema

variable {α β : Type}
variable {x : Outcome α} {encode : α → Json} {read : Reader α} {fields : List (String × Json)}

@[simp] theorem Outcome.map_eq (f : α → β) (x : Outcome α) : f <$> x = x.map f := rfl

@[simp] theorem Outcome.seq_eq (f : Outcome (α → β)) (x : Outcome α) : f <*> x = f.seq x := rfl

theorem Outcome.pure_eq (a : α) : (pure a : Outcome α) = .value a := rfl

theorem Outcome.map_eq_value_iff {f : α → β} {b : β} :
    x.map f = .value b ↔ ∃ a, x = .value a ∧ f a = b := by
  cases x <;> simp [Outcome.map]

theorem Outcome.under_eq_value_iff {step : Step} {a : α} :
    x.under step = .value a ↔ x = .value a := by
  cases x <;> simp [Outcome.under]

theorem Outcome.orFault_eq_ok_iff {subject : String} {a : α} :
    x.orFault subject = .ok a ↔ x = .value a := by
  cases x <;> simp [Outcome.orFault]

theorem itemsFrom_map (h : ∀ a, read (encode a) = .value a) (position : Nat) (values : List α) :
    itemsFrom read position (values.map encode) = .value values := by
  induction values generalizing position with
  | nil => rfl
  | cons a values ih =>
    rw [List.map_cons, itemsFrom, h, ih]
    rfl

theorem list_map (h : ∀ a, read (encode a) = .value a) (values : List α) :
    list read (.arr (values.map encode)) = .value values :=
  itemsFrom_map h 0 values

theorem list_texts (values : List String) : list text (.texts values) = .value values := by
  have htext : ∀ value, text (.str value) = .value value := fun _ => rfl
  exact list_map htext values

theorem nullable_text (value : Option String) : nullable text (.ofOption value) = .value value := by
  cases value <;> rfl

theorem named?_map (fields : List (String × Json)) :
    named? (fields.map fun (key, value) => (.str key, value)) = some fields := by
  induction fields with
  | nil => rfl
  | cons field fields ih =>
    rw [List.map_cons, named?, ih]
    rfl

theorem entries_map (fields : List (String × Json)) :
    entries anything (fields.map fun (key, value) => (.str key, value)) = .value fields := by
  induction fields with
  | nil => rfl
  | cons field fields ih =>
    rw [List.map_cons, entries, ih]
    rfl

theorem table_obj (h : (fields.map Prod.fst).Nodup) :
    table anything (.obj fields) = .value fields := by
  have hpairs : pairs? (.obj fields) = some (fields.map fun (key, value) => (.str key, value)) := rfl
  simp only [table, hpairs, entries_map, Outcome.map]
  rw [Fields.update_nil_of_nodup (by simpa using h)]

theorem record_obj {read : List (String × Json) → Outcome α}
    (h : Fields.has reservedName fields = false) : record read (.obj fields) = read fields := by
  have hpairs : pairs? (.obj fields) = some (fields.map fun (key, value) => (.str key, value)) := rfl
  simp only [record, hpairs, named?_map, h, Bool.false_eq_true, if_false]

theorem record_obj_eq_value_iff {read : List (String × Json) → Outcome α} {a : α} :
    record read (.obj fields) = .value a ↔
      Fields.get? reservedName fields = none ∧ read fields = .value a := by
  cases hreserved : Fields.has reservedName fields with
  | false =>
    have hnone : Fields.get? reservedName fields = none := by simpa [Fields.has] using hreserved
    rw [record_obj hreserved, hnone]
    simp
  | true =>
    have hsome : Fields.get? reservedName fields ≠ none := by
      simpa [Fields.has, Option.isSome_iff_ne_none] using hreserved
    have hpairs : pairs? (.obj fields) = some (fields.map fun (key, value) => (.str key, value)) := rfl
    simp [record, hpairs, named?_map, hreserved, hsome, Outcome.fail]

theorem record_cases {read : List (String × Json) → Outcome α} {value : Json} {a : α}
    (h : record read value = .value a) :
    ∃ pairs members, pairs? value = some pairs ∧ named? pairs = some members ∧
      read members = .value a := by
  unfold record at h
  split at h
  · cases h
  split at h
  · cases h
  next pairs hpairs =>
  split at h
  · cases h
  next members hnamed =>
  split at h
  · cases h
  · exact ⟨pairs, members, hpairs, hnamed, h⟩

end Schema

open Schema

theorem choice_action (kind : ActionKind) : choice ActionKind.members (.str kind.name) = .value kind := by
  have h := ActionKind.ofName?_name kind
  rw [ActionKind.ofName?] at h
  rw [choice, h]

theorem nullable_choice_strategy (strategy : Option Strategy) :
    nullable (choice Strategy.members) (.ofOption (strategy.map Strategy.name)) = .value strategy := by
  cases strategy with
  | none => rfl
  | some strategy =>
    have h := Strategy.ofName?_name strategy
    rw [Strategy.ofName?] at h
    simp only [Option.map_some, Json.ofOption, nullable, choice, h]
    rfl

theorem Step.record_toJson (step : Step) : record Step.ofFields step.toJson = .value step := by
  rw [Step.toJson, record_obj (by rfl)]
  simp [Step.ofFields, required, withDefault, Schema.optional, Fields.get?, List.lookup_cons, choice_action,
    nullable_text, nullable_choice_strategy, Outcome.under, Outcome.map, Schema.text]

theorem TestCase.record_toJson (case : TestCase) :
    record TestCase.ofFields case.toJson = .value case := by
  rw [TestCase.toJson, record_obj (by rfl)]
  simp [TestCase.ofFields, required, withDefault, Fields.get?, List.lookup_cons, list_texts,
    list_map Step.record_toJson, Outcome.under, Outcome.map, Schema.text]

theorem TestCase.ofFields_bare (id name description : String) (steps : List Step) :
    TestCase.ofFields [("test_id", .str id), ("name", .str name), ("description", .str description),
      ("steps", .arr (steps.map Step.toJson))] = .value ⟨id, name, description, [], [], steps, []⟩ := by
  have hsteps := list_map Step.record_toJson steps
  simp [TestCase.ofFields, required, withDefault, Fields.get?, List.lookup_cons, hsteps, Outcome.under,
    Outcome.map, Schema.text]

theorem Suite.ofFields_cases (id name : String) (base : Json) (cases : List TestCase) :
    Suite.ofFields [("suite_id", .str id), ("name", .str name), ("base_url", base),
      ("test_cases", .arr (cases.map TestCase.toJson))] =
      ((webAddress base).under (.key "base_url")).map fun address => ⟨id, name, address, cases⟩ := by
  have hcases := list_map TestCase.record_toJson cases
  simp only [Suite.ofFields, required, Fields.get?, List.lookup_cons, String.reduceBEq, hcases, Schema.text]
  cases webAddress base <;> rfl

end Sitecheck
