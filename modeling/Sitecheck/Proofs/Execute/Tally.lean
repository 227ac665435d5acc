import Sitecheck.Execute.Tally
import Sitecheck.Proofs.Except

/-!
# Figures that add up

The figures of a run add up if every test has passed or failed and the single
results, if there are any, say the same.  Those of a report always do
(`addUp_of_ofReport`).  Those of a plain output are three counts of marks that
have nothing to do with each other, and add up exactly if one is the sum of the
others (`addUp_ofOutput_iff`).
-/

namespace Sitecheck

theorem Json.size_eq_length {value : Json} {items : List Json} {n : Nat} (hsize : value.size = .ok n)
    (hitems : value.elements = .ok items) : n = items.length := by
  cases value <;> simp_all [Json.size, Json.elements, Text.size, Text.letters] <;>
    simp [← hsize, ← hitems]

namespace Execute

structure Figures where
  total : Int
  passed : Int
  failed : Int
  results : List Json

def hasPassed (result : Json) : Bool :=
  match result.member "status" with
  | .ok (.str status) => status = "passed"
  | _ => false

structure Figures.AddUp (figures : Figures) : Prop where
  nonneg : 0 ≤ figures.passed
  le : figures.passed ≤ figures.total
  sum : figures.passed + figures.failed = figures.total
  each : figures.results ≠ [] → figures.results.length = figures.total ∧
    figures.results.countP hasPassed = figures.passed

namespace Tally

variable {report : Json} {tally : Tally} {output : String}

def figures (tally : Tally) : Figures := ⟨tally.total, tally.passed, tally.failed, tally.results⟩

def entry (name : Json) (ok : Bool) (error : Json) : Json :=
  .obj [("name", name), ("status", .str (if ok then "passed" else "failed")), ("error", error)]

theorem hasPassed_entry (name : Json) (ok : Bool) (error : Json) :
    hasPassed (entry name ok error) = ok := by
  cases ok <;> rfl

theorem resultOf_ok {spec result : Json} (h : resultOf spec = .ok result) :
    ∃ name ok error, isOk spec = .ok ok ∧ result = entry name ok error := by
  obtain ⟨name, -, h⟩ := bind_eq_ok_iff.mp h
  obtain ⟨ok, hok, h⟩ := bind_eq_ok_iff.mp h
  cases ok with
  | true =>
    cases h
    exact ⟨name, true, .null, hok, rfl⟩
  | false =>
    obtain ⟨error, -, h⟩ := bind_eq_ok_iff.mp h
    cases h
    exact ⟨name, false, error, hok, rfl⟩

theorem countP_hasPassed {items results : List Json} {outcomes : List Bool}
    (houtcomes : List.Forall₂ (fun item ok => isOk item = .ok ok) items outcomes)
    (hresults : List.Forall₂ (fun item result => resultOf item = .ok result) items results) :
    results.countP hasPassed = outcomes.count true := by
  induction houtcomes generalizing results with
  | nil =>
    cases hresults
    rfl
  | @cons item ok items outcomes hok _ ih =>
    cases hresults with
    | cons hresult hresults =>
      obtain ⟨name, ok', error, hok', rfl⟩ := resultOf_ok hresult
      cases hok.symm.trans hok'
      simp [List.countP_cons, List.count_cons, hasPassed_entry, ih hresults]

theorem ofReport_ok (h : ofReport report = .ok tally) :
    tally.passed = tally.results.countP hasPassed ∧ tally.results.length = tally.total ∧
      tally.failed = tally.total - tally.passed ∧
      ∀ result ∈ tally.results, ∃ name ok error, result = entry name ok error := by
  obtain ⟨specs, -, h⟩ := bind_eq_ok_iff.mp h
  obtain ⟨total, htotal, h⟩ := bind_eq_ok_iff.mp h
  obtain ⟨items, hitems, h⟩ := bind_eq_ok_iff.mp h
  obtain ⟨outcomes, houtcomes, h⟩ := bind_eq_ok_iff.mp h
  obtain ⟨results, hresults, h⟩ := bind_eq_ok_iff.mp h
  cases h
  refine ⟨?_, ?_, rfl, fun result hresult => ?_⟩
  · exact (countP_hasPassed (mapM_eq_ok_iff.mp houtcomes) (mapM_eq_ok_iff.mp hresults)).symm
  · rw [Json.size_eq_length htotal hitems, (mapM_eq_ok_iff.mp hresults).length_eq]
  · obtain ⟨spec, -, hspec⟩ := exists_of_mem_mapM hresults hresult
    obtain ⟨name, ok, error, -, hentry⟩ := resultOf_ok hspec
    exact ⟨name, ok, error, hentry⟩

theorem addUp_of_ofReport (h : ofReport report = .ok tally) : tally.figures.AddUp := by
  obtain ⟨hpassed, hlength, hfailed, -⟩ := ofReport_ok h
  have hle := List.countP_le_length (p := hasPassed) (l := tally.results)
  constructor <;> simp only [figures] <;> omega

theorem addUp_ofText_iff (output : String) :
    (ofText output).figures.AddUp ↔
      Text.count " passed" output + Text.count " failed" output = Text.count " expected" output := by
  constructor
  · intro h
    have hsum := h.sum
    simp only [figures, ofText] at hsum
    omega
  · intro h
    refine ⟨Int.natCast_nonneg _, ?_, ?_, fun hne => absurd rfl hne⟩
    · simp only [figures, ofText]
      omega
    · simp only [figures, ofText]
      omega

theorem addUp_ofOutput_iff (h : ofOutput output = .ok tally) :
    tally.figures.AddUp ↔ (Json.parse output >>= ofReport).isOk ∨
      Text.count " passed" output + Text.count " failed" output =
        Text.count " expected" output := by
  unfold ofOutput at h
  cases hread : Json.parse output >>= ofReport with
  | ok =>
    rw [hread] at h
    cases h
    obtain ⟨report, -, hreport⟩ := bind_eq_ok_iff.mp hread
    simp [addUp_of_ofReport hreport, Except.isOk, Except.toBool]
  | error =>
    rw [hread] at h
    dsimp only at h
    split at h
    · cases h
      simp [addUp_ofText_iff, Except.isOk, Except.toBool]
    · cases h

theorem entries_of_ofOutput (h : ofOutput output = .ok tally) :
    ∀ result ∈ tally.results, ∃ name ok error, result = entry name ok error := by
  unfold ofOutput at h
  split at h
  · next read hread =>
    cases h
    obtain ⟨report, -, hreport⟩ := bind_eq_ok_iff.mp hread
    exact (ofReport_ok hreport).2.2.2
  · split at h
    · cases h
      simp [ofText]
    · cases h

end Tally

end Execute

end Sitecheck
