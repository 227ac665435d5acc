import Mathlib
import Sitecheck.Generate.Workflow
import Sitecheck.Proofs.Generate.Fence
import Sitecheck.Proofs.Json.Margin

/-!
# Two readers of one reply

Test cases and workflows are taken from replies by different readers.  Both know the
tagged fence.  The reader of workflows knows no plain one and drops no blanks, so that it
finds the document of a bare reply only if nothing but blanks of the format stand around
it, and that of a plain fence only if the reply is, by chance, a document as a whole
(`taggedPayload_agrees_iff`).
-/

namespace Sitecheck.Generate

variable {reply : List Char}

open Chars

theorem taggedPayload_of_tagged (h : taggedFence <:+: reply) :
    taggedPayload reply = payload reply := by
  cases hinside : fenced? taggedFence reply with
  | none => exact absurd h ((fenced?_eq_none_iff taggedFence_ne_nil reply).mp hinside)
  | some =>
    rw [taggedPayload, payload, hinside]
    rfl

theorem taggedPayload_of_untagged (h : ¬ taggedFence <:+: reply) : taggedPayload reply = reply := by
  rw [taggedPayload, (fenced?_eq_none_iff taggedFence_ne_nil reply).mpr h]

/-- What the reader of workflows finds in a reply is the document that the reader of test
cases finds there, exactly if the fence is tagged, or there is no fence and only blanks
of the format stand around the document, or the reply is that document as a whole.  A
reply with a plain fence is no document at all unless what stands before the fence opens
a string, or a list or an object with a string in it. -/
theorem taggedPayload_agrees_iff {reply : String} {document : Json}
    (h : Json.parse (String.ofList (payload reply.toList)) = .ok document) :
    (Json.parse (String.ofList (taggedPayload reply.toList)) = .ok document ↔
      taggedFence <:+: reply.toList ∨
      ¬ fence <:+: reply.toList ∧
        trim Text.isBlank reply.toList = trim Json.isSpace reply.toList ∨
      fence <:+: reply.toList ∧ Json.parse reply = .ok document) ∧
    (¬ taggedFence <:+: reply.toList → ∀ before after,
      reply.toList = before ++ fence ++ after → ¬ Json.OpensText before →
      ∃ fault, Json.parse (String.ofList (taggedPayload reply.toList)) = .error fault) := by
  by_cases htagged : taggedFence <:+: reply.toList
  · rw [taggedPayload_of_tagged htagged]
    exact ⟨⟨fun _ => .inl htagged, fun _ => h⟩, fun huntagged => absurd htagged huntagged⟩
  rw [taggedPayload_of_untagged htagged, String.ofList_toList]
  refine ⟨?_, fun _ before after hreply hbefore => ?_⟩
  · by_cases hfence : fence <:+: reply.toList
    · simp [htagged, hfence]
    · rw [payload_bare hfence] at h
      rw [Json.parse_iff_of_strip h]
      simp [htagged, hfence]
  · cases hparse : Json.parse reply with
    | error fault => exact ⟨fault, rfl⟩
    | ok =>
      have htick : reply.toList = before ++ '`' :: ('`' :: '`' :: after) := by
        rw [hreply]
        simp [fence]
      exact absurd (Json.opensText_of_parse hparse htick) hbefore

def plainReply : String := "Two ways:\n```\n\x7b\"workflows\": []\x7d\n```"

def nestedReply : String := "\x7b\",\":[\"```\x7b\",\":1\x7d```\"],\",\":1\x7d"

/-- A plain fence in prose, whose document only the first reader finds, and one in a document
that both read alike. -/
theorem taggedPayload_agrees_iff_nested :
    Json.parse (String.ofList (payload plainReply.toList)) = .ok (.obj [("workflows", .arr [])]) ∧
    (∃ fault, Json.parse (String.ofList (taggedPayload plainReply.toList)) = .error fault) ∧
    Json.parse (String.ofList (payload nestedReply.toList)) = .ok (.obj [(",", .int 1)]) ∧
    Json.parse (String.ofList (taggedPayload nestedReply.toList)) = .ok (.obj [(",", .int 1)]) := by
  have hplain : Json.parse (String.ofList (payload plainReply.toList)) =
      .ok (.obj [("workflows", .arr [])]) := by cbv
  have hnested : Json.parse (String.ofList (payload nestedReply.toList)) =
      .ok (.obj [(",", .int 1)]) := by cbv
  refine ⟨hplain, ?_, hnested, ?_⟩
  · have huntagged : ¬ taggedFence <:+: plainReply.toList :=
      (cut?_eq_none_iff _ _).mp (by decide +kernel)
    refine (taggedPayload_agrees_iff hplain).2 huntagged "Two ways:\n".toList _ rfl ?_
    rintro ⟨c, inner, hstarts, hc⟩
    cases hstarts
    exact absurd hc (by decide)
  · have hfence : fence <:+: nestedReply.toList :=
      ⟨"\x7b\",\":[\"".toList, "\x7b\",\":1\x7d```\"],\",\":1\x7d".toList, rfl⟩
    have hwhole : Json.parse nestedReply = .ok (.obj [(",", .int 1)]) := by cbv
    exact (taggedPayload_agrees_iff hnested).1.mpr (.inr (.inr ⟨hfence, hwhole⟩))

end Sitecheck.Generate
