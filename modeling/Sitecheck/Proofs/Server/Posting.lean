import Sitecheck.Proofs.Schema
import Sitecheck.Proofs.Server.Crawler
import Sitecheck.Proofs.Settings.Change
import Sitecheck.Server.Session

/-!
# Requests for other crawl settings

What comes of a request whose body is accepted: the new values are the server's own
from then on.  If the settings file takes them up, the answer tells so and no settings
are at hand any more; if it does not, the request fails and all else is as before.
-/

namespace Sitecheck.Server

open Run

variable {s t : Surroundings} {live : Settings.Live} {request : Request} {change : CrawlChange}
variable {s : Surroundings} {value : Json}

/-! ## Answers -/

def answerTo (label : String) : Except Fault (Except Refusal Json) → Answer
  | .ok (.ok value) => .ofValue value
  | .ok (.error refusal) => .ofRefusal refusal none
  | .error fault => .ofRefusal ⟨500, label ++ fault.text⟩ (some fault)

theorem answer_apply (label : String) (endpoint : Endpoint) (s : Surroundings) :
    answer label endpoint s = (.ok (answerTo label (endpoint s).1), (endpoint s).2) := by
  unfold answer
  rw [bind_of_ok (attempt_apply endpoint s)]
  rcases (endpoint s).1 with fault | (refusal | value) <;> rfl

theorem status_of_fault (label : String) (fault : Fault) :
    (answerTo label (.error fault)).status = 500 := by
  simp only [answerTo, Answer.ofRefusal, Answer.detail, Answer.sent]
  split <;> rfl

/-! ## Accepted requests -/

/-- The body of a request to change the settings can be read as a change. -/
structure Accepted (request : Request) (change : CrawlChange) : Prop where
  route : Routing.ofRequest request.method request.path = .found .changeSettings
  body : ∃ document, bodyValue request.body = .ok document ∧
    Schema.record CrawlChange.ofFields document = .value change

theorem Accepted.unique {change' : CrawlChange} (h : Accepted request change)
    (h' : Accepted request change') : change = change' := by
  obtain ⟨document, hbody, hread⟩ := h.body
  obtain ⟨document', hbody', hread'⟩ := h'.body
  obtain rfl : document = document' := Except.ok.inj (hbody.symm.trans hbody')
  exact Schema.Outcome.value.inj (hread.symm.trans hread')

def changeLabel : String := "Failed to update crawler config: "

theorem respond_of_accepted (h : Accepted request change) (s : Surroundings) :
    respond request s =
      (.ok (answerTo changeLabel (changeSettings change s).1), (changeSettings change s).2) := by
  obtain ⟨document, hbody, hread⟩ := h.body
  have hunder : (Schema.record CrawlChange.ofFields document).under (.key "body") = .value change :=
    Schema.Outcome.under_eq_value_iff.mpr hread
  rw [respond, h.route]
  simp only [onRoute, withBody, hbody]
  cases document with
  | null => cases hread
  | _ =>
    rw [hunder]
    exact answer_apply changeLabel (changeSettings change) s

theorem status_detail {status : Nat} (h : status ≠ 200) (detail : Json) (cause : Option Fault) :
    (Answer.detail status detail cause).status ≠ 200 := by
  simp only [Answer.detail, Answer.sent]
  split
  · exact h
  · decide

/-- What the body of a request is read as, if it can be read. -/
def bodyOf? {α : Type} (read : List (String × Json) → Schema.Outcome α) (request : Request) : Option α :=
  match bodyValue request.body with
  | .error _ => none
  | .ok document =>
    match Schema.record read document with
    | .value value => some value
    | _ => none

theorem bodyOf?_eq_some_iff {α : Type} {read : List (String × Json) → Schema.Outcome α} {value : α} :
    bodyOf? read request = some value ↔ ∃ document, bodyValue request.body = .ok document ∧
      Schema.record read document = .value value := by
  unfold bodyOf?
  cases bodyValue request.body with
  | error => simp
  | ok document => cases hread : Schema.record read document <;> simp [hread]

theorem withBody_cases {α : Type} (read : List (String × Json) → Schema.Outcome α) (request : Request)
    (next : α → Run Answer) :
    (∃ value, bodyOf? read request = some value ∧ withBody read request next = next value) ∨
      ∃ answer, bodyOf? read request = none ∧ withBody read request next = pure answer ∧
        answer.status ≠ 200 := by
  unfold bodyOf?
  cases hbody : bodyValue request.body with
  | error =>
    refine .inr ?_
    unfold withBody
    rw [hbody]
    dsimp only
    split
    · refine ⟨_, rfl, rfl, ?_⟩
      unfold noDocument
      split
      · exact status_detail (by decide) _ _
      · decide
    · exact ⟨_, rfl, rfl, status_detail (by decide) _ _⟩
    · next hok => cases hok
  | ok document =>
    unfold withBody
    rw [hbody]
    cases document with
    | null => exact .inr ⟨_, rfl, rfl, status_detail (by decide) _ _⟩
    | _ =>
      dsimp only
      generalize Schema.record read _ = outcome
      cases outcome with
      | value value => exact .inl ⟨value, rfl, rfl⟩
      | issues => exact .inr ⟨_, rfl, rfl, status_detail (by decide) _ _⟩
      | fault => exact .inr ⟨_, rfl, rfl, show 500 ≠ 200 by decide⟩

theorem respond_cases (hroute : Routing.ofRequest request.method request.path = .found .changeSettings)
    (s : Surroundings) :
    (∃ change, Accepted request change) ∨
      ∃ answer, respond request s = (.ok answer, s) ∧ answer.status ≠ 200 := by
  rcases withBody_cases CrawlChange.ofFields request
    (fun body => answer changeLabel (changeSettings body)) with
    ⟨change, hbody, -⟩ | ⟨answer, -, hanswer, hstatus⟩
  · exact .inl ⟨change, hroute, bodyOf?_eq_some_iff.mp hbody⟩
  · refine .inr ⟨answer, ?_, hstatus⟩
    rw [respond, hroute]
    exact congrFun hanswer s

def CrawlChange.fields (change : CrawlChange) : List (String × Json) :=
  [("max_depth", .int change.maxDepth), ("max_pages", .int change.maxPages),
    ("timeout", .int change.timeout), ("screenshot", .bool change.screenshot),
    ("page_delay_ms", .int change.pageDelay), ("skip_embeddings", .bool change.skipEmbeddings)]

def changedNames : List String :=
  ["max_depth", "max_pages", "timeout", "screenshot", "page_delay_ms", "skip_embeddings"]

theorem nodup_fields (change : CrawlChange) : (change.fields.map Prod.fst).Nodup :=
  (by decide : changedNames.Nodup)

/-- No value of the request has too many digits to be written. -/
structure CrawlChange.Writable (change : CrawlChange) : Prop where
  maxDepth : Json.isUnwritable change.maxDepth = false
  maxPages : Json.isUnwritable change.maxPages = false
  timeout : Json.isUnwritable change.timeout = false
  pageDelay : Json.isUnwritable change.pageDelay = false

theorem kept_fields (h : change.Writable) (levels : Nat) :
    ∀ field ∈ change.fields, Text.reread field.1 = field.1 ∧ Json.Kept levels field.2 := by
  have hkept (n : Int) (hn : Json.isUnwritable n = false) : Json.Kept levels (.int n) :=
    ⟨.int hn, rfl⟩
  have hbool (b : Bool) : Json.Kept levels (.bool b) := ⟨.bool b, rfl⟩
  simp only [CrawlChange.fields, List.forall_mem_cons]
  exact ⟨⟨by decide, hkept _ h.maxDepth⟩, ⟨by decide, hkept _ h.maxPages⟩,
    ⟨by decide, hkept _ h.timeout⟩, ⟨by decide, hbool _⟩, ⟨by decide, hkept _ h.pageDelay⟩,
    ⟨by decide, hbool _⟩, by simp⟩

theorem writes_fields (h : change.Writable) : ∀ field ∈ change.fields, Json.Writes field.2 :=
  fun field hfield => (kept_fields h 0 field hfield).2.bounded.writes

theorem kept_toJson (h : change.Writable) (levels : Nat) : Json.Kept (levels + 1) change.toJson :=
  Json.kept_obj_iff.mpr ⟨nodup_fields change, kept_fields h levels⟩

def successReply : Json :=
  .obj [("status", .str "success"), ("message", .str "Crawler configuration updated")]

theorem changeSettings_of_takes {fields : List (String × Json)} (hserver : s.server = some live)
    (h : Settings.Takes s.disk "crawler" fields) {change : CrawlChange} (hwritable : change.Writable) :
    ∃ location found, s.disk.place Settings.filePath = .ok location ∧
      s.disk.entry? location = some (.file found) ∧
      changeSettings change s = (.ok (.ok successReply),
        { s with
          server := some { live with crawl := requestedCrawl live.crawl change }
          cache := .empty
          disk := s.disk.put location (.file (Settings.textAfter "crawler" change.fields fields)) }) := by
  obtain ⟨location, found, hplace, hentry, hrewrite⟩ := Settings.rewriteFile_of_takes
    (s := { s with server := some { live with crawl := requestedCrawl live.crawl change } }) h
    (writes_fields hwritable)
  refine ⟨location, found, hplace, hentry, ?_⟩
  unfold changeSettings
  rw [bind_of_ok (settings_of_server hserver), bind_of_ok (setCrawl_of_server hserver _)]
  have hchange : Settings.change (.obj [("crawler", change.toJson)])
      { s with server := some { live with crawl := requestedCrawl live.crawl change } } =
      (.ok (), _) := bind_of_ok hrewrite
  rw [bind_of_ok hchange]
  rfl

theorem changeSettings_of_not_takes (hserver : s.server = some live)
    (h : ∀ fields, ¬ Settings.Takes s.disk "crawler" fields) (change : CrawlChange) :
    ∃ fault, changeSettings change s = (.error fault,
      { s with server := some { live with crawl := requestedCrawl live.crawl change } }) := by
  obtain ⟨fault, hrewrite⟩ := Settings.rewriteFile_of_not_takes
    (s := { s with server := some { live with crawl := requestedCrawl live.crawl change } }) h
    change.fields
  refine ⟨fault, ?_⟩
  unfold changeSettings
  rw [bind_of_ok (settings_of_server hserver), bind_of_ok (setCrawl_of_server hserver _)]
  exact bind_of_error (bind_of_error hrewrite)

theorem status_of_change (hserver : s.server = some live) (hwritable : change.Writable) :
    let answer := answerTo changeLabel (changeSettings change s).1
    (answer.status = 500 ↔ ∀ fields, ¬ Settings.Takes s.disk "crawler" fields) ∧
      (answer.status = 200 ↔ ∃ fields, Settings.Takes s.disk "crawler" fields) := by
  by_cases htakes : ∃ fields, Settings.Takes s.disk "crawler" fields
  · obtain ⟨fields, htakes⟩ := htakes
    obtain ⟨location, found, -, -, hchange⟩ := changeSettings_of_takes hserver htakes hwritable
    rw [hchange]
    have hstatus : (answerTo changeLabel (.ok (.ok successReply))).status = 200 := rfl
    exact ⟨⟨fun h => by simp [hstatus] at h, fun h => absurd htakes (h fields)⟩,
      fun _ => ⟨fields, htakes⟩, fun _ => hstatus⟩
  · obtain ⟨fault, hchange⟩ := changeSettings_of_not_takes hserver (not_exists.mp htakes) change
    have hstatus := status_of_fault changeLabel fault
    rw [hchange]
    exact ⟨⟨fun _ => not_exists.mp htakes, fun _ => hstatus⟩,
      fun h => by simp [hstatus] at h, fun h => absurd h htakes⟩

/-! ## The next crawler -/

theorem neverFails_generator? : NeverFails generator? := by
  refine (NeverFails.attempt _).bind fun result => ?_
  cases result with
  | ok | error => exact NeverFails.pure _

theorem newCrawler_of_current {u : Surroundings} (hopen : openGraph s = (.ok (), u))
    (hcurrent : Settings.current u = (.ok live, t)) (notify : Option (Json → Run Unit)) :
    ∃ generator, newCrawler notify s = (.ok ⟨live, generator, notify⟩, t) := by
  obtain ⟨generator, v, hgenerator⟩ := neverFails_generator? u
  obtain rfl : u = v := consults_generator?.reads.of_eq hgenerator
  refine ⟨generator, ?_⟩
  unfold newCrawler
  rw [bind_of_ok hopen, bind_of_ok hgenerator, bind_of_ok hcurrent]
  rfl

theorem query_of_obliging (h : s.store = Crawl.Crawler.obliging) (text : String)
    (params : List (String × Json)) :
    ∃ records t, query text params s = (.ok records, t) ∧ t.store = Crawl.Crawler.obliging := by
  unfold query
  rw [bind_of_ok (record_apply _ s), bind_of_ok (get_apply _)]
  simp only [h, Crawl.Crawler.obliging, takeReply?]
  exact ⟨_, _, rfl, rfl⟩

theorem queries_of_obliging (h : s.store = Crawl.Crawler.obliging) (texts : List String) :
    ∃ t, (texts.forM fun text => discard (Run.query text []) : Run PUnit) s = (.ok ⟨⟩, t) := by
  induction texts generalizing s with
  | nil => exact ⟨s, rfl⟩
  | cons text texts ih =>
    obtain ⟨records, t, hquery, hstore⟩ := query_of_obliging h text []
    obtain ⟨u, hrest⟩ := ih hstore
    have hdiscard : (discard (Run.query text []) : Run PUnit) s = (.ok ⟨⟩, t) := by
      rw [discard_apply, hquery]
      rfl
    exact ⟨u, (bind_of_ok hdiscard).trans hrest⟩

theorem connect_of_obliging (h : s.store = Crawl.Crawler.obliging) (store : Settings.GraphStore) :
    ∃ t, Graph.connect store s = (.ok (), t) := by
  have hopen : ∃ t, openStore store.uri store.user store.password s = (.ok (), t) ∧
      t.store = Crawl.Crawler.obliging := by
    unfold openStore
    rw [bind_of_ok (record_apply _ s), bind_of_ok (get_apply _)]
    simp only [h, Crawl.Crawler.obliging]
    exact ⟨_, rfl, rfl⟩
  obtain ⟨t, hopen, hstore⟩ := hopen
  obtain ⟨u, hqueries⟩ := queries_of_obliging hstore Graph.constraints
  exact ⟨u, (bind_of_ok hopen).trans hqueries⟩

theorem openGraph_of_obliging (hserver : s.server = some live)
    (hstore : s.store = Crawl.Crawler.obliging) : ∃ t, openGraph s = (.ok (), t) := by
  obtain ⟨t, hconnect⟩ := connect_of_obliging hstore live.base.graphStore
  exact ⟨t, (bind_of_ok (settings_of_server hserver)).trans hconnect⟩

/-! ## Showing the settings -/

theorem respond_of_settings (hroute : Routing.ofRequest request.method request.path = .found .settings)
    (hserver : s.server = some live) :
    respond request s = (.ok (.ofValue (crawlSettings live.crawl)), s) := by
  have hshow : showSettings s = (.ok (.ok (crawlSettings live.crawl)), s) := by
    unfold showSettings
    rw [bind_of_ok (settings_of_server hserver)]
    rfl
  rw [respond, hroute]
  refine (answer_apply "Failed to get crawler config: " showSettings s).trans ?_
  rw [hshow]
  rfl

theorem ofValue_requestedCrawl (crawl : Settings.LiveCrawl) (change : CrawlChange) :
    Answer.ofValue (crawlSettings (requestedCrawl crawl change)) =
      ⟨200, .json change.toJson, none, none⟩ := rfl

theorem withoutInternal_eq_int_iff {n : Int} :
    Answer.withoutInternal value = .int n ↔ value = .int n := by
  cases value <;> simp [Answer.withoutInternal]

theorem withoutInternal_eq_bool_iff {b : Bool} :
    Answer.withoutInternal value = .bool b ↔ value = .bool b := by
  cases value <;> simp [Answer.withoutInternal]

theorem eq_of_ofValue {shown : Body} (h : Answer.ofValue value = ⟨200, shown, none, none⟩) :
    shown = .json (Answer.withoutInternal value) := by
  simp only [Answer.ofValue, Answer.sent, Answer.ofRaised] at h
  split at h
  · split at h
    · cases h
      rfl
    · cases h
  · cases h

theorem ofValue_eq_iff (crawl : Settings.LiveCrawl) (change : CrawlChange) :
    Answer.ofValue (crawlSettings (requestedCrawl crawl change)) = .ofValue (crawlSettings crawl) ↔
      requestedCrawl crawl change = crawl := by
  constructor
  · intro h
    rw [ofValue_requestedCrawl] at h
    have hinner : Answer.withoutInternal (crawlSettings crawl) =
        .obj [("max_depth", Answer.withoutInternal crawl.maxDepth),
          ("max_pages", Answer.withoutInternal crawl.maxPages),
          ("timeout", Answer.withoutInternal crawl.timeout),
          ("screenshot", Answer.withoutInternal crawl.screenshot),
          ("page_delay_ms", Answer.withoutInternal crawl.pageDelay),
          ("skip_embeddings", Answer.withoutInternal crawl.skipEmbeddings)] := rfl
    have hshown := eq_of_ofValue h.symm
    rw [hinner, CrawlChange.toJson] at hshown
    simp only [Body.json.injEq, Json.obj.injEq, List.cons.injEq, Prod.mk.injEq, true_and, and_true,
      eq_comm (b := Answer.withoutInternal _), withoutInternal_eq_int_iff,
      withoutInternal_eq_bool_iff] at hshown
    obtain ⟨hdepth, hpages, htimeout, hscreenshot, hdelay, hskip⟩ := hshown
    simp [requestedCrawl, ← hdepth, ← hpages, ← htimeout, ← hscreenshot, ← hdelay, ← hskip]
  · intro h
    rw [h]

/-! ## A request for five pages -/

def fivePages : CrawlChange := ⟨1, 5, 1000, true, 0, true⟩

def fivePagesRequest : Request := ⟨"POST", "/config/crawler", "", fivePages.toJson.pretty⟩

def showRequest : Request := ⟨"GET", "/config/crawler", "", ""⟩

theorem accepted_fivePages : Accepted fivePagesRequest fivePages where
  route := by with_unfolding_all rfl
  body := by
    have hwritable : fivePages.Writable :=
      ⟨by decide +kernel, by decide +kernel, by decide +kernel, by decide +kernel⟩
    have hparse : Json.parse fivePages.toJson.pretty = .ok fivePages.toJson :=
      (kept_toJson hwritable _).parse_pretty
    have hdocument : Text.document? fivePages.toJson.pretty = some fivePages.toJson.pretty := by
      decide +kernel
    have hbody : (fivePages.toJson.pretty == "") = false := by decide +kernel
    refine ⟨fivePages.toJson, ?_, rfl⟩
    rw [bodyValue, fivePagesRequest]
    simp only [hbody, Bool.false_eq_true, if_false, hdocument, hparse]

end Sitecheck.Server
