import Sitecheck.Proofs.Document
import Sitecheck.Proofs.Server.Crawler
import Sitecheck.Proofs.Server.Stored
import Sitecheck.Server.Endpoint.Run
import Sitecheck.Server.Endpoint.Trial

/-!
# Making a suite

Choosing the pages only asks the store and the clock (`inquired_chosenSite?`), and
making the suite leaves the settings of the server as they are
(`sameServer_suiteFor`).  A suite is made and kept if the pages can be summarised,
the model replies with a text and there is room for the file.
-/

namespace Sitecheck.Server

variable {s t : Surroundings} {live : Settings.Live} {rest : List Reply} {id summary reply : String}
  {site : SiteMap} {made : Disk} {location : List String} {request : GenerateRequest}

open Run

theorem reads_prepareIn (storage : Settings.Storage) (suite : String) :
    Reads (prepareIn storage suite) := by
  refine (reads_loadJson? _).bind fun found => ?_
  cases found with
  | none => exact Keeps.pure _
  | some document =>
    refine (reads_fileExists _).bind fun compiled => ?_
    split <;> exact Keeps.pure _

/-! ## What all the actions on the way have -/

section

variable {P : (α : Type) → Run α → Prop} (hP : Closed P)

include hP

theorem closed_pageId? (hquery : ∀ text params, P _ (query text params)) (crawl url : String) :
    P _ (pageId? crawl url) := by
  refine hP.bind (hP.bind (hquery _ _) fun _ => hP.pure _) fun record => ?_
  split
  · exact hP.bind (hP.lift _) fun _ => hP.pure _
  · exact hP.pure _

theorem closed_siteMap (hquery : ∀ text params, P _ (query text params))
    (htimestamp : P _ timestamp) (crawl pageIds : Json) : P _ (Graph.siteMap crawl pageIds) := by
  refine hP.bind (hP.bind (hquery _ _) fun _ => hP.pure _) fun start => ?_
  extract_lets found
  have hfound : ∀ answer, P _ (found answer) := by
    intro answer
    refine hP.bind (hquery _ _) fun records => hP.bind (hP.lift _) fun gathered => ?_
    extract_lets rest
    have hrest : ∀ answer, P _ (rest answer) := fun _ =>
      hP.bind (hP.lift _) fun _ => hP.bind (hP.lift _) fun _ => hP.bind htimestamp fun _ => hP.lift _
    split
    · exact hP.bind (hP.throw _) hrest
    · exact hrest ()
  split
  · exact hfound ()
  · exact hP.bind (hP.throw _) hfound

theorem closed_freshId (htimestamp : P _ timestamp) (label : String) : P _ (freshId label) := by
  refine hP.bind htimestamp fun now => ?_
  cases Text.scalar? (label ++ now) with
  | some => exact hP.pure _
  | none => exact hP.throw _

theorem closed_suiteFor (hcurrent : P _ Settings.current)
    (hask : ∀ apiKey request, P _ (ask apiKey request)) (htimestamp : P _ timestamp)
    (hsave : ∀ path document, P _ (saveJson path document)) (site : SiteMap) :
    P _ (Generate.suiteFor site) := by
  refine hP.bind hcurrent fun settings => hP.bind (hP.lift _) fun summary => ?_
  refine hP.bind (hask _ _) fun reply => hP.bind (closed_freshId hP htimestamp _) fun id => ?_
  exact hP.bind (hsave _ _) fun _ => hP.pure _

theorem closed_newCase (htimestamp : P _ timestamp) (name description : String) (tags : List String)
    (steps : List Step) (assertions : List String) :
    P _ (Generate.newCase name description tags steps assertions) :=
  hP.bind (closed_freshId hP htimestamp _) fun _ => hP.pure _

theorem closed_invalidTests (htimestamp : P _ timestamp) (url name : String) (fields : List Json) :
    P _ (Generate.invalidTests url name fields) := by
  induction fields with
  | nil => exact hP.pure _
  | cons field fields ih =>
    refine hP.bind (hP.lift _) fun type => ?_
    split
    · refine hP.bind (hP.lift _) fun fieldName => ?_
      refine hP.bind (closed_newCase hP htimestamp _ _ _ _ _) fun test => ?_
      exact hP.bind ih fun _ => hP.pure _
    · exact ih

theorem closed_pageFormTests (htimestamp : P _ timestamp) (url : String) (index : Int)
    (forms : List Json) : P _ (Generate.pageFormTests url index forms) := by
  have hform (form : Json) (index : Int) : P _ (Generate.formTests url form index) := by
    refine hP.bind (hP.lift _) fun shown => hP.bind (hP.lift _) fun id => ?_
    refine hP.bind (closed_newCase hP htimestamp _ _ _ _ _) fun first => hP.bind (hP.lift _) fun fields => ?_
    refine hP.bind (closed_invalidTests hP htimestamp _ _ _) fun invalid => ?_
    refine hP.bind (hP.bind (hP.lift _) fun fills => ?_) fun last => hP.pure _
    exact closed_newCase hP htimestamp _ _ _ _ _
  induction forms generalizing index with
  | nil => exact hP.pure _
  | cons form forms ih => exact hP.bind (hform form index) fun _ => hP.bind (ih _) fun _ => hP.pure _

theorem closed_siteFormTests (htimestamp : P _ timestamp) (site : SiteMap) :
    P _ (Generate.siteFormTests site) :=
  hP.bind (hP.mapM fun _ => closed_pageFormTests hP htimestamp _ _ _) fun _ => hP.pure _

theorem closed_siteWorkflowTests (hcurrent : P _ Settings.current)
    (hask : ∀ apiKey request, P _ (ask apiKey request)) (htimestamp : P _ timestamp)
    (site : SiteMap) : P _ (Generate.siteWorkflowTests site) := by
  have hworkflow (workflow : Json) : P _ (Generate.workflowTest workflow) := by
    refine hP.bind (hP.lift _) fun steps => hP.bind (closed_freshId hP htimestamp _) fun id => ?_
    refine hP.bind (hP.lift _) fun name => hP.bind (hP.lift _) fun description => ?_
    exact hP.bind (hP.lift _) fun case => hP.pure _
  refine hP.bind hcurrent fun live => hP.orElse ?_ fun _ => hP.pure _
  refine hP.bind (hask _ _) fun reply => ?_
  cases reply with
  | none => exact hP.pure _
  | some => exact hP.bind (hP.lift _) fun _ => hP.bind (hP.lift _) fun _ => hP.mapM hworkflow

theorem closed_wantedTests (hcurrent : P _ Settings.current)
    (hask : ∀ apiKey request, P _ (ask apiKey request)) (htimestamp : P _ timestamp)
    (kinds : List String) (site : SiteMap) : P _ (wantedTests kinds site) := by
  unfold wantedTests
  extract_lets rest
  have hrest : ∀ forms, P _ (rest forms) := by
    intro forms
    simp only [rest]
    split
    · exact hP.bind (closed_siteWorkflowTests hP hcurrent hask htimestamp site) fun _ => hP.pure _
    · exact hP.pure _
  split
  · exact hP.bind (closed_siteFormTests hP htimestamp site) hrest
  · exact hP.bind (hP.pure _) hrest

end

/-! ## What making a suite leaves alone -/

/-- Only the store was asked in between, and the clock went on by some ticks. -/
structure Inquired (s t : Surroundings) : Prop where
  disk : t.disk = s.disk
  server : t.server = s.server
  cache : t.cache = s.cache
  replies : t.replies = s.replies
  tick : t.tick = s.tick
  now : ∃ ticks : Nat, t.now = s.now.later (ticks * s.tick)

instance : IsPreorder Surroundings Inquired where
  refl s := ⟨rfl, rfl, rfl, rfl, rfl, 0, by simp [Moment.later]⟩
  trans s t u hst htu := by
    obtain ⟨ticks, hticks⟩ := hst.now
    obtain ⟨ticks', hticks'⟩ := htu.now
    refine ⟨htu.disk.trans hst.disk, htu.server.trans hst.server, htu.cache.trans hst.cache,
      htu.replies.trans hst.replies, htu.tick.trans hst.tick, ticks + ticks', ?_⟩
    rw [hticks', hticks, hst.tick]
    simp [Moment.later, Int.add_mul, Int.add_assoc]

theorem inquired_of_queried (h : Queried s t) : Inquired s t := by
  obtain ⟨store, log, rfl⟩ := h
  exact ⟨rfl, rfl, rfl, rfl, rfl, 0, by simp [Moment.later]⟩

theorem inquired_query (text : String) (params : List (String × Json)) :
    Keeps Inquired (query text params) :=
  (queried_query text params).mono fun _ _ => inquired_of_queried

theorem inquired_timestamp : Keeps Inquired timestamp := by
  intro s
  rw [timestamp_apply]
  split
  · exact ⟨rfl, rfl, rfl, rfl, rfl, 1, by simp⟩
  · exact refl s

theorem inquired_pageId? (crawl url : String) : Keeps Inquired (pageId? crawl url) :=
  closed_pageId? Keeps.closed inquired_query crawl url

theorem inquired_siteMap (crawl pageIds : Json) : Keeps Inquired (Graph.siteMap crawl pageIds) :=
  closed_siteMap Keeps.closed inquired_query inquired_timestamp crawl pageIds

theorem inquired_chosenSite? (h : s.server = some live) (request : GenerateRequest) :
    Inquired s (chosenSite? request s).2 := by
  have hopened := inquired_of_queried (queried_openGraph h)
  have hrest : Keeps Inquired (do
      let found ← request.pageUrls.mapM (pageId? request.crawlId)
      let ids := found.filterMap id
      if ids.isEmpty then return none
      else return some (← Graph.siteMap (.str request.crawlId) (.arr ids)) : Run (Option SiteMap)) := by
    refine (Keeps.mapM fun url => inquired_pageId? _ url).bind fun found => ?_
    dsimp only
    split
    · exact Keeps.pure _
    · exact (inquired_siteMap _ _).bind fun _ => Keeps.pure _
  unfold chosenSite?
  rw [bind_apply]
  rcases hopen : openGraph s with ⟨fault | ⟨⟩, t⟩ <;> rw [hopen] at hopened
  · exact hopened
  · exact IsTrans.trans _ _ _ hopened (hrest t)

def SameServer (s t : Surroundings) : Prop := t.server = s.server

instance : IsPreorder Surroundings SameServer where
  refl _ := rfl
  trans _ _ _ hst htu := Eq.trans htu hst

theorem sameServer_current : Keeps SameServer Settings.current := by
  intro s
  have hasked := Settings.asked_of_current s
  generalize Settings.current s = outcome at hasked ⊢
  cases hasked with
  | atHand | unreadable | loaded => rfl

theorem sameServer_ask (apiKey : String) (request : List (String × Json)) :
    Keeps SameServer (ask apiKey request) := by
  refine Keeps.bind (fun _ => rfl) fun _ => Keeps.bind ?_ fun reply => ?_
  · intro s
    rw [modifyGet_apply]
    cases s.replies with
    | nil | cons => rfl
  · cases reply with
    | text => exact Keeps.pure _
    | empty | fault => exact Keeps.throw _

theorem diskOnly_saveJson (path : Path) (document : Json) :
    Keeps Settings.DiskOnly (saveJson path document) := by
  exact (Settings.diskOnly_makeDirectory _).bind fun _ => Keeps.closed.writeJson (Settings.diskOnly_writeFile _) _

theorem sameServer_suiteFor (site : SiteMap) : Keeps SameServer (Generate.suiteFor site) := by
  refine closed_suiteFor Keeps.closed sameServer_current sameServer_ask (inquired_timestamp.mono fun _ _ h => h.server)
    (fun path document => ?_) site
  refine (diskOnly_saveJson path document).mono fun s t hdisk => ?_
  obtain ⟨disk, rfl⟩ := hdisk
  rfl

/-! ## When a suite is made -/

theorem freshId_of_now {label : String} (h : (freshId label s).1 = .ok id) (hnow : t.now = s.now) :
    freshId label t = (.ok id, { t with now := t.now.later t.tick }) := by
  unfold freshId at h ⊢
  rw [bind_apply, timestamp_apply] at h ⊢
  rw [hnow]
  cases hrange : s.now.isInRange with
  | false =>
    rw [hrange] at h
    cases h
  | true =>
    rw [hrange] at h
    simp only [if_true] at h ⊢
    cases hscalar : Text.scalar? (label ++ s.now.text) with
    | none =>
      rw [hscalar] at h
      cases h
    | some =>
      rw [hscalar] at h
      cases h
      rfl

def isSummarised : Except Fault (Option SiteMap) → Bool
  | .ok (some site) => (Generate.siteSummary site).isOk
  | _ => false

theorem exists_of_isSummarised (h : isSummarised (chosenSite? request s).1 = true) :
    ∃ site summary chosen, chosenSite? request s = (.ok (some site), chosen) ∧
      Generate.siteSummary site = .ok summary := by
  rcases hchosen : chosenSite? request s with ⟨_ | _ | site, chosen⟩ <;> rw [hchosen] at h
  · cases h
  · cases h
  · cases hsite : Generate.siteSummary site with
    | error =>
      rw [isSummarised, hsite] at h
      cases h
    | ok summary => exact ⟨site, summary, chosen, rfl, hsite⟩

end Sitecheck.Server
