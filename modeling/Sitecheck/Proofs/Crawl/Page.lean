import Sitecheck.Crawl.Site
import Sitecheck.Proofs.Run

/-!
# What storing a page asks of the services

Storing a page goes to one address and asks the graph once to store a page.
All else that is asked on the way is an aside: it goes nowhere and stores no
page.
-/

namespace Sitecheck

variable {s t : Surroundings}

/-! ## Visits and stored pages in the log -/

namespace Event

def isVisit : Event → Bool
  | .visited .. => true
  | _ => false

def pageAdded? : Event → Option String
  | .query text params =>
    if text = Text.collapse Graph.addPageQuery then
      match Fields.get? "url" params with
      | some (.str url) => some url
      | _ => none
    else none
  | _ => none

structure IsAside (event : Event) : Prop where
  noVisit : event.isVisit = false
  noPage : event.pageAdded? = none

/-- An event of which neither the browser nor whoever hears of the progress takes
notice. -/
def isOffstage : Event → Bool
  | .visited .. | .progress .. | .accepted | .sent .. | .closed => false
  | _ => true

def isLease : Event → Bool
  | .storeOpened .. | .storeClosed => true
  | _ => false

structure IsBackstage (event : Event) : Prop where
  offstage : event.isOffstage = true
  noLease : event.isLease = false

structure IsInner (event : Event) : Prop extends IsAside event, IsBackstage event

def isPicture : Event → Bool
  | .screenshot .. => true
  | _ => false

/-- An event of which no trace is left but in the graph. -/
structure IsHidden (event : Event) : Prop extends IsInner event where
  noPicture : event.isPicture = false

end Event

theorem Run.Settled.inner (h : Run.Settled Event.IsHidden s t) : Run.Settled Event.IsInner s t :=
  h.mono fun _ hevent => hevent.toIsInner

theorem Run.Keeps.inner {α : Type} {action : Run α}
    (h : Run.Keeps (Run.Settled Event.IsHidden) action) : Run.Keeps (Run.Settled Event.IsInner) action :=
  h.mono fun _ _ hhidden => hhidden.inner

theorem Run.Settled.aside (h : Run.Settled Event.IsInner s t) : Run.Stays Event.IsAside s t :=
  ⟨h.toGrows.mono fun _ hevent => hevent.toIsAside, h.current⟩

theorem Run.Keeps.aside {α : Type} {action : Run α}
    (h : Run.Keeps (Run.Settled Event.IsInner) action) :
    Run.Keeps (Run.Stays Event.IsAside) action :=
  h.mono fun _ _ hinner => hinner.aside

def visitsIn (log : List Event) : Nat := log.countP Event.isVisit

def pagesAddedIn (log : List Event) : List String := log.filterMap Event.pageAdded?

theorem pagesAddedIn_of_grows (h : Run.Grows (fun event => event.pageAdded? = none) s t) :
    pagesAddedIn t.log = pagesAddedIn s.log := by
  obtain ⟨new, hlog, hnew⟩ := h.log
  have hnone : new.filterMap Event.pageAdded? = [] := List.filterMap_eq_nil_iff.mpr hnew
  rw [pagesAddedIn, hlog, List.filterMap_append, hnone]
  rfl

namespace Graph

variable {text : String} {page : NewPage} {s : Surroundings}

open Run

/-! ## Queries -/

private def pageWord : List Char := ['H', 'A', 'S', '_', 'P', 'A', 'G', 'E']

private def hasPageWord (text : List Char) : Bool :=
  Chars.contains pageWord (Chars.join [' '] (Text.Words.ofChars [] text))

set_option maxRecDepth 10000 in
private theorem hasPageWord_addPageQuery : hasPageWord addPageQuery.toList = true := by
  -- the characters of a literal are found by unification; evaluating `toList` is slow
  obtain ⟨text, htext, h⟩ : ∃ text, addPageQuery.toList = text ∧ hasPageWord text = true :=
    ⟨_, String.toList_ofList, by decide +kernel⟩
  rw [htext, h]

private theorem collapse_ne_addPageQuery {chars : List Char} (htext : text.toList = chars)
    (h : hasPageWord chars = false) :
    Text.collapse text ≠ Text.collapse addPageQuery := by
  intro heq
  have hpage := hasPageWord_addPageQuery
  rw [← htext] at h
  rw [hasPageWord, ← Text.toList_collapse] at h hpage
  rw [heq, hpage] at h
  contradiction

def otherQueries : List String :=
  [addElementQuery, addActionQuery, createCrawlQuery, linkPagesQuery, markCompleteQuery]

set_option maxRecDepth 10000 in
theorem otherQuery_ne {query : String} (h : query ∈ otherQueries) :
    Text.collapse query ≠ Text.collapse addPageQuery := by
  simp only [otherQueries, List.mem_cons, List.not_mem_nil, or_false] at h
  rcases h with rfl | rfl | rfl | rfl | rfl
  all_goals exact collapse_ne_addPageQuery String.toList_ofList (by decide +kernel)

theorem isHidden_query (h : text ∈ otherQueries) (params : List (String × Json)) :
    (Event.query (Text.collapse text) params).IsHidden :=
  ⟨⟨⟨rfl, by simp [Event.pageAdded?, otherQuery_ne h]⟩, ⟨rfl, rfl⟩⟩, rfl⟩

theorem settled_addElement (element : NewElement) :
    Keeps (Settled Event.IsHidden) (addElement element) :=
  (settled_querySingle (isHidden_query (by simp [otherQueries]) _)).bind fun _ => Keeps.lift _

theorem settled_addAction (element action target value : Json) :
    Keeps (Settled Event.IsHidden) (addAction element action target value) :=
  (settled_query (isHidden_query (by simp [otherQueries]) _)).discard

theorem addPage_apply (page : NewPage) (s : Surroundings) :
    addPage page s =
      match Content.ofJson page.content with
      | .error fault => (.error fault, s)
      | .ok content =>
        match query addPageQuery (page.params content) s with
        | (.ok records, t) => ((records.headD .null).member "page_id", t)
        | (.error fault, t) => (.error fault, t) := by
  unfold addPage
  cases Content.ofJson page.content with
  | error => rfl
  | ok content =>
    rcases hquery : query addPageQuery (page.params content) s with ⟨fault | records, t⟩ <;>
      simp [querySingle, bind_apply, hquery]

theorem pagesAddedIn_addPage {url : String} {id : Json} {t : Surroundings}
    (hurl : page.url = .str url) (h : addPage page s = (.ok id, t)) :
    pagesAddedIn t.log = url :: pagesAddedIn s.log := by
  rw [addPage_apply] at h
  cases hcontent : Content.ofJson page.content with
  | error =>
    rw [hcontent] at h
    cases h
  | ok content =>
    rw [hcontent] at h
    have hparam : Fields.get? "url" (page.params content) = some (.str url) := by
      rw [NewPage.params, hurl]
      rfl
    rcases hquery : query addPageQuery (page.params content) s with ⟨fault | records, u⟩
    · simp only [hquery] at h
      cases h
    · simp only [hquery] at h
      obtain ⟨-, rfl⟩ := Prod.mk.inj h
      have hlog : u.log = .query (Text.collapse addPageQuery) (page.params content) :: s.log := by
        simpa [hquery] using query_log addPageQuery (page.params content) s
      simp [pagesAddedIn, hlog, Event.pageAdded?, hparam]

/-! ## An unprepared store -/

private def oneLine (text : List Char) : List Char := Chars.join [' '] (Text.Words.ofChars [] text)

private def idName : List Char := ['p', 'a', 'g', 'e', '_', 'i', 'd']

set_option maxRecDepth 10000 in
private theorem addPageQuery_gives :
    givesIdentifier (Text.collapse addPageQuery) = true ∧
      lastName (Text.collapse addPageQuery) = "page_id" := by
  obtain ⟨text, htext, hgives, hreturn, hlast⟩ : ∃ text, addPageQuery.toList = text ∧
      Chars.contains "randomUUID()".toList (oneLine text) = true ∧
      Chars.contains " RETURN ".toList (oneLine text) = true ∧
      (Chars.splitOn " as ".toList (oneLine text)).getLast? = some idName :=
    ⟨_, String.toList_ofList, by decide +kernel, by decide +kernel, by decide +kernel⟩
  have hcollapse : (Text.collapse addPageQuery).toList = oneLine text := by
    rw [Text.toList_collapse, htext]
    rfl
  constructor
  · simp only [givesIdentifier, Text.contains, hcollapse, hgives, hreturn, Bool.and_self]
  · simp only [lastName, Text.splitOn, hcollapse, List.getLastD_eq_getLast?, List.getLast?_map,
      hlast]
    rfl

theorem addPage_of_unprepared {content : Content}
    (hcontent : Content.ofJson page.content = .ok content) (hreplies : s.store.answers.replies = [])
    (hother : ∀ log, s.store.answers.otherwise? log = none) :
    ∃ id, (addPage page s).1 = .ok id := by
  obtain ⟨hgives, hname⟩ := addPageQuery_gives
  have hquery : ∃ id t, query addPageQuery (page.params content) s =
      (.ok [.obj [("page_id", id)]], t) := by
    unfold query
    rw [bind_of_ok (record_apply _ s), bind_of_ok (get_apply _)]
    simp only [hreplies, takeReply?, hother, identifier, hgives, if_true, hname]
    exact ⟨_, _, rfl⟩
  obtain ⟨id, t, hquery⟩ := hquery
  rw [addPage_apply, hcontent]
  simp only [hquery]
  exact ⟨id, rfl⟩

theorem settled_addPage (page : NewPage) :
    Keeps (Settled Event.IsBackstage) (addPage page) := by
  refine (Keeps.lift _).bind fun content => ?_
  have hask : Keeps (Settled Event.IsBackstage)
      (querySingle addPageQuery (page.params content)) := settled_querySingle ⟨rfl, rfl⟩
  exact hask.bind fun record => Keeps.lift _

end Graph

namespace Crawl.Crawler

open Run

/-! ## Asides -/

theorem settled_picturePath (crawler : Crawler) (crawl : Json) (url : String) :
    Keeps (Settled Event.IsHidden) (crawler.picturePath crawl url) := by
  refine (Keeps.lift _).bind fun name => ?_
  split
  · exact (settled_makeDirectory _).bind fun _ => Keeps.pure _
  · exact Keeps.throw _

theorem settled_picture (crawler : Crawler) (crawl : Json) (url : String) :
    Keeps (Settled Event.IsInner) (crawler.picture crawl url) := by
  unfold picture
  split
  · refine (settled_picturePath crawler crawl url).inner.attempt.bind fun result => ?_
    cases result with
    | error => exact Keeps.pure _
    | ok =>
      refine Keeps.bind (Keeps.attempt ?_) fun _ => Keeps.pure _
      exact settled_takeScreenshot ⟨⟨rfl, rfl⟩, ⟨rfl, rfl⟩⟩
  · exact Keeps.pure _

theorem settled_vector (generator : Embedding.Generator) (text : String) :
    Keeps (Settled Event.IsHidden) (generator.vector text) := by
  cases generator with
  | digest => exact Keeps.pure _
  | remote =>
    simp only [Embedding.Generator.vector]
    split
    · exact Keeps.pure _
    · refine Keeps.orElse ?_ fun _ => Keeps.pure _
      refine (settled_embed ⟨⟨⟨rfl, rfl⟩, ⟨rfl, rfl⟩⟩, rfl⟩).bind fun values => ?_
      exact (Keeps.lift _).bind fun _ => Keeps.pure _

theorem settled_embedding (crawler : Crawler) (content : Option Analyze.Content) :
    Keeps (Settled Event.IsHidden) (crawler.embedding content) := by
  unfold embedding
  split
  · split
    · exact Keeps.pure _
    · exact settled_vector _ _
  · exact Keeps.pure _

theorem settled_readPage (crawler : Crawler) (crawl : Json) (url : String) (depth : Json) :
    Keeps (Settled Event.IsInner) (crawler.readPage crawl url depth) := by
  refine Keeps.currentPage.bind fun shown => ?_
  refine (settled_embedding crawler _).inner.bind fun vector => ?_
  exact (settled_picture crawler crawl url).bind fun _ => Keeps.pure _

theorem neverFails_vector (generator : Embedding.Generator) (text : String) :
    NeverFails (generator.vector text) := by
  cases generator with
  | digest => exact NeverFails.pure _
  | remote =>
    simp only [Embedding.Generator.vector]
    split
    · exact NeverFails.pure _
    · exact NeverFails.orElse fun _ => NeverFails.pure _

theorem neverFails_embedding (crawler : Crawler) (content : Option Analyze.Content) :
    NeverFails (crawler.embedding content) := by
  unfold embedding
  split
  · split
    · exact NeverFails.pure _
    · exact neverFails_vector _ _
  · exact NeverFails.pure _

theorem neverFails_picture (crawler : Crawler) (crawl : Json) (url : String) :
    NeverFails (crawler.picture crawl url) := by
  unfold picture
  split
  · refine (NeverFails.attempt _).bind fun result => ?_
    cases result with
    | error => exact NeverFails.pure _
    | ok => exact (NeverFails.attempt _).bind fun _ => NeverFails.pure _
  · exact NeverFails.pure _

theorem readPage_apply (crawler : Crawler) (crawl : Json) (url : String) (depth : Json)
    (s : Surroundings) :
    ∃ new length t, crawler.readPage crawl url depth s = (.ok (new, length), t) ∧
      new.url = .str url ∧ (crawler.isSimple = true → new.content = .null) ∧
      Settled Event.IsInner s t := by
  have hsettled := settled_readPage crawler crawl url depth s
  unfold readPage at hsettled ⊢
  have hshown : currentPage s = (.ok s.browser.current, s) := rfl
  rw [bind_of_ok hshown] at hsettled ⊢
  obtain ⟨vector, t, hvector⟩ := neverFails_embedding crawler
    (if crawler.isSimple then none else some (Analyze.content s.browser.current)) s
  rw [bind_of_ok hvector] at hsettled ⊢
  obtain ⟨screenshot, u, hpicture⟩ := neverFails_picture crawler crawl url t
  rw [bind_of_ok hpicture] at hsettled ⊢
  refine ⟨_, _, u, rfl, rfl, ?_, hsettled⟩
  intro hsimple
  simp [hsimple]

theorem settled_addLink (page link : Json) : Keeps (Settled Event.IsHidden) (addLink page link) :=
  (Keeps.lift _).bind fun element => (Graph.settled_addElement element).discard

theorem settled_addLinks (page : Json) : Keeps (Settled Event.IsHidden) (addLinks page) := by
  refine Keeps.currentPage.bind fun shown => ?_
  refine (Keeps.lift _).bind fun links => (Keeps.lift _).bind fun buttons => ?_
  refine (Keeps.lift _).bind fun linkCount => (Keeps.lift _).bind fun buttonCount => ?_
  refine Keeps.forM fun position => (Keeps.lift _).bind fun link => ?_
  exact (settled_addLink page link).attempt.discard

theorem settled_addActions (element : Element) (id : Json) :
    Keeps (Settled Event.IsHidden) (addActions element id) := by
  unfold addActions
  split
  · exact Graph.settled_addAction _ _ _ _
  · exact Keeps.pure _

theorem settled_addElements (page : Json) : Keeps (Settled Event.IsHidden) (addElements page) := by
  refine Keeps.currentPage.bind fun shown => ?_
  refine (Keeps.lift _).bind fun elements => Keeps.forM fun element => ?_
  refine Keeps.discard (Keeps.attempt ?_)
  exact (Graph.settled_addElement _).bind fun id => settled_addActions element id

theorem settled_storeElements (crawler : Crawler) (id : Json) :
    Keeps (Settled Event.IsHidden) (if crawler.isSimple then addLinks id else addElements id) := by
  split
  · exact settled_addLinks id
  · exact settled_addElements id

theorem settled_pause (crawler : Crawler) : Keeps (Settled Event.IsHidden) crawler.pause := by
  unfold pause
  dsimp only
  split
  · exact Keeps.throw _
  · split
    · exact (Keeps.lift _).bind fun _ => settled_sleep ⟨⟨⟨rfl, rfl⟩, ⟨rfl, rfl⟩⟩, rfl⟩
    · exact Keeps.pure _

end Crawl.Crawler

end Sitecheck
