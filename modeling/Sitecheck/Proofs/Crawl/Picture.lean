import Sitecheck.Proofs.Crawl.Course
import Sitecheck.Proofs.Path

/-!
# Pictures of pages

The name of a picture comes from the address of its page and is not the only one of its
kind: addresses that differ in their hosts, or by a slash for an underscore, share a name.
A page is stored with the path of its picture as soon as the picture is tried.  So a page
keeps a picture of its own exactly if one was taken, and none has been taken since of
another page whose picture has the same name (`own_picture_iff`).
-/

namespace Sitecheck

variable {new : List Event}

/-! ## Pictures in the log -/

/-- The address and the page that the browser was last sent to, if it got there. -/
def shownIn (web : Web) : List Event → Option (String × WebPage)
  | [] => none
  | event :: log =>
    match event with
    | .visited url .. => (web.page? (event :: log) url).map fun page => (url, page)
    | _ => shownIn web log

/-- A picture that was asked for: where it is kept, the address of the page that was shown,
and whether it could be taken. -/
structure Shot where
  path : String
  url : String
  taken : Bool
  deriving DecidableEq

def Event.shot? (web : Web) (log : List Event) : Event → Option Shot
  | .screenshot path _ => (shownIn web log).map fun (url, page) =>
    ⟨path, url, (answerUnless page.faults "screenshot" ()).isOk⟩
  | _ => none

def shotsIn (web : Web) (old : List Event) : (new : List Event) → List Shot
  | [] => []
  | event :: new => (event.shot? web (new ++ old)).toList ++ shotsIn web old new

/-- The address of a page that the graph is asked to store, and the path of its picture. -/
def Event.illustrated? : Event → Option (String × String)
  | .query text params =>
    if text = Text.collapse Graph.addPageQuery then
      match Fields.get? "url" params, Fields.get? "screenshot_path" params with
      | some (.str url), some (.str path) => some (url, path)
      | _, _ => none
    else none
  | _ => none

structure Event.IsPlain (event : Event) : Prop where
  noPicture : event.isPicture = false
  noPage : event.illustrated? = none

def pictureAt? (shots : List Shot) (path : String) : Option String :=
  ((shots.filter (·.taken)).find? fun shot => shot.path == path).map (·.url)

theorem shotsIn_append (web : Web) (old first second : List Event) :
    shotsIn web old (second ++ first) =
      shotsIn web (first ++ old) second ++ shotsIn web old first := by
  induction second with
  | nil => rfl
  | cons event second ih => simp [shotsIn, ih]

theorem shotsIn_of_noPicture (h : ∀ event ∈ new, event.isPicture = false) (web : Web)
    (old : List Event) : shotsIn web old new = [] := by
  induction new with
  | nil => rfl
  | cons event new ih =>
    have hevent : event.shot? web (new ++ old) = none := by
      cases event with
      | screenshot => exact absurd (h _ List.mem_cons_self) (by simp [Event.isPicture])
      | _ => rfl
    rw [shotsIn, hevent, ih fun event hmem => h event (List.mem_cons_of_mem _ hmem)]
    rfl

theorem shownIn_of_noVisit (h : ∀ event ∈ new, event.isVisit = false) (web : Web)
    (old : List Event) : shownIn web (new ++ old) = shownIn web old := by
  induction new with
  | nil => rfl
  | cons event new ih =>
    have hrest := ih fun event hmem => h event (List.mem_cons_of_mem _ hmem)
    cases event with
    | visited =>
      exact absurd (h _ List.mem_cons_self) (by simp [Event.isVisit])
    | _ => exact hrest

theorem Event.illustrated?_of_noPage {event : Event} (h : event.pageAdded? = none) :
    event.illustrated? = none := by
  cases event with
  | query text =>
    by_cases htext : text = Text.collapse Graph.addPageQuery
    · rw [pageAdded?, if_pos htext] at h
      rw [illustrated?, if_pos htext]
      split
      · next hurl _ => simp [hurl] at h
      · rfl
    · rw [illustrated?, if_neg htext]
  | _ => rfl

namespace Crawl.Crawler

open Run

variable {crawler : Crawler} {crawl : Json} {url : String} {s t u : Surroundings}
variable {other path : String} {shots : List Shot} {new : Graph.NewPage} {event : Event}

/-! ## Where pictures are kept -/

def pictureText? (crawler : Crawler) (crawl : Json) (url : String) : Option String :=
  match crawl, pictureName url with
  | .str crawl, .ok name =>
    let start := (Path.ofText crawler.settings.base.storage.artifacts).join "screenshots"
    some ((start.join crawl).join name).text
  | _, _ => none

theorem isName_png (text : String) : Path.IsName (FileName.ofText text ++ ".png") := by
  have hslash : '/' ∉ (FileName.ofText text).toList := FileName.not_mem_ofText (by decide) text
  have hpng : ".png".length = 4 := by decide
  refine ⟨by simpa using hslash, Path.isPart_of_length ?_⟩
  rw [String.length_append, hpng]
  omega

theorem isName_of_pictureName {name : String} (h : pictureName url = .ok name) :
    Path.IsName name := by
  unfold pictureName at h
  cases hsplit : Url.Split.ofText url with
  | error =>
    rw [hsplit] at h
    cases h
  | ok =>
    rw [hsplit] at h
    rw [← Except.ok.inj h]
    exact isName_png _

theorem pictureText?_eq_iff {path' : String} (h : crawler.pictureText? crawl url = some path)
    (h' : crawler.pictureText? crawl other = some path') :
    path = path' ↔ (pictureName url).toOption = (pictureName other).toOption := by
  unfold pictureText? at h h'
  cases crawl with
  | str =>
    cases hname : pictureName url with
    | error => simp [hname] at h
    | ok =>
      cases hname' : pictureName other with
      | error => simp [hname'] at h'
      | ok =>
        simp only [hname, hname', Option.some.injEq] at h h'
        subst h h'
        rw [Path.text_join_inj _ (isName_of_pictureName hname) (isName_of_pictureName hname')]
        simp [Except.toOption]
  | _ => simp at h

theorem pictureText?_of_picturePath {path : Path}
    (h : crawler.picturePath crawl url s = (.ok path, t)) :
    crawler.pictureText? crawl url = some path.text := by
  obtain ⟨name, _, hname, h⟩ := exists_of_bind_ok h
  have hname : pictureName url = .ok name := congrArg Prod.fst hname
  unfold pictureText?
  cases crawl with
  | str =>
    obtain ⟨_, _, -, h⟩ := exists_of_bind_ok h
    cases h
    rw [hname]
  | _ => cases h

/-! ## What a crawl does about pictures -/

/-- Every picture was asked for while a page was shown, by the path for its address.  Pages
are stored with the paths of pictures that were asked for; with all of them, if nothing but
links is read off the pages. -/
structure Pictured (crawler : Crawler) (crawl : Json) (shots : List Shot)
    (new : List Event) : Prop where
  all : shots.length = new.countP Event.isPicture
  own : ∀ shot ∈ shots, crawler.pictureText? crawl shot.url = some shot.path
  tried : (new.filterMap Event.illustrated?).Sublist (shots.map fun shot => (shot.url, shot.path))
  stored : crawler.isSimple = true →
    new.filterMap Event.illustrated? = shots.map fun shot => (shot.url, shot.path)

theorem Pictured.append {shots' : List Shot} {new new' : List Event}
    (h' : crawler.Pictured crawl shots' new') (h : crawler.Pictured crawl shots new) :
    crawler.Pictured crawl (shots' ++ shots) (new' ++ new) := by
  refine ⟨by simp [h.all, h'.all], ?_, ?_, fun hsimple => ?_⟩
  · intro shot hshot
    rcases List.mem_append.mp hshot with hshot | hshot
    · exact h'.own shot hshot
    · exact h.own shot hshot
  · rw [List.filterMap_append, List.map_append]
    exact h'.tried.append h.tried
  · rw [List.filterMap_append, List.map_append, h'.stored hsimple, h.stored hsimple]

/-- The same pages can be loaded, and the new events are as pictured. -/
structure Framed (crawler : Crawler) (crawl : Json) (s t : Surroundings) : Prop where
  web : t.browser.web = s.browser.web
  log : ∃ new, t.log = new ++ s.log ∧
    crawler.Pictured crawl (shotsIn s.browser.web s.log new) new

theorem Framed.of_plain (crawler : Crawler) (crawl : Json)
    (hweb : t.browser.web = s.browser.web) (hlog : Logs Event.IsPlain s t) :
    crawler.Framed crawl s t := by
  obtain ⟨new, hlog, hnew⟩ := hlog
  refine ⟨hweb, new, hlog, ?_⟩
  have hnone : new.filterMap Event.illustrated? = [] := List.filterMap_eq_nil_iff.mpr
    fun event hevent => (hnew event hevent).noPage
  rw [shotsIn_of_noPicture fun event hevent => (hnew event hevent).noPicture]
  refine ⟨?_, by simp, by simp [hnone], fun _ => hnone⟩
  rw [eq_comm, List.length_nil, List.countP_eq_zero]
  exact fun event hevent => by simp [(hnew event hevent).noPicture]

theorem Framed.of_hidden (crawler : Crawler) (crawl : Json) (h : Settled Event.IsHidden s t) :
    crawler.Framed crawl s t :=
  .of_plain crawler crawl h.web (Logs.mono h.log fun _ hevent =>
    ⟨hevent.noPicture, Event.illustrated?_of_noPage hevent.noPage⟩)

instance (crawler : Crawler) (crawl : Json) : IsPreorder Surroundings (crawler.Framed crawl) where
  refl s := .of_plain crawler crawl rfl (refl s)
  trans s t u hst htu := by
    obtain ⟨first, hfirst, hpictured⟩ := hst.log
    obtain ⟨second, hsecond, hpictured'⟩ := htu.log
    refine ⟨htu.web.trans hst.web, second ++ first, by rw [hsecond, hfirst, List.append_assoc], ?_⟩
    rw [shotsIn_append, ← hfirst, ← hst.web]
    exact hpictured'.append (hst.web ▸ hpictured)

def HearsOnly (crawler : Crawler) : Prop :=
  ∀ notify, crawler.notify = some notify → ∀ update, Keeps (Grows Event.IsPlain) (notify update)

theorem HearsOnly.framed_report (h : crawler.HearsOnly) (crawl : Json)
    (update : List (String × Json)) : Keeps (crawler.Framed crawl) (crawler.report update) :=
  (keeps_report h update).mono fun _ _ hplain => .of_plain crawler crawl hplain.web hplain.log

def Shows (url : String) (s : Surroundings) : Prop :=
  shownIn s.browser.web s.log = some (url, s.browser.current)

theorem Shows.of_hidden (h : Shows url s) (hst : Settled Event.IsHidden s t) : Shows url t := by
  obtain ⟨new, hlog, hnew⟩ := hst.log
  rw [Shows, hlog, shownIn_of_noVisit fun event hevent => (hnew event hevent).noVisit, hst.web,
    hst.current]
  exact h

theorem framed_goto (url : String) (timeout : Json) (waitUntil : Option String) :
    Keeps (crawler.Framed crawl) (goto url timeout waitUntil) := by
  intro s
  rw [goto_apply]
  refine .of_plain crawler crawl rfl ⟨[.visited url timeout waitUntil], rfl, fun event hevent => ?_⟩
  rw [List.mem_singleton.mp hevent]
  exact ⟨rfl, rfl⟩

theorem shows_of_goto {timeout : Json} {waitUntil : Option String}
    (h : goto url timeout waitUntil s = (.ok (), t)) : Shows url t := by
  rw [goto_apply] at h
  obtain ⟨harrival, rfl⟩ := Prod.mk.inj h
  cases hpage : s.browser.web.page? (.visited url timeout waitUntil :: s.log) url with
  | none =>
    rw [hpage] at harrival
    cases harrival
  | some => simp [Shows, shownIn, hpage]

/-- The picture of the page that is shown: none is wanted or has a path, or one is asked for. -/
inductive Photographed (crawler : Crawler) (crawl : Json) (url : String) (s t : Surroundings)
    (value : Json) : Prop
  | bare (null : value = .null) (hidden : Settled Event.IsHidden s t)
  | asked {path : String} {u : Surroundings} (text : value = .str path)
      (named : crawler.pictureText? crawl url = some path) (hidden : Settled Event.IsHidden s u)
      (web : t.browser.web = u.browser.web) (log : t.log = .screenshot path false :: u.log)

theorem photographed_picture (crawler : Crawler) (crawl : Json) (url : String) (s : Surroundings) :
    ∃ value t, crawler.picture crawl url s = (.ok value, t) ∧
      crawler.Photographed crawl url s t value := by
  unfold picture
  split
  · rw [bind_of_ok (attempt_apply _ s)]
    have hhidden := settled_picturePath crawler crawl url s
    rcases hpath : crawler.picturePath crawl url s with ⟨fault | path, u⟩
    · rw [hpath] at hhidden
      exact ⟨_, _, rfl, .bare rfl hhidden⟩
    · rw [hpath] at hhidden
      exact ⟨_, _, rfl, .asked rfl (pictureText?_of_picturePath hpath) hhidden rfl rfl⟩
  · exact ⟨_, _, rfl, .bare rfl (refl s)⟩

theorem photographed_readPage (crawler : Crawler) (crawl : Json) (url : String) (depth : Json)
    (s : Surroundings) :
    ∃ new length t u, crawler.readPage crawl url depth s = (.ok (new, length), u) ∧
      new.url = .str url ∧ (crawler.isSimple = true → new.content = .null) ∧
      Settled Event.IsHidden s t ∧ crawler.Photographed crawl url t u new.screenshot := by
  unfold readPage
  have hshown : currentPage s = (.ok s.browser.current, s) := rfl
  rw [bind_of_ok hshown]
  generalize hcontent :
    (if crawler.isSimple then none else some (Analyze.content s.browser.current)) = content
  have hhidden := settled_embedding crawler content s
  obtain ⟨vector, t, hvector⟩ := neverFails_embedding crawler content s
  rw [hvector] at hhidden
  obtain ⟨screenshot, u, hpicture, hphoto⟩ := photographed_picture crawler crawl url t
  rw [bind_of_ok hvector, bind_of_ok hpicture]
  refine ⟨_, _, t, u, rfl, rfl, fun hsimple => ?_, hhidden, hphoto⟩
  rw [← hcontent, if_pos hsimple]
  rfl

def pageEvents (new : Graph.NewPage) : List Event :=
  match Graph.Content.ofJson new.content with
  | .ok content => [.query (Text.collapse Graph.addPageQuery) (new.params content)]
  | .error _ => []

theorem addPage_log (new : Graph.NewPage) (s : Surroundings) :
    (Graph.addPage new s).2.log = pageEvents new ++ s.log := by
  rw [Graph.addPage_apply, pageEvents]
  cases Graph.Content.ofJson new.content with
  | error => rfl
  | ok content =>
    have hlog := query_log Graph.addPageQuery (new.params content) s
    rcases hquery : query Graph.addPageQuery (new.params content) s with ⟨fault | records, t⟩ <;>
      simpa [hquery] using hlog

theorem noPicture_of_mem_pageEvents (h : event ∈ pageEvents new) : event.isPicture = false := by
  unfold pageEvents at h
  split at h
  · rw [List.mem_singleton.mp h]
    rfl
  · cases h

theorem illustrated?_addPageQuery (hurl : new.url = .str url) (content : Graph.Content) :
    (Event.query (Text.collapse Graph.addPageQuery) (new.params content)).illustrated? =
      match new.screenshot with
      | .str path => some (url, path)
      | _ => none := by
  have hurl' : Fields.get? "url" (new.params content) = some (.str url) := by
    rw [Graph.NewPage.params, hurl]
    rfl
  have hpath : Fields.get? "screenshot_path" (new.params content) = some new.screenshot := rfl
  rw [Event.illustrated?, if_pos rfl, hurl', hpath]
  cases new.screenshot <;> rfl

theorem isPlain_of_mem_pageEvents (hurl : new.url = .str url) (hbare : new.screenshot = .null)
    (h : event ∈ pageEvents new) :
    event.IsPlain := by
  refine ⟨noPicture_of_mem_pageEvents h, ?_⟩
  unfold pageEvents at h
  split at h
  · rw [List.mem_singleton.mp h, illustrated?_addPageQuery hurl, hbare]
  · cases h

section Illustrated

variable {new : Graph.NewPage} {path : String} (hurl : new.url = .str url)
  (hscreenshot : new.screenshot = .str path)

include hurl hscreenshot

theorem illustrated_pageEvents_sublist :
    ((pageEvents new).filterMap Event.illustrated?).Sublist [(url, path)] := by
  unfold pageEvents
  split
  · rw [List.filterMap_cons, illustrated?_addPageQuery hurl, hscreenshot]
    exact .refl _
  · exact List.nil_sublist _

theorem illustrated_pageEvents_of_null (hcontent : new.content = .null) :
    (pageEvents new).filterMap Event.illustrated? = [(url, path)] := by
  have hempty : Graph.Content.ofJson .null = .ok (Graph.Content.mk (.str "") (.str "") (.int 0)
      (.int 0) (.int 0) (Json.emptyObj.write .line)) := rfl
  rw [pageEvents, hcontent, hempty, List.filterMap_cons, illustrated?_addPageQuery hurl, hscreenshot]
  rfl

theorem pictured_pageEvents (hsimple : crawler.isSimple = true → new.content = .null)
    (hnamed : crawler.pictureText? crawl url = some path) (hshows : Shows url s) :
    crawler.Pictured crawl
      (shotsIn s.browser.web s.log (pageEvents new ++ [.screenshot path false]))
      (pageEvents new ++ [.screenshot path false]) := by
  have hshots : shotsIn s.browser.web s.log (pageEvents new ++ [.screenshot path false]) =
      [⟨path, url, (answerUnless s.browser.current.faults "screenshot" ()).isOk⟩] := by
    have hshown : shownIn s.browser.web s.log = some (url, s.browser.current) := hshows
    rw [shotsIn_append, shotsIn_of_noPicture fun event => noPicture_of_mem_pageEvents]
    simp [shotsIn, Event.shot?, hshown]
  have hcount : (pageEvents new).countP Event.isPicture = 0 :=
    List.countP_eq_zero.mpr fun event hevent => by simp [noPicture_of_mem_pageEvents hevent]
  have hfilter : (pageEvents new ++ [Event.screenshot path false]).filterMap Event.illustrated? =
      (pageEvents new).filterMap Event.illustrated? := by
    rw [List.filterMap_append]
    exact List.append_nil _
  rw [hshots]
  refine ⟨?_, by simpa using hnamed, ?_, fun h => ?_⟩
  · rw [List.countP_append, hcount]
    rfl
  · rw [hfilter]
    exact illustrated_pageEvents_sublist hurl hscreenshot
  · rw [hfilter]
    exact illustrated_pageEvents_of_null hurl hscreenshot (hsimple h)

end Illustrated

theorem framed_addPage (hurl : new.url = .str url)
    (hsimple : crawler.isSimple = true → new.content = .null) (hshows : Shows url s)
    (hphoto : crawler.Photographed crawl url s t new.screenshot) :
    crawler.Framed crawl s (Graph.addPage new t).2 := by
  have hweb := (Graph.settled_addPage new t).web
  have hlog := addPage_log new t
  cases hphoto with
  | bare hnull hidden =>
    have hplain := Framed.of_plain crawler crawl hweb
      ⟨pageEvents new, hlog, fun event => isPlain_of_mem_pageEvents hurl hnull⟩
    exact IsTrans.trans _ _ _ (.of_hidden _ _ hidden) hplain
  | @asked path u hscreenshot hnamed hidden hsame hasked =>
    refine IsTrans.trans _ _ _ (.of_hidden _ _ hidden) ⟨hweb.trans hsame, _, ?_,
      pictured_pageEvents hurl hscreenshot hsimple hnamed (hshows.of_hidden hidden)⟩
    rw [hlog, hasked, List.append_assoc]
    rfl

theorem framed_loadPage (hhears : crawler.HearsOnly) (crawl : Json) (url : String) (depth : Json)
    (count : Nat) : Keeps (crawler.Framed crawl) (crawler.loadPage url depth count) := by
  refine (hhears.framed_report crawl _).bind fun _ => ?_
  refine (framed_goto url _ _).attempt.bind fun result => ?_
  cases result with
  | ok => exact Keeps.pure _
  | error => exact (hhears.framed_report crawl _).bind fun _ => Keeps.throw _

theorem shows_of_loadPage {depth : Json} {count : Nat}
    (h : crawler.loadPage url depth count s = (.ok (), t)) : Shows url t := by
  obtain ⟨_, u, -, h⟩ := exists_of_bind_ok h
  rw [bind_of_ok (attempt_apply _ u)] at h
  rcases hgoto : goto url crawler.settings.crawl.timeout (some "domcontentloaded") u with
    ⟨fault | ⟨⟩, v⟩
  · rw [hgoto] at h
    obtain ⟨_, _, -, h⟩ := exists_of_bind_ok h
    cases h
  · rw [hgoto] at h
    cases h
    exact shows_of_goto hgoto

theorem framed_storePage (hhears : crawler.HearsOnly) (crawl : Json) (url : String) (depth : Json)
    (count : Nat) : Keeps (crawler.Framed crawl) (crawler.storePage crawl url depth count) := by
  intro s
  have hload := framed_loadPage hhears crawl url depth count s
  unfold storePage
  rcases hresult : crawler.loadPage url depth count s with ⟨fault | ⟨⟩, t⟩
  · rw [hresult] at hload
    rw [bind_of_error hresult]
    exact hload
  · rw [hresult] at hload
    rw [bind_of_ok hresult]
    obtain ⟨new, length, u, v, hread, hurl, hsimple, hhidden, hphoto⟩ :=
      photographed_readPage crawler crawl url depth t
    have hshows : Shows url u := (shows_of_loadPage hresult).of_hidden hhidden
    rw [bind_of_ok hread]
    have hstored := IsTrans.trans _ _ _ hload
      (IsTrans.trans _ _ _ (.of_hidden _ _ hhidden) (framed_addPage hurl hsimple hshows hphoto))
    simp only
    rcases hadd : Graph.addPage new v with ⟨fault | id, w⟩
    · rw [hadd] at hstored
      rw [bind_of_error hadd]
      exact hstored
    · rw [hadd] at hstored
      rw [bind_of_ok hadd]
      refine IsTrans.trans _ _ _ hstored (Keeps.bind (hhears.framed_report crawl _) (fun _ => ?_) w)
      have hrest := (settled_storeElements crawler id).mono fun _ _ hhidden =>
        Framed.of_hidden crawler crawl hhidden
      exact hrest.attempt.bind fun _ => Keeps.pure _

theorem framed_visit (hhears : crawler.HearsOnly) (crawl : Json) (base : String)
    (visited : List String) (url : String) (depth : Nat) (s : Surroundings) :
    crawler.Framed crawl s (crawler.visit crawl base visited url depth s).2 :=
  visit_keeps (framed_storePage hhears crawl url (.ofNat depth) visited.length s)
    fun _ _ hst htu => IsTrans.trans _ _ _ hst (.of_hidden _ _ htu)

theorem framed_crawl (hhears : crawler.HearsOnly) (url : String) (before : List String)
    (s : Surroundings) : ∃ crawl, crawler.Framed crawl s (crawler.crawl url before s).2 := by
  cases course_of_crawl crawler url before s with
  | halted failed => exact ⟨.null, .of_hidden _ _ ((hidden_prepare crawler _ _).of_eq failed)⟩
  | @walked crawl bounds t prepared ends =>
    refine ⟨crawl, ?_⟩
    have hbegins := Framed.of_hidden crawler crawl ((hidden_prepare crawler _ _).of_eq prepared)
    have hwalk := keeps_walk (framed_visit hhears crawl (Text.trimEnd (· = '/') url)) bounds
      (start (Text.trimEnd (· = '/') url) before.eraseDups t)
    exact IsTrans.trans _ _ _ hbegins (IsTrans.trans _ _ _ hwalk (.of_hidden _ _ ends))

/-! ## Pages and their own pictures -/

def Namesakes (url other : String) : Prop :=
  (pictureName url).toOption = (pictureName other).toOption

theorem Namesakes.of_eq {url : String} (h : url = other) : Namesakes url other :=
  congrArg (fun url => (pictureName url).toOption) h

theorem pictureAt?_eq_some_iff {page : String}
    (hpath : ∀ shot ∈ shots, shot.path = path ↔ Namesakes shot.url page) :
    pictureAt? shots path = some page ↔
      ∃ later own earlier, shots = later ++ own :: earlier ∧ own.url = page ∧ own.taken = true ∧
        ∀ shot ∈ later, shot.taken = true → Namesakes shot.url page → shot.url = page := by
  induction shots with
  | nil => simp [pictureAt?]
  | cons shot shots ih =>
    have hfirst := hpath shot List.mem_cons_self
    have ih := ih fun shot hmem => hpath shot (List.mem_cons_of_mem _ hmem)
    by_cases hlies : shot.taken = true ∧ shot.path = path
    · have hnew : pictureAt? (shot :: shots) path = some shot.url := by
        simp [pictureAt?, hlies]
      rw [hnew, Option.some.injEq]
      constructor
      · intro hurl
        exact ⟨[], shot, shots, rfl, hurl, hlies.1, by simp⟩
      · rintro ⟨later, own, earlier, heq, hurl, -, hlater⟩
        cases later with
        | nil =>
          cases heq
          exact hurl
        | cons =>
          cases heq
          exact hlater _ List.mem_cons_self hlies.1 (hfirst.mp hlies.2)
    · have hold : pictureAt? (shot :: shots) path = pictureAt? shots path := by
        unfold pictureAt?
        by_cases htaken : shot.taken = true
        · have hne : shot.path ≠ path := fun heq => hlies ⟨htaken, heq⟩
          simp [htaken, hne]
        · simp [htaken]
      rw [hold, ih]
      constructor
      · rintro ⟨later, own, earlier, rfl, hurl, htaken, hlater⟩
        refine ⟨shot :: later, own, earlier, rfl, hurl, htaken, fun other hmem => ?_⟩
        rcases List.mem_cons.mp hmem with rfl | hmem
        · exact fun htaken hsame => absurd ⟨htaken, hfirst.mpr hsame⟩ hlies
        · exact hlater other hmem
      · rintro ⟨later, own, earlier, heq, hurl, htaken, hlater⟩
        cases later with
        | nil =>
          cases heq
          exact absurd ⟨htaken, hfirst.mpr (.of_eq hurl)⟩ hlies
        | cons first later =>
          cases heq
          exact ⟨later, own, earlier, rfl, hurl, htaken,
            fun other hmem => hlater other (List.mem_cons_of_mem _ hmem)⟩

/-- In every crawl every picture is asked for while a page is shown.  For every page that the
graph is asked to store with the path of a picture, its picture was asked for by that path,
taken or not; and the picture that lies there in the end is its own if and only if one was
taken, and since then none of another page whose picture has the same name. -/
theorem own_picture_iff (hhears : crawler.HearsOnly) (url : String) (before : List String)
    (s : Surroundings) :
    ∃ new, (crawler.crawl url before s).2.log = new ++ s.log ∧
      let shots := shotsIn s.browser.web s.log new
      let asked := shots.map fun shot => (shot.url, shot.path)
      shots.length = new.countP Event.isPicture ∧
      (new.filterMap Event.illustrated?).Sublist asked ∧
      (crawler.isSimple = true → new.filterMap Event.illustrated? = asked) ∧
      ∀ page path, (page, path) ∈ new.filterMap Event.illustrated? →
        (pictureAt? shots path = some page ↔
          ∃ later own earlier, shots = later ++ own :: earlier ∧
            own.url = page ∧ own.taken = true ∧
            ∀ shot ∈ later, shot.taken = true → Namesakes shot.url page →
              shot.url = page) := by
  obtain ⟨crawl, hframed⟩ := framed_crawl hhears url before s
  obtain ⟨new, hlog, hpictured⟩ := hframed.log
  refine ⟨new, hlog, hpictured.all, hpictured.tried, hpictured.stored, fun page path hpage => ?_⟩
  obtain ⟨own, hown, heq⟩ := List.mem_map.mp (hpictured.tried.subset hpage)
  cases heq
  refine pictureAt?_eq_some_iff fun shot hshot => ?_
  exact pictureText?_eq_iff (hpictured.own shot hshot) (hpictured.own own hown)

def photographer : Crawler :=
  { sample with
    settings := { framedSettings with crawl := { framedSettings.crawl with screenshot := true } }.live }

def homesWeb : Web where
  page? _ url :=
    let links := if url = "https://a.b" then ["https://a.b/home"] else []
    some { WebPage.blank with hrefs := .texts links }
  size := 2

def homes : Surroundings := { sampleSurroundings homesWeb with store := obliging }

def homesPath : String := "artifacts/screenshots/crawl/home.png"

theorem photographer_hearsOnly : photographer.HearsOnly := by
  intro notify hnotify update s
  cases hnotify
  refine ⟨rfl, rfl, List.Sublist.refl _, [.progress update], rfl, fun event hevent => ?_⟩
  rw [List.mem_singleton.mp hevent]
  exact ⟨rfl, rfl⟩

theorem homes_shots :
    shotsIn homesWeb [] (photographer.crawl "https://a.b" [] homes).2.log =
      [⟨homesPath, "https://a.b/home", true⟩, ⟨homesPath, "https://a.b", true⟩] := by
  have hrun : (match photographer.prepare "https://a.b" [] homes with
      | (.error _, _) => false
      | (.ok (crawl, bounds), t) =>
        let visit := photographer.visit crawl "https://a.b"
        let done := Frontier.after bounds "https://a.b" visit 2 (start "https://a.b" [] t)
        done.queue.isEmpty && decide (shotsIn homesWeb [] done.state.log =
          [⟨homesPath, "https://a.b/home", true⟩, ⟨homesPath, "https://a.b", true⟩])) = true := by
    decide +kernel
  have hbase : Text.trimEnd (· = '/') "https://a.b" = "https://a.b" := by decide +kernel
  have hcourse := course_of_crawl photographer "https://a.b" [] homes
  rw [hbase, List.eraseDups_nil] at hcourse
  cases hcourse with
  | halted failed => simp [failed] at hrun
  | walked prepared ends =>
    simp only [prepared, Bool.and_eq_true, List.isEmpty_iff, decide_eq_true_eq] at hrun
    rw [Frontier.walk_eq_after (Frontier.next_eq_none_iff.mpr (Or.inl hrun.1))] at ends
    obtain ⟨new, hlog, hnew⟩ := ends.log
    rw [hlog, shotsIn_append,
      shotsIn_of_noPicture fun event hevent => (hnew event hevent).noPicture]
    exact hrun.2

/-- The page at the top is stored with the picture of the page below. -/
theorem own_picture_iff_homes :
    photographer.HearsOnly ∧ ∃ new, (photographer.crawl "https://a.b" [] homes).2.log = new ∧
      ("https://a.b", homesPath) ∈ new.filterMap Event.illustrated? ∧
      pictureAt? (shotsIn homesWeb [] new) homesPath = some "https://a.b/home" := by
  obtain ⟨new, hlog, -, -, hstored, -⟩ :=
    own_picture_iff photographer_hearsOnly "https://a.b" [] homes
  have hnew : (photographer.crawl "https://a.b" [] homes).2.log = new :=
    hlog.trans (List.append_nil new)
  have hshots := homes_shots
  rw [hnew] at hshots
  have hsimple : photographer.isSimple = true := rfl
  refine ⟨photographer_hearsOnly, new, hnew, ?_, ?_⟩
  · rw [hstored hsimple]
    change _ ∈ (shotsIn homesWeb [] new).map _
    rw [hshots]
    simp
  · rw [hshots]
    simp [pictureAt?]

end Crawl.Crawler

end Sitecheck
