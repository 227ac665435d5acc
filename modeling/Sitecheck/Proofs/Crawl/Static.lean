import Sitecheck.Proofs.Crawl.Visit

/-!
# Visits to a site that does not change

When whoever hears of the progress keeps quiet, a visit to a page that cannot be
loaded stores nothing, and a visit to one that can asks the graph to store that
page and gives its internal links.
-/

namespace Sitecheck

def Web.links? (web : Web) (log : List Event) (url : String) : Option (List String) :=
  match web.page? log url with
  | none => none
  | some page =>
    match Run.arrival (some page) with
    | .ok () => some (Crawl.Crawler.linkTexts page)
    | .error _ => none

theorem Web.mem_of_links?_ofTable {pages : List (String × WebPage)} {log : List Event}
    {url : String} (h : ((Web.ofTable pages).links? log url).isSome) :
    url ∈ pages.map Prod.fst := by
  cases hpage : Fields.get? url pages with
  | none => simp [links?, ofTable, hpage] at h
  | some =>
    obtain ⟨front, rest, rfl, -⟩ := List.lookup_eq_some_iff.mp hpage
    simp

namespace Crawl.Crawler

open Run

variable {crawler : Crawler} {crawl : Json} {base url : String} {visited : List String}
  {depth : Nat} {s : Surroundings}
variable {t : Surroundings} {hrefs : List String}

/-- Whoever hears of the progress neither objects nor uses the services for more
than asides. -/
structure Quiet (crawler : Crawler) : Prop where
  polite : crawler.Polite
  stays : ∀ notify, crawler.notify = some notify →
    ∀ update, Keeps (Stays Event.IsAside) (notify update)

theorem Quiet.report (h : crawler.Quiet) (update : List (String × Json)) :
    Keeps (Stays Event.IsAside) (crawler.report update) :=
  keeps_report h.stays update

/-! ## Loading -/

abbrev Passes : Surroundings → Surroundings → Prop := Grows fun event => event.pageAdded? = none

theorem passes_of_stays {s : Surroundings} (h : Stays Event.IsAside s t) : Passes s t :=
  h.toGrows.mono fun _ hevent => hevent.noPage

theorem passes_goto (url : String) (timeout : Json) (waitUntil : Option String) :
    Keeps Passes (goto url timeout waitUntil) := by
  intro s
  rw [goto_apply]
  exact ⟨rfl, rfl, List.Sublist.refl _, [.visited url timeout waitUntil], rfl,
    by simp [Event.pageAdded?]⟩

theorem Quiet.loadPage_apply (h : crawler.Quiet) (url : String) (depth : Json) (count : Nat)
    (s : Surroundings) :
    ∃ log t, crawler.loadPage url depth count s = (arrival (s.browser.web.page? log url), t) ∧
      Passes s t ∧
      (arrival (s.browser.web.page? log url) = .ok () →
        t.browser.current = (s.browser.web.page? log url).getD .blank) := by
  unfold loadPage
  have hloading := h.report [("type", .str "page_loading"), ("url", .str url), ("depth", depth),
    ("visited", .ofNat count)] s
  rw [bind_of_ok (h.polite.report_apply _ _)]
  generalize (crawler.report [("type", .str "page_loading"), ("url", .str url), ("depth", depth),
    ("visited", .ofNat count)] s).2 = u at hloading ⊢
  have hweb := hloading.web
  have hgoto := goto_apply url crawler.settings.crawl.timeout (some "domcontentloaded") u
  have hpasses := passes_goto url crawler.settings.crawl.timeout (some "domcontentloaded") u
  rw [bind_of_ok (attempt_apply _ _)]
  rw [hgoto] at hpasses ⊢
  rw [hweb] at hpasses ⊢
  have hbefore : Passes s _ := IsTrans.trans _ _ _ (passes_of_stays hloading) hpasses
  refine ⟨.visited url crawler.settings.crawl.timeout (some "domcontentloaded") :: u.log, ?_⟩
  generalize s.browser.web.page? (.visited url crawler.settings.crawl.timeout
    (some "domcontentloaded") :: u.log) url = found at hbefore ⊢
  cases harrival : arrival found with
  | ok => exact ⟨_, rfl, hbefore, fun _ => rfl⟩
  | error =>
    dsimp only
    rw [bind_of_ok (h.polite.report_apply _ _)]
    refine ⟨_, rfl, ?_, fun hok => by cases hok⟩
    exact IsTrans.trans _ _ _ hbefore (passes_of_stays (h.report _ _))

/-! ## Visits -/

theorem Quiet.grows_visit (h : crawler.Quiet) (crawl : Json) (base : String)
    (visited : List String) (url : String) (depth : Nat) (s : Surroundings) :
    Grows (fun _ => True) s (crawler.visit crawl base visited url depth s).2 := by
  refine keeps_visit (fun update => ?_) ?_ (fun _ _ hst => ?_) crawl base visited depth s
  · exact (h.report update).mono fun _ _ hst => hst.toGrows.mono fun _ _ => trivial
  · exact (passes_goto _ _ _).mono fun _ _ hst => hst.mono fun _ _ => trivial
  · exact hst.toGrows.mono fun _ _ => trivial

theorem Quiet.grows_of_leads {bounds : Bounds} (h : crawler.Quiet) {f g : Frontier Surroundings}
    (hleads : Frontier.Leads bounds base (crawler.visit crawl base) f g) :
    Grows (fun _ => True) f.state g.state :=
  hleads.related (h.grows_visit crawl base)

theorem Quiet.visit_of_missing (h : crawler.Quiet) (crawl : Json) (base : String)
    (visited : List String) (depth : Nat) (hmissing : ∀ log, s.browser.web.links? log url = none) :
    ∃ t, crawler.visit crawl base visited url depth s = (none, t) ∧ Passes s t := by
  obtain ⟨log, t, hload, hpasses, -⟩ := h.loadPage_apply url (.ofNat depth) visited.length s
  have hlost : ∃ fault, arrival (s.browser.web.page? log url) = .error fault := by
    have hnone := hmissing log
    unfold Web.links? at hnone
    cases hpage : s.browser.web.page? log url with
    | none => exact ⟨_, rfl⟩
    | some page =>
      cases harrival : arrival (some page) with
      | error fault => exact ⟨fault, rfl⟩
      | ok => simp [hpage, harrival] at hnone
  obtain ⟨fault, hfault⟩ := hlost
  rw [hfault] at hload
  have hstore : crawler.storePage crawl url (.ofNat depth) visited.length s = (.error fault, t) := by
    unfold storePage
    rw [bind_of_error hload]
  exact ⟨t, visit_of_error hstore, hpasses⟩

theorem Quiet.of_asked? (h : crawler.Quiet) {count : Nat} {new : Graph.NewPage}
    (hasked : crawler.asked? crawl url depth count s = some (new, t)) :
    new.url = .str url ∧ (crawler.isSimple = true → new.content = .null) ∧ Passes s t := by
  obtain ⟨log, u, hload, hpasses, -⟩ := h.loadPage_apply url (.ofNat depth) count s
  cases harrival : arrival (s.browser.web.page? log url) with
  | error =>
    rw [harrival] at hload
    rw [asked?, bind_of_error hload] at hasked
    cases hasked
  | ok =>
    rw [harrival] at hload
    obtain ⟨new', length, v, hread, hurl, hcontent, hstays⟩ :=
      readPage_apply crawler crawl url (.ofNat depth) u
    rw [asked?_of_ok hload hread] at hasked
    cases hasked
    exact ⟨hurl, hcontent, IsTrans.trans _ _ _ hpasses (passes_of_stays hstays.aside)⟩

theorem Quiet.asked?_of_found (h : crawler.Quiet) (crawl : Json) (depth count : Nat)
    (hfound : ∀ log, s.browser.web.links? log url = some hrefs) :
    ∃ new t, crawler.asked? crawl url depth count s = some (new, t) ∧
      linkTexts t.browser.current = hrefs := by
  obtain ⟨log, t, hload, -, hcurrent⟩ := h.loadPage_apply url (.ofNat depth) count s
  have hlinks := hfound log
  unfold Web.links? at hlinks
  cases hpage : s.browser.web.page? log url with
  | none => simp [hpage] at hlinks
  | some page =>
    cases harrival : arrival (some page) with
    | error => simp [hpage, harrival] at hlinks
    | ok =>
      simp only [hpage, harrival, Option.some.injEq] at hlinks
      rw [hpage, harrival] at hload hcurrent
      have hshown : t.browser.current = page := hcurrent rfl
      obtain ⟨new, length, u, hread, -, -, hstays⟩ :=
        readPage_apply crawler crawl url (.ofNat depth) t
      refine ⟨new, u, asked?_of_ok hload hread, ?_⟩
      rw [hstays.current, hshown, hlinks]

/-- A page that can be loaded and that the graph takes up is stored once, and
its internal links are followed unless it is too deep. -/
theorem Quiet.visit_of_found (h : crawler.Quiet) (crawl : Json) (base : String)
    (visited : List String) (depth : Nat)
    (hfound : ∀ log, s.browser.web.links? log url = some hrefs)
    (haccepted : ∀ new t, crawler.asked? crawl url depth visited.length s = some (new, t) →
      ∃ id, (Graph.addPage new t).1 = .ok id) :
    ∃ id t, crawler.visit crawl base visited url depth s =
        (some (id, internalLinks base (visited ++ [url])
          (if crawler.expands depth then hrefs else [])), t) ∧
      pagesAddedIn t.log = url :: pagesAddedIn s.log := by
  obtain ⟨new, t, hasked, hlinks⟩ := h.asked?_of_found crawl depth visited.length hfound
  obtain ⟨hurl, -, hbefore⟩ := h.of_asked? hasked
  obtain ⟨id, hid⟩ := haccepted new t hasked
  have hadd : Graph.addPage new t = (.ok id, (Graph.addPage new t).2) := Prod.ext hid rfl
  obtain ⟨update, hstore⟩ := storePage_of_asked h.polite hasked hadd
  obtain ⟨v, hvisit, hfollow⟩ := visit_of_ok base hstore
  -- what follows when the page is taken up shows no other page and stores none
  have hrest := IsTrans.trans _ _ _ (h.report update (Graph.addPage new t).2)
    (settled_storeElements crawler id _).inner.aside
  have hafter := IsTrans.trans _ _ _ hrest hfollow.inner.aside
  refine ⟨id, v, ?_, ?_⟩
  · rw [hvisit, followed, hrest.current, (Graph.settled_addPage new t).current, hlinks]
  · rw [pagesAddedIn_of_grows (passes_of_stays hafter), Graph.pagesAddedIn_addPage hurl hadd,
      pagesAddedIn_of_grows hbefore]

end Crawl.Crawler

end Sitecheck
