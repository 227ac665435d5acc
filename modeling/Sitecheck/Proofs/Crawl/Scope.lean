import Sitecheck.Proofs.Crawl.Course
import Sitecheck.Proofs.Url.Origin

/-!
# Where a crawl goes

Every address that a crawl goes to begins with its base, as texts are compared.
That is the origin of the base if the base has a path; behind a bare host, the
name of another host may go on.
-/

namespace Sitecheck

/-! ## Addresses in the log -/

def Event.address? : Event → Option String
  | .visited url .. => some url
  | _ => none

def addressesIn (log : List Event) : List String := log.filterMap Event.address?

def Event.Within (scope : String → Prop) (event : Event) : Prop :=
  ∀ url ∈ event.address?, scope url

namespace Run

variable {scope : String → Prop}

theorem Logs.within {s t : Surroundings} (h : Offstage s t) : Logs (Event.Within scope) s t := by
  refine h.mono fun event hevent url hurl => ?_
  cases event <;> simp [Event.address?, Event.isOffstage] at hurl hevent

theorem within_goto {url : String} (hurl : scope url) (timeout : Json) (waitUntil : Option String) :
    Keeps (Logs (Event.Within scope)) (goto url timeout waitUntil) := by
  intro s
  rw [goto_apply]
  refine ⟨[_], rfl, fun event hevent address haddress => ?_⟩
  rw [List.mem_singleton] at hevent
  subst hevent
  cases haddress
  exact hurl

end Run

open Run

namespace Crawl.Crawler

variable {s : Surroundings}

/-! ## Visits -/

def Still (crawler : Crawler) : Prop :=
  ∀ notify, crawler.notify = some notify →
    ∀ update, Keeps (Logs fun event => event.address? = none) (notify update)

variable {crawler : Crawler} {scope : String → Prop} {crawl : Json} {base url : String}

theorem Still.report (h : crawler.Still) (update : List (String × Json)) :
    Keeps (Logs (Event.Within scope)) (crawler.report update) := by
  refine (keeps_report h update).mono fun s t hlogs => hlogs.mono fun event hevent address => ?_
  simp [hevent]

theorem Still.visit (h : crawler.Still) (hurl : scope url) (crawl : Json) (base : String)
    (visited : List String) (depth : Nat) (s : Surroundings) :
    Logs (Event.Within scope) s (crawler.visit crawl base visited url depth s).2 :=
  keeps_visit h.report (within_goto hurl _ _) (fun _ _ hst => (Logs.offstage hst.log).within) crawl base
    visited depth s

/-! ## Rounds -/

structure Extends (base url : String) : Prop where
  clean : IsClean url
  starts : base.toList <+: url.toList

theorem extends_clean {href : String} (hbase : IsClean base)
    (h : base.toList <+: href.toList) : Extends base (clean href) := by
  have hcleaned := clean_mono h
  rw [clean_eq_self_of_isClean hbase] at hcleaned
  exact ⟨isClean_clean href, hcleaned⟩

theorem extends_of_mem_internalLinks {visited hrefs : List String} {link : String}
    (hbase : IsClean base) (h : link ∈ internalLinks base visited hrefs) : Extends base link := by
  obtain ⟨href, -, hstarts, -, rfl, -⟩ := (mem_internalLinks base visited hrefs link).mp h
  exact extends_clean hbase ((Text.startsWith_iff _ _).mp hstarts)

structure InScope (base : String) (s : Surroundings) (f : Frontier Surroundings) : Prop where
  queue : ∀ url ∈ f.queue, Extends base url
  log : Logs (Event.Within (Extends base)) s f.state

theorem InScope.round {bounds : Bounds} {f g : Frontier Surroundings} (hstill : crawler.Still)
    (hbase : IsClean base) (h : InScope base s f)
    (hround : Frontier.Round bounds base (crawler.visit crawl base) f g) : InScope base s g := by
  have hvisit {url : String} {queue : List String} (hwaits : f.queue = url :: queue) :
      Logs (Event.Within (Extends base)) f.state
        (crawler.visit crawl base f.visited url (depth url base) f.state).2 :=
    hstill.visit (h.queue url (by simp [hwaits])) crawl base f.visited _ f.state
  cases hround with
  | skipped waits =>
    exact ⟨fun url hurl => h.queue url (by simp [waits, hurl]), h.log⟩
  | failed waits room skips visits =>
    refine ⟨fun url hurl => h.queue url (by simp [waits, hurl]), ?_⟩
    have hnew := hvisit waits
    rw [visits] at hnew
    exact IsTrans.trans _ _ _ h.log hnew
  | @stored url queue id links t waits room skips visits =>
    refine ⟨fun link hlink => ?_, ?_⟩
    · obtain ⟨added, heq, -, hadded⟩ :=
        enqueue_eq_append bounds base (f.visited ++ [url]) queue links
      rw [heq, List.mem_append] at hlink
      rcases hlink with hlink | hlink
      · exact h.queue link (by simp [waits, hlink])
      · obtain ⟨hrefs, rfl⟩ := links_of_visit visits
        exact extends_of_mem_internalLinks hbase (hadded link hlink).1
    · have hnew := hvisit waits
      rw [visits] at hnew
      exact IsTrans.trans _ _ _ h.log hnew

theorem within_walk (hstill : crawler.Still) (hbase : IsClean base) (crawl : Json)
    (bounds : Bounds) (before : List String) (s : Surroundings) :
    Logs (Event.Within (Extends base)) s
      ((start base before s).walk bounds base (crawler.visit crawl base)).state := by
  have hleads := Frontier.leads_walk bounds base (crawler.visit crawl base) (start base before s)
  refine (hleads.keeps (P := InScope base s) (fun f g hf hround => hf.round hstill hbase hround)
    ⟨fun url hurl => ?_, refl s⟩).log
  simp only [start, List.mem_singleton] at hurl
  subst hurl
  exact ⟨hbase, List.prefix_refl _⟩

theorem within_of_course {before : List String} {u : Surroundings} (hstill : crawler.Still)
    (hbase : IsClean base) (h : crawler.Course base before s u) :
    Logs (Event.Within fun url => (Url.origin? base).isSome ∧ Extends base url) s u := by
  cases h with
  | halted failed => exact ((hidden_prepare crawler base before).of_eq failed).offstage.within
  | @walked crawl bounds t prepared ends =>
    have hsome : (Url.origin? base).isSome := by
      obtain ⟨split, hsplit⟩ := split_of_prepare prepared
      simp [Url.origin?, hsplit]
    have hbegins := ((hidden_prepare crawler base before).of_eq prepared).offstage
    have hwalk := (within_walk hstill hbase crawl bounds before t).mono
      fun event hevent url hurl => And.intro hsome (hevent url hurl)
    exact IsTrans.trans _ _ _ hbegins.within (IsTrans.trans _ _ _ hwalk ends.offstage.within)

/-! ## The whole crawl -/

/-- Wherever the links lead, a crawl goes only to addresses that begin with its
base.  Such an address leaves the site exactly if the base is a bare host and the
address does not go on with a slash. -/
theorem addresses_of_crawl (hstill : crawler.Still) (address : Url.SiteAddress)
    (before : List String) (s : Surroundings) :
    ∃ new, (crawler.crawl address.text before s).2.log = new ++ s.log ∧
      ∀ url ∈ addressesIn new, ∃ rest,
        url = String.ofList (address.trimmed.chars ++ rest) ∧
        (Url.SameOrigin url address.text ↔
          address.trimmed.path ≠ [] ∨ ∀ c ∈ (Url.SiteAddress.kept rest).head?, c = '/') := by
  have hclean : IsClean address.trimmed.text := by
    refine ⟨?_, ?_, ?_⟩ <;> rw [Url.SiteAddress.text, String.toList_ofList]
    · exact address.trimmed.not_mem_chars (Or.inl rfl)
    · exact address.trimmed.not_mem_chars (Or.inr rfl)
    · exact address.getLast?_chars_trimmed
  have hcourse := course_of_crawl crawler address.text before s
  rw [← address.text_trimmed] at hcourse
  obtain ⟨new, hlog, hnew⟩ := within_of_course hstill hclean hcourse
  refine ⟨new, hlog, fun url hurl => ?_⟩
  obtain ⟨event, hevent, haddress⟩ := List.mem_filterMap.mp hurl
  obtain ⟨haccepted, hurlClean, rest, hrest⟩ := hnew event hevent url haddress
  rw [Url.SiteAddress.text, String.toList_ofList] at hrest
  have htext : url = String.ofList (address.trimmed.chars ++ rest) := by
    rw [hrest, String.ofList_toList]
  have hends : ∀ c ∈ (Url.SiteAddress.kept rest).head?, Url.Split.endsHost c = true ↔ c = '/' := by
    intro c hc
    have hmem : c ∈ url.toList := by
      rw [← hrest]
      exact List.mem_append_right _ (List.mem_of_mem_filter (List.mem_of_head? hc))
    have hquery : c ≠ '?' := fun heq => hurlClean.noQuery (heq ▸ hmem)
    have hfragment : c ≠ '#' := fun heq => hurlClean.noFragment (heq ▸ hmem)
    simp [Url.Split.endsHost, hquery, hfragment]
  refine ⟨rest, htext, ?_⟩
  have horigin := address.trimmed.sameOrigin_append_iff haccepted rest
  have hsame : Url.origin? address.trimmed.text = Url.origin? address.text := by
    rw [Url.SiteAddress.origin?_text, Url.SiteAddress.origin?_text]
    rfl
  rw [Url.SameOrigin, hsame, ← htext] at horigin
  rw [Url.SameOrigin, horigin, forall₂_congr hends]

/-! ## A site with a look-alike -/

def shop : Url.SiteAddress where
  scheme := "https".toList
  host := "shop.com".toList
  path := []
  schemeLetter := ⟨'h', rfl, rfl⟩
  schemeChars := List.all_eq_true.mp (by decide)
  hostNonempty := by decide
  hostChars := by
    have hall : "shop.com".toList.all
        (fun c => !Url.Split.endsHost c && !Url.Split.isOmitted c) = true := by decide
    simpa using hall
  pathSlash := by simp
  pathChars := by simp

def shopWeb : Web where
  page? _ _ := some { WebPage.blank with hrefs := .arr [.str "https://shop.com.evil.org/login"] }
  size := 1

def shopSurroundings : Surroundings := { sampleSurroundings shopWeb with store := obliging }

def shopCrawler : Crawler := { sample with settings := framedSettings.live }

theorem shopCrawler_still : shopCrawler.Still := by
  intro notify hnotify update
  cases hnotify
  exact logs_record rfl

/-- The crawl of the shop ends after two rounds, and the second one leaves it. -/
theorem addresses_of_shop_crawl :
    shopCrawler.Still ∧
      ∃ new, (shopCrawler.crawl shop.text [] shopSurroundings).2.log = new ++ [] ∧
        "https://shop.com.evil.org/login" ∈ addressesIn new ∧
        ¬ Url.SameOrigin "https://shop.com.evil.org/login" shop.text := by
  refine ⟨shopCrawler_still, ?_⟩
  obtain ⟨new, hlog, hnew⟩ := addresses_of_crawl shopCrawler_still shop [] shopSurroundings
  have hrun : (match shopCrawler.prepare (Text.trimEnd (· = '/') shop.text) [] shopSurroundings with
      | (.error _, _) => false
      | (.ok (crawl, bounds), t) =>
        let base := Text.trimEnd (· = '/') shop.text
        let visit := shopCrawler.visit crawl base
        let done := Frontier.after bounds base visit 2 (start base [] t)
        (done.next bounds base visit).isNone &&
          (addressesIn done.state.log).contains "https://shop.com.evil.org/login") = true := by
    decide +kernel
  have hgoes : "https://shop.com.evil.org/login" ∈ addressesIn new := by
    cases course_of_crawl shopCrawler shop.text [] shopSurroundings with
    | halted failed =>
      rw [List.eraseDups_nil] at failed
      simp [failed] at hrun
    | walked prepared ends =>
      rw [List.eraseDups_nil] at prepared ends
      simp only [prepared, Bool.and_eq_true, Option.isNone_iff_eq_none, List.contains_eq_mem,
        decide_eq_true_eq] at hrun
      obtain ⟨later, hlater, -⟩ := ends.log
      rw [Frontier.walk_eq_after hrun.1] at hlater
      have hall : new = later ++ _ := (List.append_nil new).symm.trans (hlog.symm.trans hlater)
      rw [hall, addressesIn, List.filterMap_append]
      exact List.mem_append_right _ hrun.2
  refine ⟨new, hlog, hgoes, ?_⟩
  obtain ⟨rest, htext, horigin⟩ := hnew _ hgoes
  have hrest : rest = ".evil.org/login".toList := by
    have happend : shop.trimmed.chars ++ rest = shop.trimmed.chars ++ ".evil.org/login".toList := by
      rw [← String.ofList_inj, ← htext]
      decide +kernel
    exact List.append_cancel_left happend
  have hhead : '.' ∈ (Url.SiteAddress.kept ".evil.org/login".toList).head? := by decide +kernel
  rw [horigin, hrest]
  rintro (hpath | hslash)
  · exact hpath (by decide +kernel)
  · exact absurd (hslash '.' hhead) (by decide)

end Crawl.Crawler

end Sitecheck
