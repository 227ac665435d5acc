import Sitecheck.Proofs.Crawl.Scope

/-!
# Crawls that differ in their limit

The limit of a crawl says when it ends, and nothing else depends on it.  So a
crawl with a smaller limit is the beginning of one with a larger limit, whatever
the site and the graph answer, and a crawl without a limit only goes on further.
-/

namespace Sitecheck.Crawl

variable {σ α : Type} {bounds : Bounds} {base : String}

/-! ## Rounds with another limit -/

def Bounds.withLimit (bounds : Bounds) (limit : Nat) : Bounds := { bounds with limit := limit }

theorem enqueue_withLimit (limit : Nat) (known queue links : List String) :
    enqueue (bounds.withLimit limit) base known queue links =
      enqueue bounds base known queue links := by
  induction links generalizing queue with
  | nil => rfl
  | cons link links ih =>
    rw [enqueue, enqueue, ih, ih]
    rfl

namespace Frontier

variable {visit : Visit σ} {f g : Frontier σ}
variable {few many : Nat}

theorem Round.withLimit {limit : Nat} (h : Round bounds base visit f g)
    (hroom : f.visited.length < limit) : Round (bounds.withLimit limit) base visit f g := by
  cases h with
  | skipped waits room skips => exact .skipped waits hroom skips
  | failed waits room skips visits => exact .failed waits hroom skips visits
  | stored waits room skips visits =>
    rw [← enqueue_withLimit limit]
    exact .stored waits hroom skips visits

theorem next_of_larger_limit (hle : few ≤ many)
    (h : f.next (bounds.withLimit few) base visit = some g) :
    f.next (bounds.withLimit many) base visit = some g := by
  have hroom : f.visited.length < few := by
    by_contra hfull
    have hnone : f.next (bounds.withLimit few) base visit = none :=
      next_eq_none_iff.mpr (Or.inr (Nat.le_of_not_lt hfull))
    rw [hnone] at h
    cases h
  exact next_eq_some_iff.mpr ((next_eq_some_iff.mp h).withLimit (hroom.trans_le hle))

def nextUnlimited (bounds : Bounds) (base : String) (visit : Visit σ) (f : Frontier σ) :
    Option (Frontier σ) :=
  f.next (bounds.withLimit (f.visited.length + 1)) base visit

theorem nextUnlimited_of_next (h : f.next bounds base visit = some g) :
    f.nextUnlimited bounds base visit = some g :=
  next_eq_some_iff.mpr ((next_eq_some_iff.mp h).withLimit (Nat.lt_succ_self _))

theorem nextUnlimited_eq_none_iff : f.nextUnlimited bounds base visit = none ↔ f.queue = [] := by
  have hroom : ¬ f.visited.length + 1 ≤ f.visited.length := Nat.not_succ_le_self _
  rw [nextUnlimited, next_eq_none_iff]
  simp only [Bounds.withLimit, hroom, or_false]

/-! ## Traces -/

/-- Rounds lead from one frontier to another, and this was noted before them. -/
inductive Traced (next : Frontier σ → Option (Frontier σ)) (note : Frontier σ → Option α) :
    (noted : List α) → Frontier σ → Frontier σ → Prop
  | done (f : Frontier σ) : Traced next note [] f f
  | more {f g h : Frontier σ} {later : List α} (round : next f = some g)
      (rounds : Traced next note later g h) : Traced next note ((note f).toList ++ later) f h

namespace Traced

variable {next next' : Frontier σ → Option (Frontier σ)} {note : Frontier σ → Option α}
  {noted : List α}

theorem mono (hnext : ∀ f g, next f = some g → next' f = some g)
    (h : Traced next note noted f g) : Traced next' note noted f g := by
  induction h with
  | done f => exact .done f
  | more round rounds ih => exact .more (hnext _ _ round) ih

theorem goes_on {all : List α} {last : Frontier σ} (h : Traced next note noted f g)
    (hall : Traced next note all f last) (hend : next last = none) :
    ∃ rest, all = noted ++ rest ∧ Traced next note rest g last := by
  induction h generalizing all with
  | done => exact ⟨all, rfl, hall⟩
  | more round rounds ih =>
    cases hall with
    | done =>
      rw [round] at hend
      cases hend
    | more round' rounds' =>
      rw [round] at round'
      cases round'
      obtain ⟨rest, rfl, hrest⟩ := ih rounds'
      exact ⟨rest, by rw [List.append_assoc], hrest⟩

theorem eq_nil_of_none (h : Traced next note noted f g) (hnone : next f = none) :
    noted = [] ∧ g = f := by
  cases h with
  | done => exact ⟨rfl, rfl⟩
  | more round =>
    rw [hnone] at round
    cases round

end Traced

theorem Traced.leads {note : Frontier σ → Option α} {noted : List α}
    (h : Traced (next bounds base visit) note noted f g) : Leads bounds base visit f g := by
  induction h with
  | done => exact .refl
  | more round rounds ih => exact .head round ih

theorem traced_walk (bounds : Bounds) (base : String) (visit : Visit σ)
    (note : Frontier σ → Option α) (f : Frontier σ) :
    ∃ noted, Traced (next bounds base visit) note noted f (f.walk bounds base visit) ∧
      (f.walk bounds base visit).next bounds base visit = none := by
  fun_induction walk bounds base visit f with
  | case1 f hnone => exact ⟨[], .done f, hnone⟩
  | case2 f g hround ih =>
    obtain ⟨later, htraced, hnone⟩ := ih
    exact ⟨_, .more hround htraced, hnone⟩

theorem leads_walk_of_larger_limit (bounds : Bounds) (base : String) (visit : Visit σ)
    (hle : few ≤ many) (f : Frontier σ) :
    Leads (bounds.withLimit many) base visit (f.walk (bounds.withLimit few) base visit)
      (f.walk (bounds.withLimit many) base visit) := by
  have hnote : Frontier σ → Option Unit := fun _ => none
  obtain ⟨noted, hfew, -⟩ := traced_walk (bounds.withLimit few) base visit hnote f
  obtain ⟨all, hmany, hends⟩ := traced_walk (bounds.withLimit many) base visit hnote f
  obtain ⟨rest, -, hrest⟩ := (hfew.mono fun _ _ => next_of_larger_limit hle).goes_on hmany hends
  exact hrest.leads

end Frontier

namespace Crawler

open Run

variable {crawler : Crawler} {crawl : Json} {s t : Surroundings}
variable {f g : Frontier Surroundings} {pages : List Graph.NewPage} {maxPages : Json}
  {few many : Int}

/-! ## Pages that the graph takes up -/

def takenUp? (crawler : Crawler) (crawl : Json) (base : String) (bounds : Bounds)
    (f : Frontier Surroundings) : Option Graph.NewPage :=
  match f.queue with
  | [] => none
  | url :: _ =>
    if f.skips bounds base url then none
    else
      match crawler.asked? crawl url (depth url base) f.visited.length f.state with
      | none => none
      | some (new, t) => if (Graph.addPage new t).1.isOk then some new else none

theorem asked?_of_storePage {url : String} {depth count : Nat} {id : Json}
    (h : crawler.storePage crawl url (.ofNat depth) count s = (.ok id, t)) :
    ∃ new u, crawler.asked? crawl url depth count s = some (new, u) ∧
      (Graph.addPage new u).1 = .ok id := by
  obtain ⟨_, u, hload, h⟩ := exists_of_bind_ok h
  obtain ⟨⟨new, length⟩, v, hread, h⟩ := exists_of_bind_ok h
  obtain ⟨page, w, hadd, h⟩ := exists_of_bind_ok h
  obtain ⟨_, x, -, h⟩ := exists_of_bind_ok h
  cases h
  exact ⟨new, v, asked?_of_ok hload hread, congrArg Prod.fst hadd⟩

theorem length_visited_of_round (hpolite : crawler.Polite) {limit : Nat}
    (h : Frontier.Round (bounds.withLimit limit) base (crawler.visit crawl base) f g) :
    g.visited.length = f.visited.length + (crawler.takenUp? crawl base bounds f).toList.length := by
  cases h with
  | @skipped url queue waits room skips =>
    have hskips : f.skips bounds base url = true := skips
    simp [takenUp?, waits, hskips]
  | @failed url queue t waits room skips visits =>
    have hskips : f.skips bounds base url = false := skips
    have hnone : crawler.takenUp? crawl base bounds f = none := by
      simp only [takenUp?, waits, hskips]
      cases hasked : crawler.asked? crawl url (depth url base) f.visited.length f.state with
      | none => rfl
      | some asked =>
        obtain ⟨new, u⟩ := asked
        rcases hadd : Graph.addPage new u with ⟨fault | id, v⟩
        · simp [hadd, Except.isOk, Except.toBool]
        · -- a page that is taken up is visited, but this one was not
          obtain ⟨update, hstore⟩ := storePage_of_asked hpolite hasked hadd
          obtain ⟨w, hvisit, -⟩ := visit_of_ok base hstore
          rw [hvisit] at visits
          cases visits
    simp [hnone]
  | @stored url queue id links t waits room skips visits =>
    have hskips : f.skips bounds base url = false := skips
    rcases hstore : crawler.storePage crawl url (.ofNat (depth url base)) f.visited.length f.state
      with ⟨fault | id', u⟩
    · rw [visit_of_error hstore] at visits
      cases visits
    · obtain ⟨new, v, hasked, hadd⟩ := asked?_of_storePage hstore
      have htaken : crawler.takenUp? crawl base bounds f = some new := by
        simp [takenUp?, waits, hskips, hasked, hadd, Except.isOk, Except.toBool]
      simp [htaken]

theorem length_visited_of_traced (hpolite : crawler.Polite)
    (h : Frontier.Traced (Frontier.nextUnlimited bounds base (crawler.visit crawl base))
      (crawler.takenUp? crawl base bounds) pages f g) :
    g.visited.length = f.visited.length + pages.length := by
  induction h with
  | done => simp
  | more round =>
    have hround := length_visited_of_round hpolite (Frontier.next_eq_some_iff.mp round)
    simp only [List.length_append]
    omega

/-! ## The same crawler with another limit -/

def withMaxPages (crawler : Crawler) (maxPages : Json) : Crawler :=
  { crawler with
    settings := { crawler.settings with
      crawl := { crawler.settings.crawl with maxPages := maxPages } } }

def unlimited (crawler : Crawler) : Crawler := crawler.withMaxPages (.float (.infinite false))

/-! ## Preparations -/

theorem pos_of_opening {before : List String} {all : Nat}
    (h : crawler.opening base before s = (.ok (crawl, all), t)) : 0 < all := by
  obtain ⟨_, _, -, h⟩ := exists_of_bind_ok h
  obtain ⟨viewport, _, -, h⟩ := exists_of_bind_ok h
  obtain ⟨_, _, -, h⟩ := exists_of_bind_ok h
  obtain ⟨now, _, -, h⟩ := exists_of_bind_ok h
  cases h
  exact Nat.succ_pos _

theorem prepare_withMaxPages (crawler : Crawler) (base : String) (maxPages : Json)
    (s : Surroundings) :
    (crawler.withMaxPages maxPages).prepare base [] s =
      match crawler.opening base [] s with
      | (.error fault, t) => (.error fault, t)
      | (.ok (crawl, all), t) =>
        (((crawler.withMaxPages maxPages).bounds base [] all).map fun bounds => (crawl, bounds), t)
      := by
  have hopening : (crawler.withMaxPages maxPages).opening base [] = crawler.opening base [] := rfl
  rw [prepare, hopening]
  rcases hopened : crawler.opening base [] s with ⟨fault | ⟨crawl, all⟩, t⟩
  · rw [bind_of_error hopened]
  · rw [bind_of_ok hopened]
    dsimp only
    cases (crawler.withMaxPages maxPages).bounds base [] all <;> rfl

theorem bounds_withMaxPages {pages : Json.Magnitude} (hpages : maxPages.magnitude? = some pages)
    (crawler : Crawler) (base : String) (all : Nat) :
    (crawler.withMaxPages maxPages).bounds base [] all =
      match crawler.settings.crawl.maxDepth.magnitude? with
      | some depth => .ok (.ofMagnitudes all pages depth)
      | none =>
        if 0 < pageLimit all pages then
          .error (Json.notOrdered ">" (.ofNat (depth base base)) crawler.settings.crawl.maxDepth)
        else .ok (.ofMagnitudes all pages .undefined) := by
  simp only [Crawler.bounds, withMaxPages, hpages]
  cases crawler.settings.crawl.maxDepth.magnitude? with
  | some => rfl
  | none => by_cases hroom : 0 < pageLimit all pages <;> simp [Bounds.ofMagnitudes, hroom]

/-- With another limit a crawl begins in the same way.  It can be given up only if
it was before, or if there was room for no page then. -/
theorem prepare_of_other_limit {maxPages' : Json} {pages pages' : Json.Magnitude}
    (hpages : maxPages.magnitude? = some pages) (hpages' : maxPages'.magnitude? = some pages')
    (hmore : ∀ all, 0 < all → 0 < pageLimit all pages → 0 < pageLimit all pages')
    (crawler : Crawler) (base : String) (s : Surroundings) :
    match (crawler.withMaxPages maxPages).prepare base [] s with
    | (.error _, t) =>
      ∃ fault, (crawler.withMaxPages maxPages').prepare base [] s = (.error fault, t)
    | (.ok (crawl, bounds), t) =>
      (∃ limit, (crawler.withMaxPages maxPages').prepare base [] s =
        (.ok (crawl, bounds.withLimit limit), t)) ∨
      bounds.limit = 0 ∧
        ∃ fault, (crawler.withMaxPages maxPages').prepare base [] s = (.error fault, t) := by
  rw [prepare_withMaxPages, prepare_withMaxPages]
  rcases hopened : crawler.opening base [] s with ⟨fault | ⟨crawl, all⟩, t⟩
  · exact ⟨fault, rfl⟩
  · simp only [bounds_withMaxPages hpages, bounds_withMaxPages hpages']
    cases crawler.settings.crawl.maxDepth.magnitude? with
    | some => exact Or.inl ⟨pageLimit all pages', rfl⟩
    | none =>
      have hroom := hmore all (pos_of_opening hopened)
      by_cases hfew : 0 < pageLimit all pages
      · simp only [hfew, hroom hfew, if_true, Except.map]
        exact ⟨_, rfl⟩
      · by_cases hmany : 0 < pageLimit all pages'
        · simp only [hfew, hmany, if_true, if_false, Except.map]
          exact Or.inr ⟨Nat.eq_zero_of_not_pos hfew, _, rfl⟩
        · simp only [hfew, hmany, if_false, Except.map]
          exact Or.inl ⟨pageLimit all pages', rfl⟩

/-! ## What a crawl records -/

/-- A new crawl ends, in its preparations or when no round is left, and these are
the pages that the graph has taken up by then, in this order. -/
inductive Records (crawler : Crawler)
    (next : Bounds → String → Visit Surroundings → Frontier Surroundings →
      Option (Frontier Surroundings)) (base : String) (s : Surroundings) :
    List Graph.NewPage → Prop
  | halted {fault : Fault} {t : Surroundings}
      (failed : crawler.prepare base [] s = (.error fault, t)) : Records crawler next base s []
  | walked {crawl : Json} {bounds : Bounds} {t : Surroundings} {pages : List Graph.NewPage}
      {done : Frontier Surroundings}
      (prepared : crawler.prepare base [] s = (.ok (crawl, bounds), t))
      (rounds : Frontier.Traced (next bounds base (crawler.visit crawl base))
        (crawler.takenUp? crawl base bounds) pages (start base [] t) done)
      (ends : next bounds base (crawler.visit crawl base) done = none) :
      Records crawler next base s pages

theorem exists_records (crawler : Crawler) (base : String) (s : Surroundings) :
    ∃ pages, crawler.Records Frontier.next base s pages := by
  rcases hprepare : crawler.prepare base [] s with ⟨fault | ⟨crawl, bounds⟩, t⟩
  · exact ⟨[], .halted hprepare⟩
  · obtain ⟨pages, hrounds, hends⟩ := Frontier.traced_walk bounds base (crawler.visit crawl base)
      (crawler.takenUp? crawl base bounds) (start base [] t)
    exact ⟨pages, .walked hprepare hrounds hends⟩

theorem limit_of_prepare {maxPages : Int}
    (h : (crawler.withMaxPages (.int maxPages)).prepare base [] s = (.ok (crawl, bounds), t)) :
    bounds = bounds.withLimit maxPages.toNat := by
  obtain ⟨all, hbounds⟩ := bounds_of_prepare h
  have hlimit := limit_of_bounds hbounds rfl
  rw [Bounds.withLimit, ← hlimit]

theorem magnitude?_int (n : Int) : Json.magnitude? (.int n) = some (.ratio n 1) := rfl

theorem pageLimit_pos_of_le (hle : few ≤ many) (all : Nat) (h : 0 < pageLimit all (.ratio few 1)) :
    0 < pageLimit all (.ratio many 1) := by
  simp only [pageLimit] at h ⊢
  omega

theorem Records.isPrefix (hle : few ≤ many) {pages' : List Graph.NewPage}
    (h : (crawler.withMaxPages (.int few)).Records Frontier.next base s pages)
    (h' : (crawler.withMaxPages (.int many)).Records Frontier.next base s pages') :
    pages <+: pages' := by
  cases h with
  | halted => exact List.nil_prefix
  | @walked crawl bounds t _ done prepared rounds ends =>
    have hagain := prepare_of_other_limit (magnitude?_int few) (magnitude?_int many)
      (fun all _ => pageLimit_pos_of_le hle all) crawler base s
    rw [prepared] at hagain
    rcases hagain with ⟨limit, hprepared⟩ | ⟨hzero, -⟩
    · cases h' with
      | halted failed =>
        rw [hprepared] at failed
        cases failed
      | @walked crawl' bounds' t' _ done' prepared' rounds' ends' =>
        rw [limit_of_prepare prepared'] at rounds' ends'
        rw [limit_of_prepare prepared] at rounds
        rw [hprepared] at prepared'
        cases prepared'
        have hmany := rounds.mono fun f g =>
          Frontier.next_of_larger_limit (Int.toNat_le_toNat hle)
        obtain ⟨rest, rfl, -⟩ := hmany.goes_on rounds' ends'
        exact List.prefix_append _ _
    · have hnone : (start base [] t).next bounds base
          ((crawler.withMaxPages (.int few)).visit crawl base) = none :=
        Frontier.next_eq_none_iff.mpr (Or.inr (by simp [hzero]))
      rw [(rounds.eq_nil_of_none hnone).1]
      exact List.nil_prefix

theorem Records.length_eq {limit : Int} (hpolite : crawler.Polite) (hlimit : 0 ≤ limit)
    {all : List Graph.NewPage}
    (h : (crawler.withMaxPages (.int limit)).Records Frontier.next base s pages)
    (hall : crawler.unlimited.Records Frontier.nextUnlimited base s all) :
    (pages.length : Int) = min limit all.length := by
  have hagain := prepare_of_other_limit (magnitude?_int limit)
    (show Json.magnitude? (.float (.infinite false)) = some (.infinite false) from rfl)
    (fun all hall _ => hall) crawler base s
  cases h with
  | halted failed =>
    rw [failed] at hagain
    obtain ⟨fault, hfailed⟩ := hagain
    cases hall with
    | halted =>
      rw [List.length_nil]
      omega
    | walked prepared' =>
      rw [unlimited, hfailed] at prepared'
      cases prepared'
  | @walked crawl bounds t _ done prepared rounds ends =>
    have hbounds : bounds.limit = limit.toNat := congrArg Bounds.limit (limit_of_prepare prepared)
    have hpages : Frontier.Traced (Frontier.nextUnlimited bounds base (crawler.visit crawl base))
        (crawler.takenUp? crawl base bounds) pages (start base [] t) done :=
      rounds.mono fun f g => Frontier.nextUnlimited_of_next
    have hcount : done.visited.length = pages.length := by
      simpa [start] using length_visited_of_traced hpolite hpages
    have hfew := rounds.leads.length_visited_le (Nat.zero_le _)
    rw [prepared] at hagain
    rcases hagain with ⟨other, hprepared⟩ | ⟨hzero, fault, hfailed⟩
    · cases hall with
      | halted failed' =>
        rw [unlimited, hprepared] at failed'
        cases failed'
      | @walked crawl' bounds' t' _ last prepared' rounds' ends' =>
        rw [unlimited, hprepared] at prepared'
        cases prepared'
        obtain ⟨rest, rfl, hrest⟩ := hpages.goes_on rounds' ends'
        rw [List.length_append]
        -- the crawl ends because no address waits, and then there is no more, or at its limit
        rcases Frontier.next_eq_none_iff.mp ends with hqueue | hfull
        · have hnone := (hrest.eq_nil_of_none (Frontier.nextUnlimited_eq_none_iff.mpr hqueue)).1
          rw [hnone, List.length_nil]
          omega
        · omega
    · cases hall with
      | halted =>
        omega
      | walked prepared' =>
        rw [unlimited, hfailed] at prepared'
        cases prepared'

/-! ## Where a crawl goes -/

/-- Whoever hears of the progress takes back nothing that was done. -/
def Appends (crawler : Crawler) : Prop :=
  ∀ notify, crawler.notify = some notify →
    ∀ update, Keeps (Logs fun _ => True) (notify update)

theorem Appends.visit (h : crawler.Appends) (crawl : Json) (base : String)
    (visited : List String) (url : String) (depth : Nat) (s : Surroundings) :
    Logs (fun _ => True) s (crawler.visit crawl base visited url depth s).2 := by
  refine keeps_visit (fun update => ?_) ?_ (fun _ _ hst => ?_) crawl base visited depth s
  · exact keeps_report h update
  · intro s
    rw [goto_apply]
    exact ⟨[_], rfl, fun _ _ => trivial⟩
  · exact Logs.mono hst.log fun _ _ => trivial

theorem Appends.logs_of_leads (h : crawler.Appends)
    (hleads : Frontier.Leads bounds base (crawler.visit crawl base) f g) :
    Logs (fun _ => True) f.state g.state :=
  hleads.related (h.visit crawl base)

theorem addressesIn_of_logs {allowed : Event → Prop} (h : Logs allowed s t) :
    addressesIn s.log <:+ addressesIn t.log := by
  obtain ⟨new, hlog, -⟩ := h
  rw [hlog, addressesIn, addressesIn, List.filterMap_append]
  exact List.suffix_append _ _

theorem addressesIn_of_offstage (h : Offstage s t) : addressesIn t.log = addressesIn s.log := by
  obtain ⟨new, hlog, hnew⟩ := h
  have hnone : new.filterMap Event.address? = [] := by
    refine List.filterMap_eq_nil_iff.mpr fun event hevent => ?_
    have hoffstage := hnew event hevent
    cases event <;> simp [Event.address?, Event.isOffstage] at hoffstage ⊢
  rw [hlog, addressesIn, List.filterMap_append, hnone]
  rfl

theorem Appends.addressesIn_suffix (happends : crawler.Appends) (hle : few ≤ many)
    {u u' : Surroundings} (h : (crawler.withMaxPages (.int few)).Course base [] s u)
    (h' : (crawler.withMaxPages (.int many)).Course base [] s u') :
    addressesIn u.log <:+ addressesIn u'.log := by
  have hagain := prepare_of_other_limit (magnitude?_int few) (magnitude?_int many)
    (fun all _ => pageLimit_pos_of_le hle all) crawler base s
  cases h with
  | halted failed =>
    rw [failed] at hagain
    obtain ⟨fault, hfailed⟩ := hagain
    cases h' with
    | halted failed' =>
      rw [hfailed] at failed'
      cases failed'
      exact List.suffix_refl _
    | walked prepared' =>
      rw [hfailed] at prepared'
      cases prepared'
  | @walked crawl bounds t prepared ends =>
    rw [addressesIn_of_offstage ends.offstage]
    rw [prepared] at hagain
    rcases hagain with ⟨limit, hprepared⟩ | ⟨hzero, fault, hfailed⟩
    · cases h' with
      | halted failed' =>
        rw [hprepared] at failed'
        cases failed'
      | @walked crawl' bounds' t' prepared' ends' =>
        rw [addressesIn_of_offstage ends'.offstage, limit_of_prepare prepared,
          limit_of_prepare prepared']
        rw [hprepared] at prepared'
        cases prepared'
        exact addressesIn_of_logs (happends.logs_of_leads
          (Frontier.leads_walk_of_larger_limit bounds base (crawler.visit crawl base)
            (Int.toNat_le_toNat hle) (start base [] t)))
    · -- there is no room for a page, and so nothing to walk
      have hnone : (Frontier.after bounds base
          ((crawler.withMaxPages (.int few)).visit crawl base) 0 (start base [] t)).next bounds base
            ((crawler.withMaxPages (.int few)).visit crawl base) = none :=
        Frontier.next_eq_none_iff.mpr (Or.inr (by simp [hzero]))
      rw [Frontier.walk_eq_after hnone]
      cases h' with
      | halted failed' =>
        rw [hfailed] at failed'
        cases failed'
        exact List.suffix_refl _
      | walked prepared' =>
        rw [hfailed] at prepared'
        cases prepared'

/-! ## Two crawls -/

/-- Of two new crawls that differ only in their limit, the one with the smaller
limit goes to the first of the addresses that the other goes to, and the graph
takes up the first of its pages: so many as the limit says, or all that there are
without a limit. -/
theorem crawl_of_smaller_limit (hpolite : crawler.Polite) (happends : crawler.Appends)
    {few many : Int} (hle : few ≤ many) (address : String) (s : Surroundings) :
    let base := Text.trimEnd (· = '/') address
    (addressesIn ((crawler.withMaxPages (.int few)).crawl address [] s).2.log).reverse <+:
        (addressesIn ((crawler.withMaxPages (.int many)).crawl address [] s).2.log).reverse ∧
      (∀ limit, ∃ pages, (crawler.withMaxPages (.int limit)).Records Frontier.next base s pages) ∧
      ∀ pages pages', (crawler.withMaxPages (.int few)).Records Frontier.next base s pages →
        (crawler.withMaxPages (.int many)).Records Frontier.next base s pages' →
        pages <+: pages' ∧
          ∀ all, crawler.unlimited.Records Frontier.nextUnlimited base s all → 0 ≤ few →
            (pages.length : Int) = min few all.length := by
  intro base
  refine ⟨?_, fun limit => exists_records _ base s, fun pages pages' hpages hpages' => ?_⟩
  · have hfew := course_of_crawl (crawler.withMaxPages (.int few)) address [] s
    have hmany := course_of_crawl (crawler.withMaxPages (.int many)) address [] s
    rw [List.eraseDups_nil] at hfew hmany
    exact List.reverse_prefix.mpr (happends.addressesIn_suffix hle hfew hmany)
  · exact ⟨hpages.isPrefix hle hpages', fun all hall hzero => hpages.length_eq hpolite hzero hall⟩

/-! ## A site that fails once -/

def moodyWeb : Web where
  page? log url :=
    let near := if url = "https://shop.com" then "https://shop.com/a" else "https://shop.com/b"
    if visitsIn log = 3 then none
    else some { WebPage.blank with hrefs := .texts [near, "https://shop.com/a/b/c"] }
  size := 4

def moodySurroundings : Surroundings := { sampleSurroundings moodyWeb with store := obliging }

theorem shopCrawler_appends : shopCrawler.Appends := by
  intro notify hnotify update
  cases hnotify
  exact logs_record trivial

theorem records_moody_unlimited :
    ∃ all, shopCrawler.unlimited.Records Frontier.nextUnlimited "https://shop.com"
      moodySurroundings all ∧ all.length = 4 := by
  have hrun : (match shopCrawler.unlimited.prepare "https://shop.com" [] moodySurroundings with
      | (.error _, _) => false
      | (.ok (crawl, bounds), t) =>
        let visit := shopCrawler.visit crawl "https://shop.com"
        let done := Frontier.after (bounds.withLimit 9) "https://shop.com" visit 5
          (start "https://shop.com" [] t)
        done.queue.isEmpty && done.visited.length == 4) = true := by
    decide +kernel
  rcases hprepare : shopCrawler.unlimited.prepare "https://shop.com" [] moodySurroundings with
    ⟨fault | ⟨crawl, bounds⟩, t⟩
  · simp [hprepare] at hrun
  · simp only [hprepare, Bool.and_eq_true, List.isEmpty_iff, beq_iff_eq] at hrun
    obtain ⟨all, hrounds, -⟩ := Frontier.traced_walk (bounds.withLimit 9) "https://shop.com"
      (shopCrawler.visit crawl "https://shop.com")
      (shopCrawler.takenUp? crawl "https://shop.com" bounds) (start "https://shop.com" [] t)
    rw [Frontier.walk_eq_after (Frontier.next_eq_none_iff.mpr (Or.inl hrun.1))] at hrounds
    have hunlimited := hrounds.mono fun f g => Frontier.nextUnlimited_of_next
    have hpolite : shopCrawler.Polite := sample_polite
    have hcount := length_visited_of_traced hpolite hunlimited
    rw [hrun.2] at hcount
    refine ⟨all, .walked hprepare hunlimited (Frontier.nextUnlimited_eq_none_iff.mpr hrun.1), ?_⟩
    simpa [start] using hcount.symm

theorem crawl_of_smaller_limit_moody :
    shopCrawler.Polite ∧ shopCrawler.Appends ∧
      (addressesIn ((shopCrawler.withMaxPages (.int 2)).crawl "https://shop.com" []
          moodySurroundings).2.log).reverse <+:
        (addressesIn ((shopCrawler.withMaxPages (.int 5)).crawl "https://shop.com" []
          moodySurroundings).2.log).reverse ∧
      ∃ pages, (shopCrawler.withMaxPages (.int 2)).Records Frontier.next "https://shop.com"
        moodySurroundings pages ∧ pages.length = 2 := by
  have hpolite : shopCrawler.Polite := sample_polite
  have hbase : Text.trimEnd (· = '/') "https://shop.com" = "https://shop.com" := by decide +kernel
  obtain ⟨haddresses, hexists, hrecords⟩ := crawl_of_smaller_limit hpolite shopCrawler_appends
    (show (2 : Int) ≤ 5 by decide) "https://shop.com" moodySurroundings
  rw [hbase] at hexists hrecords
  obtain ⟨pages, hpages⟩ := hexists 2
  obtain ⟨pages', hpages'⟩ := hexists 5
  obtain ⟨all, hall, hfour⟩ := records_moody_unlimited
  have hlength := (hrecords pages pages' hpages hpages').2 all hall (by decide)
  refine ⟨hpolite, shopCrawler_appends, haddresses, pages, hpages, ?_⟩
  omega

end Crawler

end Sitecheck.Crawl
