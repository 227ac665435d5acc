import Sitecheck.Proofs.Server.Reload
import Sitecheck.Proofs.Server.Settings

/-!
# Changes that the settings file takes up

As long as nobody else writes to the settings file, a request for other crawl settings
that succeeds is seen by everyone: the new values are shown, the next crawler works with
them, and in the file they stand in place of the old ones while all else is as it was.
-/

namespace Sitecheck.Server

variable {fields : List (String × Json)} {crawler : Crawl.Crawler} {directories : List String}
  {u : Surroundings}

open Run

variable {s t : Surroundings} {live : Settings.Live} {first : Settings}

/-! ## Surroundings in which the settings are the same -/

theorem filePath_eq : Settings.filePath = ⟨.working, ["config", "config.json"]⟩ := by
  decide +kernel

theorem names_filePath :
    Disk.refusal? Settings.filePath = none ∧ Disk.AreNames Settings.filePath.parts := by
  rw [filePath_eq, Disk.AreNames]
  decide +kernel

theorem start_filePath (disk : Disk) : disk.start Settings.filePath = disk.home := by
  rw [filePath_eq]
  rfl

/-- The variables and the settings file are the same, and every directory is one still. -/
structure Calm (s t : Surroundings) : Prop where
  environment : t.environment = s.environment
  stands : s.disk.Stands t.disk
  file : ∀ text, t.disk.read Settings.filePath = .ok text ↔ s.disk.read Settings.filePath = .ok text

instance : IsPreorder Surroundings Calm where
  refl _ := ⟨rfl, (Disk.Grown.refl _).toStands, fun _ => .rfl⟩
  trans _ _ _ hst htu :=
    ⟨htu.environment.trans hst.environment, hst.stands.trans htu.stands,
      fun text => (htu.file text).trans (hst.file text)⟩

theorem Calm.holds (h : Calm s t) (hholds : Settings.Holds t.disk fields) :
    Settings.Holds s.disk fields := by
  obtain ⟨text, hread, hparse⟩ := hholds
  exact ⟨text, (h.file text).mp hread, hparse⟩

theorem calm_of_grown (henvironment : t.environment = s.environment) (hdisk : s.disk.Grown t.disk) :
    Calm s t :=
  ⟨henvironment, hdisk.toStands, hdisk.read_names names_filePath.1 names_filePath.2⟩

theorem calm_of_settled {allowed : Event → Prop} (h : Settled allowed s t) : Calm s t :=
  calm_of_grown h.environment h.disk

theorem calm_of_queried (h : Queried s t) : Calm s t := by
  obtain ⟨store, log, rfl⟩ := h
  exact calm_of_grown rfl (.refl _)

theorem calm_of_keeps {α : Type} {action : Run α} (h : Keeps (Settled fun _ => True) action) :
    Keeps Calm action :=
  h.mono fun _ _ => calm_of_settled

theorem calm_modify {f : Surroundings → Surroundings}
    (h : ∀ s, (f s).disk = s.disk ∧ (f s).environment = s.environment) :
    Keeps Calm (modify f : Run PUnit) := by
  intro s
  obtain ⟨hdisk, henvironment⟩ := h s
  refine calm_of_grown henvironment ?_
  rw [modify_apply, hdisk]
  exact .refl _

theorem calm_current : Keeps Calm Settings.current := by
  refine Keeps.get.bind fun s => ?_
  split
  · exact Keeps.pure _
  · refine (Settings.consults_load none).reads.keeps.bind fun settings => Keeps.bind ?_ fun _ => ?_
    · exact calm_modify fun _ => ⟨rfl, rfl⟩
    · exact Keeps.bind (Keeps.forM fun directory => calm_of_keeps (settled_makeDirectory _)) fun _ => Keeps.pure _

theorem calm_settings : Keeps Calm settings := by
  refine Keeps.get.bind fun s => ?_
  cases s.server with
  | some => exact Keeps.pure _
  | none => exact calm_current

theorem calm_newCrawler (notify : Option (Json → Run Unit)) : Keeps Calm (newCrawler notify) := by
  have hopen : Keeps Calm openGraph :=
    calm_settings.bind fun live => (queried_connect _).mono fun _ _ => calm_of_queried
  refine hopen.bind fun _ => consults_generator?.reads.keeps.bind fun generator => ?_
  exact calm_current.bind fun live => Keeps.pure _

theorem calm_crawlerFor (changes : Json) : Keeps Calm (crawlerFor changes) := by
  have hsupply : Keeps Calm (supply changes) :=
    closed_supply Keeps.closed calm_settings (fun _ => calm_modify fun _ => ⟨rfl, rfl⟩) changes
  refine (calm_newCrawler _).bind fun crawler => hsupply.bind fun _ => ?_
  exact calm_current.bind fun live => Keeps.pure _

def Sends (crawler : Crawl.Crawler) : Prop :=
  crawler.notify = none ∨ crawler.notify = some fun update => Run.record (.sent update)

theorem Sends.handsOff (h : Sends crawler) : crawler.HandsOff :=
  h.elim handsOff_of_none handsOff_of_sent

theorem Sends.calm_visit (h : Sends crawler) (crawl : Json) (base : String) (visited : List String)
    (url : String) (depth : Nat) (s : Surroundings) :
    Calm s (crawler.visit crawl base visited url depth s).2 := by
  have hreport (update : List (String × Json)) : Keeps Calm (crawler.report update) := by
    unfold Crawl.Crawler.report
    rcases h with hnone | hsent
    · rw [hnone]
      exact Keeps.pure _
    · rw [hsent]
      exact calm_of_keeps (settled_record trivial)
  have hgoto : Keeps Calm (goto url crawler.settings.crawl.timeout (some "domcontentloaded")) := by
    intro s
    rw [goto_apply]
    exact calm_of_grown rfl (.refl _)
  exact Crawl.Crawler.keeps_visit hreport hgoto (fun _ _ => calm_of_settled) crawl base visited depth s

/-! ## The directories in which things are kept -/

def makeDirectories (directories : List String) : Run PUnit :=
  directories.forM fun directory => Run.makeDirectory (.ofText directory)

theorem makeDirectories_of_hasDirectory
    (h : ∀ directory ∈ directories, s.disk.HasDirectory (.ofText directory)) :
    makeDirectories directories s = (.ok ⟨⟩, s) := by
  induction directories with
  | nil => rfl
  | cons directory directories ih =>
    obtain ⟨hdirectory, hrest⟩ := List.forall_mem_cons.mp h
    have hmake : makeDirectory (.ofText directory) s = (.ok (), s) := by
      rw [makeDirectory_apply, Disk.makeDirectory_of_hasDirectory hdirectory]
    exact (bind_of_ok hmake).trans (ih hrest)

theorem settled_makeDirectories (directories : List String) :
    Keeps (Settled fun _ => True) (makeDirectories directories) :=
  Keeps.forM fun _ => settled_makeDirectory _

theorem hasDirectory_of_makeDirectories
    (hstart : ∀ path, ∃ entries, s.disk.entry? (s.disk.start path) = some (.directory entries))
    (h : makeDirectories directories s = (.ok ⟨⟩, t)) :
    ∀ directory ∈ directories, t.disk.HasDirectory (.ofText directory) := by
  induction directories generalizing s with
  | nil => simp
  | cons directory directories ih =>
    obtain ⟨_, u, hmake, hrest⟩ := exists_of_bind_ok h
    obtain ⟨hresult, hdisk⟩ := makeDirectory_cases hmake
    have hgrown : s.disk.Grown u.disk := hdisk ▸ Disk.grown_makeDirectory _ s.disk
    have hlater : u.disk.Grown t.disk := ((settled_makeDirectories directories).of_eq hrest).disk
    -- the others only add to the disk, so the directory stays and so do the places to start
    refine List.forall_mem_cons.mpr ⟨?_, ih (fun path => ?_) hrest⟩
    · obtain ⟨entries, hentries⟩ := hstart (.ofText directory)
      have hmade := Disk.hasDirectory_of_makeDirectory hentries hresult
      rw [hdisk] at hmade
      exact hmade.of_stands hlater.toStands
    · obtain ⟨entries, hentries⟩ := hstart path
      rw [hgrown.start]
      exact hgrown.directory hentries

theorem start_of_holds (h : Settings.Holds s.disk fields) (path : Path) :
    ∃ entries, s.disk.entry? (s.disk.start path) = some (.directory entries) := by
  obtain ⟨text, hread, -⟩ := h
  obtain ⟨found, hfound, -⟩ := (Disk.read_names_iff names_filePath.1 names_filePath.2).mp hread
  rw [start_filePath, filePath_eq] at hfound
  -- the way to the file leads through the home directory, and that to it through the root
  obtain ⟨entries, hhome⟩ := Disk.directory_of_entry? hfound
  unfold Disk.start
  split
  · cases hplaces : s.disk.home with
    | nil => exact ⟨entries, hplaces ▸ hhome⟩
    | cons name places =>
      rw [hplaces] at hhome
      have hplace : s.disk.entry? ([] ++ name :: places) = some (.directory entries) := hhome
      exact Disk.directory_of_entry? hplace
  · exact ⟨entries, hhome⟩

/-! ## A change that is taken up -/

variable {request : Request} {change : CrawlChange} {fields : List (String × Json)}

/-- The settings file has taken up a change, and the server too; no settings are at hand. -/
structure Taken (live : Settings.Live) (change : CrawlChange) (fields : List (String × Json))
    (s t : Surroundings) : Prop where
  server : t.server = some { live with crawl := requestedCrawl live.crawl change }
  cache : t.cache = .empty
  environment : t.environment = s.environment
  stands : s.disk.Stands t.disk
  file : t.disk.read Settings.filePath = .ok (Settings.textAfter "crawler" change.fields fields)
  document : Json.parse (Settings.textAfter "crawler" change.fields fields) =
    .ok (.obj (Settings.membersAfter "crawler" change.fields fields))

theorem Taken.holds (h : Taken live change fields s t) :
    Settings.Holds t.disk (Settings.membersAfter "crawler" change.fields fields) :=
  ⟨_, h.file, h.document⟩

theorem taken_of_takes (hserver : s.server = some live)
    (hplain : ∀ text, s.disk.read Settings.filePath = .ok text → Text.Plain text.toList)
    (haccepted : Accepted request change) (h : Settings.Takes s.disk "crawler" fields) :
    Taken live change fields s (changeSettings change s).2 := by
  obtain ⟨location, found, hplace, hentry, hchange⟩ := changeSettings_of_takes hserver h (writable_of_accepted haccepted)
  obtain ⟨text, hread, hparse⟩ := h.document
  -- a document that was read can be written and read again, and so can the values of a request
  have hkept : Json.Kept Json.maxDepth
      (.obj (Settings.membersAfter "crawler" change.fields fields)) :=
    Settings.kept_membersAfter 983 (by decide) (nodup_fields change)
      (kept_fields (writable_of_accepted haccepted) _) (Json.kept_of_parse (hplain text hread) hparse)
  have hreturns := Json.not_mem_pretty (c := '\r') hkept.bounded.regular rfl
  have hnot (entries : List (String × Entry)) :
      s.disk.entry? location ≠ some (.directory entries) := by
    rw [hentry]
    simp
  rw [hchange]
  exact
    { server := rfl
      cache := rfl
      environment := rfl
      stands := Disk.stands_put hnot _
      file := Settings.read_put (by decide +kernel) hplace hentry hreturns
      document := hkept.parse_pretty }

theorem Taken.crawlSettings (h : Taken live change fields s t)
    (htakes : Settings.Takes s.disk "crawler" fields) {v : Surroundings} {found : Settings.Live}
    (hconsulted : Consulted u v) (hfound : v.cache.read? v.server = some found)
    (hdisk : u.disk = t.disk) (hcache : u.cache = .empty) :
    crawlSettings found.crawl = change.toJson := by
  obtain ⟨text, -, hparse⟩ := htakes.document
  -- no settings were at hand, so they come from the file
  rcases hconsulted.cache with hsame | ⟨-, filed, hfiled, w, settings, hw, -, hload, rfl⟩
  · rw [hsame, hcache] at hfound
    cases hfound
  · rw [hfiled] at hfound
    cases hfound
    have hholds : Settings.Holds w.disk (Settings.membersAfter "crawler" change.fields fields) := by
      rw [hw, hdisk]
      exact h.holds
    rw [Settings.load_of_holds hholds] at hload
    exact crawlSettings_of_ofDocument (Json.bounded_of_parse hparse) htakes.opened hload

/-! ## A server in use -/

/-- A server that is about to start: no settings are at hand, and the settings file, if it
can be read, is a plain text. -/
structure Fresh (s : Surroundings) : Prop where
  cache : s.cache = .empty
  plain : ∀ text, s.disk.read Settings.filePath = .ok text → Text.Plain text.toList

/-- What can happen at a server whose settings file nobody else writes to: someone asks
for other settings, a crawler is made for a request or for a message, a crawler visits a
page, and anyone does work that leaves the settings and what they are read from alone. -/
inductive Passes (s : Surroundings) : Surroundings → Prop
  | requests {request : Request}
      (routed : Routing.ofRequest request.method request.path = .found .changeSettings) :
      Passes s (respond request s).2
  | crawls : Passes s (newCrawler none s).2
  | watches (settings : Json) : Passes s (crawlerFor settings s).2
  | visits {crawler : Crawl.Crawler} (sends : Sends crawler) (crawl : Json) (base : String)
      (visited : List String) (url : String) (depth : Nat) :
      Passes s (crawler.visit crawl base visited url depth s).2
  | works {t : Surroundings} (same : SameSettings s t) (calm : Calm s t) : Passes s t

def Serves (s : Surroundings) : Prop :=
  ∃ before opened, Fresh before ∧ start before = (.ok (), opened) ∧
    Relation.ReflTransGen Passes opened s

/-- What holds of a server at all times.  As long as the settings name no other place, they
can be read from the file, and the directories in which things are kept are there. -/
structure Steady (first : Settings) (s : Surroundings) : Prop where
  server : ∃ crawl, s.server = some ⟨first, crawl⟩
  plain : ∀ text, s.disk.read Settings.filePath = .ok text → Text.Plain text.toList
  readable : ∀ fields, Settings.Holds s.disk fields → Settings.NamesNoPlace fields →
    ∃ settings, Settings.ofDocument (.obj fields) s = (.ok settings, s) ∧
      settings.storage = first.storage
  made : ∀ fields, Settings.Holds s.disk fields → ∀ directory ∈ first.storage.directories,
    s.disk.HasDirectory (.ofText directory)

/-! ## What a step keeps -/

theorem readable_of_environment {settings : Settings} (hholds : Settings.Holds s.disk fields)
    (hplace : Settings.NamesNoPlace fields) (henvironment : t.environment = s.environment)
    (h : Settings.ofDocument (.obj fields) s = (.ok settings, s)) :
    ∃ crawl, Settings.ofDocument (.obj fields) t = (.ok { settings with crawl := crawl }, t) := by
  obtain ⟨text, -, hparse⟩ := hholds
  obtain ⟨hnodup, -⟩ := Settings.nodup_of_bounded "crawler" (Json.bounded_of_parse hparse)
  exact Settings.ofDocument_of_sameBut hnodup hnodup hplace (fun _ _ => rfl)
    (fun _ value crawl hvalue hread => ⟨value, crawl, hvalue, hread⟩) henvironment h

theorem Steady.calm (h : Steady first s) (hcalm : Calm s t)
    (hserver : ∃ crawl, t.server = some ⟨first, crawl⟩) : Steady first t := by
  refine ⟨hserver, fun text hread => h.plain text ((hcalm.file text).mp hread), ?_, ?_⟩
  · intro fields hfields hplace
    obtain ⟨settings, hread, hstorage⟩ := h.readable fields (hcalm.holds hfields) hplace
    obtain ⟨crawl, hagain⟩ :=
      readable_of_environment (hcalm.holds hfields) hplace hcalm.environment hread
    exact ⟨_, hagain, hstorage⟩
  · intro fields hfields directory hdirectory
    exact (h.made fields (hcalm.holds hfields) directory hdirectory).of_stands hcalm.stands

theorem Steady.taken (h : Steady first s) (hserver : s.server = some live)
    (htakes : Settings.Takes s.disk "crawler" fields) (htaken : Taken live change fields s t) :
    Steady first t := by
  have hregular : Json.Regular (.obj (Settings.membersAfter "crawler" change.fields fields)) :=
    (Json.bounded_of_parse htaken.document).regular
  obtain ⟨text, -, hparse⟩ := htakes.document
  have hbounded := Json.bounded_of_parse hparse
  obtain ⟨crawl, hfirst⟩ := h.server
  obtain rfl : live = ⟨first, crawl⟩ := Option.some.inj (hserver.symm.trans hfirst)
  refine ⟨⟨_, htaken.server⟩, fun text hread => ?_, fun fields' hfields hplace => ?_, ?_⟩
  · rw [htaken.file] at hread
    cases hread
    exact Text.plain_of_not_mem (Json.not_mem_pretty hregular (by decide))
  · obtain rfl := htaken.holds.unique hfields
    have hsame := Settings.sameBut_membersAfter "crawler" change.fields fields
    have hplace' : Settings.NamesNoPlace fields :=
      hplace.of_sameBut (by decide) fun key hkey => (hsame key hkey).symm
    obtain ⟨settings, hread, hstorage⟩ := h.readable fields htakes.document hplace'
    obtain ⟨crawl, hagain⟩ := ofDocument_membersAfter change hbounded htakes.opened hplace'
      htaken.environment hread
    exact ⟨_, hagain, hstorage⟩
  · intro fields' _ directory hdirectory
    exact (h.made fields htakes.document directory hdirectory).of_stands htaken.stands

theorem Steady.changeSettings (h : Steady first s) (haccepted : Accepted request change) :
    Steady first (changeSettings change s).2 := by
  obtain ⟨crawl, hserver⟩ := h.server
  by_cases htakes : ∃ fields, Settings.Takes s.disk "crawler" fields
  · obtain ⟨fields, htakes⟩ := htakes
    exact h.taken hserver htakes (taken_of_takes hserver h.plain haccepted htakes)
  · obtain ⟨fault, hchange⟩ := changeSettings_of_not_takes hserver (not_exists.mp htakes) change
    rw [hchange]
    exact h.calm (calm_of_grown rfl (.refl _)) ⟨_, rfl⟩

theorem Steady.passes (h : Steady first s) (hpasses : Passes s t) : Steady first t := by
  obtain ⟨crawl, hserver⟩ := h.server
  cases hpasses with
  | @requests request routed =>
    rcases respond_cases routed s with ⟨change, haccepted⟩ | ⟨answer, hrefused, -⟩
    · rw [respond_of_accepted haccepted]
      exact h.changeSettings haccepted
    · rw [hrefused]
      exact h
  | crawls =>
    obtain ⟨hconsulted, -⟩ := newCrawler_cases hserver (Prod.eta (newCrawler none s)).symm
    exact h.calm (calm_newCrawler none s) ⟨crawl, hconsulted.server.trans hserver⟩
  | watches settings =>
    refine h.calm (calm_crawlerFor settings s) ?_
    rcases hresult : crawlerFor settings s with ⟨fault | crawler, u⟩
    · exact ⟨crawl, ((crawlerFor_cases hserver hresult).1 fault rfl).server.trans hserver⟩
    · obtain ⟨-, supplied, -, hconsulted⟩ := (crawlerFor_cases hserver hresult).2 crawler rfl
      exact ⟨supplied, hconsulted.server⟩
  | visits sends id base visited url depth =>
    have hsame := sends.handsOff.visit id base visited url depth s
    exact h.calm (sends.calm_visit id base visited url depth s)
      ⟨crawl, hsame.server.trans hserver⟩
  | works same calm => exact h.calm calm ⟨crawl, same.server.trans hserver⟩

/-! ## What a run keeps -/

theorem start_cases (hcache : s.cache = .empty) (h : start s = (.ok (), t)) :
    ∃ settings u, Settings.load none s = (.ok settings, s) ∧
      makeDirectories settings.storage.directories { s with cache := .own settings.live } =
        (.ok ⟨⟩, u) ∧
      t = { u with server := some settings.live, cache := .shared } := by
  obtain ⟨live, v, hcurrent, hset⟩ := exists_of_bind_ok h
  have hunknown : s.cache.read? s.server = none := by rw [hcache]; rfl
  unfold Settings.current at hcurrent
  rw [bind_of_ok (get_apply s), hunknown] at hcurrent
  obtain ⟨settings, _, hload, hrest⟩ := exists_of_bind_ok hcurrent
  obtain rfl := (Settings.consults_load none).reads.of_eq hload
  rw [bind_of_ok (modify_apply _ _)] at hrest
  obtain ⟨⟨⟩, u, hmake, hlive⟩ := exists_of_bind_ok hrest
  cases hlive
  cases hset
  exact ⟨settings, _, hload, hmake, rfl⟩

theorem steady_of_start (hfresh : Fresh s) (h : start s = (.ok (), t)) : ∃ first, Steady first t := by
  obtain ⟨settings, u, hload, hmake, rfl⟩ := start_cases hfresh.cache h
  have hsettled := (settled_makeDirectories _).of_eq hmake
  have hcalm : Calm s u := calm_of_grown hsettled.environment hsettled.disk
  refine ⟨settings, ⟨_, rfl⟩, fun text hread => hfresh.plain text ((hcalm.file text).mp hread), ?_, ?_⟩
  · intro fields hfields hplace
    rw [Settings.load_of_holds (hcalm.holds hfields)] at hload
    obtain ⟨crawl, hagain⟩ := readable_of_environment
      (t := { u with server := some settings.live, cache := .shared }) (hcalm.holds hfields) hplace
      hcalm.environment hload
    exact ⟨_, hagain, rfl⟩
  · intro fields hfields
    have hmade := hasDirectory_of_makeDirectories
      (s := { s with cache := .own settings.live }) (start_of_holds (hcalm.holds hfields)) hmake
    exact hmade

theorem steady_of_serves (h : Serves s) : ∃ first, Steady first s := by
  obtain ⟨before, opened, hfresh, hstart, hpasses⟩ := h
  obtain ⟨first, hsteady⟩ := steady_of_start hfresh hstart
  refine ⟨first, ?_⟩
  induction hpasses with
  | refl => exact hsteady
  | tail _ hstep ih => exact ih.passes hstep

/-! ## The next crawler -/

theorem Steady.current (h : Steady first s) (hholds : Settings.Holds s.disk fields)
    (hplace : Settings.NamesNoPlace fields) (hcache : s.cache = .empty) :
    ∃ found t, Settings.current s = (.ok found, t) := by
  obtain ⟨settings, hread, hstorage⟩ := h.readable fields hholds hplace
  rw [← Settings.load_of_holds hholds] at hread
  have hunknown : s.cache.read? s.server = none := by
    rw [hcache]
    rfl
  have hmade : ∀ directory ∈ settings.storage.directories, s.disk.HasDirectory (.ofText directory) := by
    rw [hstorage]
    exact h.made fields hholds
  unfold Settings.current
  rw [bind_of_ok (get_apply s), hunknown]
  unfold Settings.refresh
  dsimp only
  rw [bind_of_ok hread, bind_of_ok (modify_apply _ _)]
  have hmake := makeDirectories_of_hasDirectory
    (s := { s with cache := .own settings.live }) hmade
  exact ⟨_, _, bind_of_ok hmake⟩

theorem Steady.exists_newCrawler (h : Steady first t) (htaken : Taken live change fields s t)
    (hplace : Settings.NamesNoPlace fields) (hopen : openGraph t = (.ok (), u))
    (notify : Option (Json → Run Unit)) : ∃ crawler v, newCrawler notify t = (.ok crawler, v) := by
  have hqueried := queried_openGraph htaken.server
  rw [hopen] at hqueried
  obtain ⟨crawl, hserver⟩ := h.server
  obtain ⟨store, log, rfl⟩ := hqueried
  have hsteady : Steady first { t with store := store, log := log } :=
    h.calm (calm_of_grown rfl (.refl _)) ⟨crawl, hserver⟩
  have hplace' := hplace.of_sameBut (by decide)
    (Settings.sameBut_membersAfter "crawler" change.fields fields)
  obtain ⟨found, v, hcurrent⟩ := hsteady.current htaken.holds hplace' htaken.cache
  obtain ⟨generator, hmade⟩ := newCrawler_of_current hopen hcurrent notify
  exact ⟨_, _, hmade⟩

/-- A request for other crawl settings that succeeds reaches everyone.  Its values are
shown, and the next crawler, for a request or for a message, works with them; if the
settings name no other place, there is a next crawler as soon as the graph can be opened.
The settings file holds the document of before, in which only the values of the request
have changed. -/
theorem change_seen_by_all {s t : Surroundings} (h : Serves s) {request : Request}
    (hroute : Routing.ofRequest request.method request.path = .found .changeSettings)
    {answer : Answer} (hrespond : respond request s = (.ok answer, t)) (hstatus : answer.status = 200) :
    ∃ change fields fields' members, Accepted request change ∧
      Settings.Takes s.disk "crawler" fields ∧
      (∀ asked : Request, Routing.ofRequest asked.method asked.path = .found .settings →
        respond asked t = (.ok ⟨200, .json change.toJson, none, none⟩, t)) ∧
      (∀ notify crawler u, newCrawler notify t = (.ok crawler, u) →
        crawlSettings crawler.settings.crawl = change.toJson) ∧
      (∀ message crawler u, crawlerFor message t = (.ok crawler, u) →
        crawlSettings crawler.settings.crawl = change.toJson) ∧
      (Settings.NamesNoPlace fields → ∀ notify u, openGraph t = (.ok (), u) →
        ∃ crawler v, newCrawler notify t = (.ok crawler, v)) ∧
      Settings.Holds t.disk fields' ∧ Fields.Amended [("crawler", .obj members)] fields fields' ∧
      Fields.Amended change.fields (Settings.membersOf (Fields.get? "crawler" fields)) members := by
  obtain ⟨first, hsteady⟩ := steady_of_serves h
  obtain ⟨crawl, hserver⟩ := hsteady.server
  rcases respond_cases hroute s with ⟨change, haccepted⟩ | ⟨refusal, hrefused, hother⟩
  -- a request that is refused has another status
  swap
  · rw [hrefused] at hrespond
    cases hrespond
    exact absurd hstatus hother
  rw [respond_of_accepted haccepted] at hrespond
  cases hrespond
  obtain ⟨fields, htakes⟩ := (status_of_change hserver (writable_of_accepted haccepted)).2.mp hstatus
  have htaken := taken_of_takes hserver hsteady.plain haccepted htakes
  have hafter := Settings.sectionAfter_of_open (nodup_fields change) htakes.opened
  refine ⟨change, fields, _, _, haccepted, htakes, ?_, ?_, ?_, ?_, htaken.holds,
    hafter ▸ Fields.amended_set _ _ _, Fields.amended_update (nodup_fields change) _⟩
  · intro asked hasked
    rw [respond_of_settings hasked htaken.server, ofValue_requestedCrawl]
  · intro notify crawler u hmade
    obtain ⟨hconsulted, hread⟩ := newCrawler_cases htaken.server hmade
    exact htaken.crawlSettings htakes hconsulted (hread crawler rfl) rfl htaken.cache
  · intro message crawler u hmade
    obtain ⟨hread, supplied, -, hconsulted⟩ := (crawlerFor_cases htaken.server hmade).2 crawler rfl
    exact htaken.crawlSettings htakes hconsulted hread rfl htaken.cache
  · intro hplace notify u hopen
    exact (hsteady.taken hserver htakes htaken).exists_newCrawler htaken hplace hopen notify

/-! ## A server with a settings file -/

def filedFields : List (String × Json) :=
  [("llm", .obj [("api_key", .str "key")]),
    ("crawler", .obj [("viewport", .obj [("width", .int 800)]), ("max_pages", .int 50)]),
    ("runner", .obj []),
    ("storage", .obj [("artifacts_path", .str "kept"), ("app_maps_path", .str "kept"),
      ("test_specs_path", .str "kept"), ("reports_path", .str "kept")]),
    ("neo4j", .obj [("password", .str "secret")]), ("api", .obj [])]

theorem kept_filedFields : Json.Kept Json.maxDepth (.obj filedFields) :=
  Json.kept_of_isStorable (by decide +kernel) (by with_unfolding_all rfl)

def filedOffice : Surroundings :=
  { Crawl.Crawler.sampleSurroundings Crawl.Crawler.restlessWeb with
    store := Crawl.Crawler.obliging
    disk := ⟨[], .directory [
      ("config", .directory [("config.json", .file (Json.obj filedFields).pretty)]),
      ("kept", .directory [])]⟩ }

theorem read_filedOffice :
    filedOffice.disk.read Settings.filePath = .ok (Json.obj filedFields).pretty :=
  Disk.read_of_look (Json.not_mem_pretty kept_filedFields.bounded.regular (by decide))
    (by with_unfolding_all rfl)

theorem holds_filedOffice : Settings.Holds filedOffice.disk filedFields :=
  ⟨_, read_filedOffice, kept_filedFields.parse_pretty⟩

theorem fresh_filedOffice : Fresh filedOffice := by
  refine ⟨rfl, fun text hread => ?_⟩
  rw [read_filedOffice] at hread
  rw [← Except.ok.inj hread]
  exact Text.plain_of_not_mem
    (Json.not_mem_pretty kept_filedFields.bounded.regular (by decide))

theorem namesNoPlace_filedFields : Settings.NamesNoPlace filedFields := ⟨rfl, rfl⟩

def filedSettings : Settings :=
  { assistant := ⟨"anthropic", "claude-3-5-sonnet-20241022", "key", 4096, .ofRatio false 7 10⟩
    crawl :=
      { maxDepth := 3, maxPages := 50, timeout := 30000, screenshot := true
        viewport := [("width", 800)], pageDelay := 300, skipEmbeddings := true }
    runner := ⟨"chromium", true, true, true, "only-on-failure"⟩
    storage := ⟨"kept", "kept", "kept", "kept"⟩
    graphStore := ⟨"neo4j://localhost:7687", "neo4j", "secret"⟩
    server := ⟨"0.0.0.0", 8000, Settings.Server.defaultOrigins⟩ }

theorem load_filedOffice : Settings.load none filedOffice = (.ok filedSettings, filedOffice) := by
  rw [Settings.load_of_holds holds_filedOffice]
  with_unfolding_all rfl

def filedServer : Surroundings :=
  { filedOffice with server := some filedSettings.live, cache := .shared }

theorem start_filedOffice : start filedOffice = (.ok (), filedServer) := by
  have hkept : filedOffice.disk.HasDirectory (.ofText "kept") := by
    exact ⟨by decide +kernel, ["kept"], [], by with_unfolding_all rfl, rfl⟩
  have hmake : makeDirectories filedSettings.live.base.storage.directories
      { filedOffice with cache := .own filedSettings.live } =
      (.ok ⟨⟩, { filedOffice with cache := .own filedSettings.live }) := by
    refine makeDirectories_of_hasDirectory fun directory hdirectory => ?_
    have hname : directory = "kept" := by
      simpa [filedSettings, Settings.live, Settings.Storage.directories] using hdirectory
    rw [hname]
    exact hkept
  have hrefresh : Settings.refresh filedOffice =
      (.ok filedSettings.live, { filedOffice with cache := .own filedSettings.live }) := by
    unfold Settings.refresh
    rw [bind_of_ok load_filedOffice, bind_of_ok (modify_apply _ _)]
    exact bind_of_ok hmake
  have hcurrent : Settings.current filedOffice = _ := (bind_of_ok (get_apply _)).trans hrefresh
  exact (bind_of_ok hcurrent).trans rfl

theorem serves_filedServer : Serves filedServer :=
  ⟨filedOffice, filedServer, fresh_filedOffice, start_filedOffice, .refl⟩

theorem taken_filedServer : Settings.Takes filedServer.disk "crawler" filedFields :=
  ⟨holds_filedOffice, rfl⟩

/-- The request for five pages is shown and reaches the next crawler, and the window size in
the file stays. -/
theorem change_seen_fivePages :
    ∃ answer t, Serves filedServer ∧
      Routing.ofRequest fivePagesRequest.method fivePagesRequest.path = .found .changeSettings ∧
      respond fivePagesRequest filedServer = (.ok answer, t) ∧ answer.status = 200 ∧
      respond showRequest t = (.ok ⟨200, .json fivePages.toJson, none, none⟩, t) ∧
      (∃ crawler u, newCrawler none t = (.ok crawler, u) ∧
        crawlSettings crawler.settings.crawl = fivePages.toJson) ∧
      ∃ fields members, Settings.Holds t.disk fields ∧
        Fields.get? "crawler" fields = some (.obj members) ∧
        Fields.get? "max_pages" members = some (.int 5) ∧
        Fields.get? "viewport" members = some (.obj [("width", .int 800)]) := by
  have hserver : filedServer.server = some filedSettings.live := rfl
  have hrespond := respond_of_accepted accepted_fivePages filedServer
  have hstatus := (status_of_change hserver (writable_of_accepted accepted_fivePages)).2.mpr ⟨_, taken_filedServer⟩
  obtain ⟨change, fields, fields', members, haccepted, htakes, hshown, hmade, -, hnext, hholds, hfields,
    hmembers⟩ := change_seen_by_all serves_filedServer accepted_fivePages.route hrespond hstatus
  obtain rfl := accepted_fivePages.unique haccepted
  obtain rfl := taken_filedServer.document.unique htakes.document
  refine ⟨_, _, serves_filedServer, accepted_fivePages.route, hrespond, hstatus,
    hshown showRequest (by with_unfolding_all rfl), ?_, fields', members, hholds,
    hfields.changed _ List.mem_cons_self,
    hmembers.changed ("max_pages", .int 5) (by simp [CrawlChange.fields, fivePages]), ?_⟩
  · obtain ⟨location, found, -, -, hchange⟩ :=
      changeSettings_of_takes hserver taken_filedServer (writable_of_accepted accepted_fivePages)
    have hopen : ∃ u, openGraph (changeSettings fivePages filedServer).2 = (.ok (), u) := by
      rw [hchange]
      exact openGraph_of_obliging rfl rfl
    obtain ⟨u, hopen⟩ := hopen
    obtain ⟨crawler, v, hcrawler⟩ := hnext namesNoPlace_filedFields none u hopen
    exact ⟨crawler, v, hcrawler, hmade none crawler v hcrawler⟩
  · rw [hmembers.others "viewport" (by simp [CrawlChange.fields])]
    rfl

end Sitecheck.Server
