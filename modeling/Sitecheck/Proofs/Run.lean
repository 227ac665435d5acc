import Mathlib.Order.Defs.Unbundled
import Sitecheck.Proofs.Directory
import Sitecheck.Service.Browser
import Sitecheck.Service.Store

/-!
# What an action leaves behind

An action is a function of the surroundings, and the first part of this file
computes it.  The second part follows one relation between the surroundings
before and after through a whole action, whether it succeeds or fails: if the
relation holds of the parts, it holds of the action (`Keeps`).  `Grows` is such
a relation: the services are the same, and only certain events are new.
-/

namespace Sitecheck.Run

variable {α β : Type}
variable {action : Run α} {next : α → Run β} {s t : Surroundings}
  {R : Surroundings → Surroundings → Prop} {allowed' : Event → Prop} {event : Event} {text : String}
  {params : List (String × Json)}

/-! ## Computing actions -/

@[simp] theorem pure_apply (a : α) (s : Surroundings) : (pure a : Run α) s = (.ok a, s) := rfl

@[simp] theorem get_apply (s : Surroundings) : (get : Run Surroundings) s = (.ok s, s) := rfl

@[simp] theorem modify_apply (f : Surroundings → Surroundings) (s : Surroundings) :
    (modify f : Run PUnit) s = (.ok ⟨⟩, f s) := rfl

@[simp] theorem modifyGet_apply (f : Surroundings → α × Surroundings) (s : Surroundings) :
    (modifyGet f : Run α) s = (.ok (f s).1, (f s).2) := rfl

@[simp] theorem lift_apply (result : Except Fault α) (s : Surroundings) :
    lift result s = (result, s) := rfl

@[simp] theorem attempt_apply (action : Run α) (s : Surroundings) :
    attempt action s = (.ok (action s).1, (action s).2) := rfl

@[simp] theorem record_apply (event : Event) (s : Surroundings) :
    record event s = (.ok ⟨⟩, { s with log := event :: s.log }) := rfl

theorem bind_apply (action : Run α) (next : α → Run β) (s : Surroundings) :
    (action >>= next) s =
      match action s with
      | (.ok a, t) => next a t
      | (.error fault, t) => (.error fault, t) := by
  change ExceptT.bindCont next (action s).1 (action s).2 = _
  rcases action s with ⟨_ | _, t⟩ <;> rfl

theorem discard_apply (action : Run α) (s : Surroundings) :
    discard action s = ((action s).1.map fun _ => PUnit.unit, (action s).2) := by
  change (action >>= fun _ => Pure.pure PUnit.unit) s = _
  rw [bind_apply]
  rcases action s with ⟨_ | _, t⟩ <;> rfl

theorem bind_of_ok {a : α} (h : action s = (.ok a, t)) : (action >>= next) s = next a t := by
  rw [bind_apply, h]

theorem andThen {a : α} {P : β → Surroundings → Prop} (h : action s = (.ok a, t))
    (hnext : ∃ b u, next a t = (.ok b, u) ∧ P b u) :
    ∃ b u, (action >>= next) s = (.ok b, u) ∧ P b u := by
  rwa [bind_of_ok h]

theorem bind_of_error {fault : Fault} (h : action s = (.error fault, t)) :
    (action >>= next) s = (.error fault, t) := by
  rw [bind_apply, h]

theorem exists_of_bind_ok {u : Surroundings} {b : β} (h : (action >>= next) s = (.ok b, u)) :
    ∃ a t, action s = (.ok a, t) ∧ next a t = (.ok b, u) := by
  rcases haction : action s with ⟨fault | a, t⟩
  · rw [bind_of_error haction] at h
    cases h
  · rw [bind_of_ok haction] at h
    exact ⟨a, t, rfl, h⟩

theorem exists_of_lift_ok {result : Except Fault α} {b : β}
    (h : (lift result >>= next) s = (.ok b, t)) : ∃ a, result = .ok a ∧ next a s = (.ok b, t) := by
  cases result with
  | error => cases h
  | ok a => exact ⟨a, rfl, h⟩

theorem lift_ok_bind (a : α) (next : α → Run β) : lift (.ok a) >>= next = next a := rfl

theorem lift_map_bind {γ : Type} (result : Except Fault α) (f : α → β) (next : β → Run γ) :
    lift (result.map f) >>= next = lift result >>= fun a => next (f a) := by
  cases result <;> rfl

theorem exists_of_isOk (h : (action s).1.isOk = true) : ∃ a t, action s = (.ok a, t) := by
  rcases haction : action s with ⟨fault | a, t⟩
  · rw [haction] at h
    cases h
  · exact ⟨a, t, rfl⟩

theorem fileExists_apply (path : Path) (s : Surroundings) :
    fileExists path s = (s.disk.exists? path, s) := rfl

theorem readFile_apply (path : Path) (s : Surroundings) : readFile path s = (s.disk.read path, s) := rfl

theorem readFile_of_read {path : Path} (h : s.disk.read path = .ok text) :
    readFile path s = (.ok text, s) := by
  rw [readFile_apply, h]

theorem fileExists_of_read {path : Path} (h : s.disk.read path = .ok text) :
    fileExists path s = (.ok true, s) := by
  rw [fileExists_apply, Disk.exists?_of_read h]

theorem writeFile_apply (path : Path) (text : String) (s : Surroundings) :
    writeFile path text s =
      match s.disk.write path (if Text.isScalar text then text else "") with
      | .error fault => (.error fault, s)
      | .ok disk =>
        (if Text.isScalar text then .ok () else .error .unencodable, { s with disk := disk }) := by
  unfold writeFile
  rw [bind_of_ok (get_apply s)]
  cases s.disk.write path (if Text.isScalar text then text else "") with
  | error => rfl
  | ok =>
    cases Text.isScalar text <;> rfl

theorem loadJson_of_read {path : Path} (h : s.disk.read path = .ok text) :
    loadJson path s = (Json.parse text, s) := by
  rw [loadJson, bind_of_ok (readFile_of_read h), lift_apply]

theorem loadJson?_of_read {path : Path} (h : s.disk.read path = .ok text) :
    loadJson? path s = ((Json.parse text).map some, s) := by
  rw [loadJson?, bind_of_ok (fileExists_of_read h), if_pos rfl, bind_apply, loadJson_of_read h]
  cases Json.parse text <;> rfl

theorem exists_of_loadJson? {path : Path} {document : Json}
    (h : loadJson? path s = (.ok (some document), t)) :
    ∃ text, s.disk.read path = .ok text ∧ Json.parse text = .ok document := by
  obtain ⟨found, u, hfound, h⟩ := exists_of_bind_ok h
  rw [fileExists_apply] at hfound
  obtain rfl : s = u := congrArg Prod.snd hfound
  split at h
  · obtain ⟨_, v, hload, h⟩ := exists_of_bind_ok h
    cases h
    obtain ⟨text, w, hread, hparse⟩ := exists_of_bind_ok hload
    rw [readFile_apply] at hread
    exact ⟨text, congrArg Prod.fst hread, congrArg Prod.fst hparse⟩
  · cases h

theorem writeFile_of_write {path : Path} {disk : Disk} (hwrite : s.disk.write path text = .ok disk)
    (hscalar : Text.isScalar text = true) : writeFile path text s = (.ok (), { s with disk := disk }) := by
  rw [writeFile_apply, hscalar, if_pos rfl, hwrite]
  rfl

theorem uuid_apply (s : Surroundings) :
    uuid s =
      match s.uuids with
      | [] => (.ok noUuid, s)
      | id :: rest => (Uuid.digits id, { s with uuids := rest }) := by
  unfold uuid
  rw [bind_of_ok (get_apply s)]
  cases s.uuids <;> rfl

theorem timestamp_apply (s : Surroundings) :
    timestamp s =
      if s.now.isInRange then (.ok s.now.text, { s with now := s.now.later s.tick })
      else (.error .overflow, s) := by
  unfold timestamp moment
  rw [bind_apply, bind_of_ok (get_apply s)]
  cases s.now.isInRange with
  | false | true => rfl

def arrival : Option WebPage → Except Fault Unit
  | some page => answerUnless page.faults "goto" ()
  | none => .error (.outer .runtime "net::ERR_NAME_NOT_RESOLVED")

theorem goto_apply (url : String) (timeout : Json) (waitUntil : Option String)
    (s : Surroundings) :
    let log := .visited url timeout waitUntil :: s.log
    let found := s.browser.web.page? log url
    goto url timeout waitUntil s =
      (arrival found,
        { s with log := log, browser := { s.browser with current := found.getD .blank } }) := by
  unfold goto
  rw [bind_of_ok (record_apply _ s), bind_of_ok (get_apply _)]
  dsimp only
  cases s.browser.web.page? (.visited url timeout waitUntil :: s.log) url <;> rfl

/-! ## Properties of all parts of an action -/

/-- A property that every action has which is made of actions that have it. -/
structure Closed (P : (α : Type) → Run α → Prop) : Prop where
  lift : ∀ {α : Type} (result : Except Fault α), P α (lift result)
  attempt : ∀ {α : Type} {action : Run α}, P α action → P _ (attempt action)
  bind : ∀ {α β : Type} {action : Run α} {next : α → Run β}, P α action → (∀ a, P β (next a)) →
    P β (action >>= next)

namespace Closed

variable {P : (α : Type) → Run α → Prop}

theorem pure (hP : Closed P) (a : α) : P α (pure a) := hP.lift (.ok a)

theorem throw (hP : Closed P) (fault : Fault) : P α (throw fault) := hP.lift (.error fault)

theorem discard (hP : Closed P) {action : Run α} (h : P α action) : P PUnit (discard action) :=
  hP.bind h fun _ => hP.pure _

theorem forM (hP : Closed P) {items : List α} {action : α → Run PUnit}
    (h : ∀ item, P PUnit (action item)) : P PUnit (items.forM action) := by
  induction items with
  | nil => exact hP.pure _
  | cons item items ih =>
    exact hP.bind (h item) fun _ => ih

theorem mapM (hP : Closed P) {items : List α} {action : α → Run β} (h : ∀ item, P β (action item)) :
    P _ (items.mapM action) := by
  induction items with
  | nil => exact hP.pure _
  | cons item items ih =>
    rw [List.mapM_cons]
    exact hP.bind (h item) fun _ => hP.bind ih fun _ => hP.pure _

theorem orElse (hP : Closed P) {action : Run α} {instead : Fault → Run α} (h : P α action)
    (hinstead : ∀ fault, P α (instead fault)) : P α (orElse action instead) := by
  refine hP.bind (hP.attempt h) fun result => ?_
  cases result with
  | error fault => exact hinstead fault
  | ok a => exact hP.pure a

theorem writeJson (hP : Closed P) {path : Path} (h : ∀ text, P Unit (writeFile path text))
    (document : Json) : P Unit (writeJson path document) := by
  unfold Run.writeJson
  cases document.draft with
  | none => exact h _
  | some => exact hP.bind (h _) fun _ => hP.throw _

end Closed

/-! ## Relations that actions keep -/

/-- Whatever comes of the action, the surroundings after it stand in the relation
to those before it. -/
def Keeps (R : Surroundings → Surroundings → Prop) (action : Run α) : Prop :=
  ∀ s, R s (action s).2

namespace Keeps

variable {R : Surroundings → Surroundings → Prop}
variable {R' : Surroundings → Surroundings → Prop} {action : Run α} {items : List α}

theorem mono (h : Keeps R action) (himp : ∀ s t, R s t → R' s t) : Keeps R' action :=
  fun s => himp _ _ (h s)

theorem of_eq {s t : Surroundings} {result : Except Fault α} (h : Keeps R action)
    (heq : action s = (result, t)) : R s t := by
  have hs := h s
  rwa [heq] at hs

theorem attempt (h : Keeps R action) : Keeps R (attempt action) := h

theorem discard (h : Keeps R action) : Keeps R (discard action) := by
  intro s
  rw [discard_apply]
  exact h s

theorem seq {R'' : Surroundings → Surroundings → Prop} {next : α → Run β} (h : Keeps R action)
    (hnext : ∀ a, Keeps R' (next a)) (hfirst : ∀ s t, R s t → R'' s t)
    (hboth : ∀ s t u, R s t → R' t u → R'' s u) : Keeps R'' (action >>= next) := by
  intro s
  have hs := h s
  rw [bind_apply]
  rcases haction : action s with ⟨fault | a, t⟩
  · rw [haction] at hs
    exact hfirst s t hs
  · rw [haction] at hs
    exact hboth s t _ hs (hnext a t)

variable [IsPreorder Surroundings R]

theorem of_same (h : ∀ s, (action s).2 = s) : Keeps R action := by
  intro s
  rw [h s]
  exact refl s

theorem pure (a : α) : Keeps R (pure a : Run α) := of_same fun _ => rfl

theorem throw (fault : Fault) : Keeps R (throw fault : Run α) := of_same fun _ => rfl

theorem get : Keeps R (get : Run Surroundings) := of_same fun _ => rfl

theorem lift (result : Except Fault α) : Keeps R (lift result) := of_same fun _ => rfl

theorem currentPage : Keeps R currentPage := of_same fun _ => rfl

theorem bind {next : α → Run β} (h : Keeps R action) (hnext : ∀ a, Keeps R (next a)) :
    Keeps R (action >>= next) :=
  h.seq hnext (fun _ _ hst => hst) fun _ _ _ hst htu => IsTrans.trans _ _ _ hst htu

theorem closed : Closed fun _ action => Keeps R action := ⟨lift, attempt, bind⟩

theorem forM {action : α → Run PUnit} (h : ∀ item, Keeps R (action item)) :
    Keeps R (items.forM action) := closed.forM h

theorem mapM {action : α → Run β} (h : ∀ item, Keeps R (action item)) :
    Keeps R (items.mapM action) := closed.mapM h

theorem orElse {instead : Fault → Run α} (h : Keeps R action)
    (hinstead : ∀ fault, Keeps R (instead fault)) : Keeps R (orElse action instead) :=
  closed.orElse h hinstead

end Keeps

/-! ## Actions that cannot tell surroundings apart -/

/-- The action comes to the same in related surroundings, and they stay related. -/
def Respects (R : Surroundings → Surroundings → Prop) (action : Run α) : Prop :=
  ∀ s t, R s t → (action t).1 = (action s).1 ∧ R (action s).2 (action t).2

namespace Respects

variable {R : Surroundings → Surroundings → Prop}
variable {action : Run α}

theorem pure (a : α) : Respects R (pure a : Run α) := fun _ _ h => ⟨rfl, h⟩

theorem throw (fault : Fault) : Respects R (throw fault : Run α) := fun _ _ h => ⟨rfl, h⟩

theorem lift (result : Except Fault α) : Respects R (lift result) := fun _ _ h => ⟨rfl, h⟩

theorem modify {f : Surroundings → Surroundings} (h : ∀ s t, R s t → R (f s) (f t)) :
    Respects R (modify f : Run PUnit) := fun s t hst => ⟨rfl, h s t hst⟩

theorem attempt (h : Respects R action) : Respects R (attempt action) :=
  fun s t hst => ⟨congrArg Except.ok (h s t hst).1, (h s t hst).2⟩

theorem bind {next : α → Run β} (h : Respects R action) (hnext : ∀ a, Respects R (next a)) :
    Respects R (action >>= next) := by
  intro s t hst
  obtain ⟨hresult, hrelated⟩ := h s t hst
  rcases hs : action s with ⟨fault | a, u⟩ <;> rcases ht : action t with ⟨fault' | a', v⟩ <;>
    rw [hs, ht] at hresult hrelated <;> cases hresult
  · rw [bind_of_error hs, bind_of_error ht]
    exact ⟨rfl, hrelated⟩
  · rw [bind_of_ok hs, bind_of_ok ht]
    exact hnext a u v hrelated

theorem get_bind {next : Surroundings → Run β} (hsame : ∀ s t, R s t → next t = next s)
    (hnext : ∀ now, Respects R (next now)) : Respects R (get >>= next) := by
  intro s t hst
  rw [bind_of_ok (get_apply s), bind_of_ok (get_apply t), hsame s t hst]
  exact hnext s s t hst

theorem closed : Closed fun _ action => Respects R action := ⟨lift, attempt, bind⟩

theorem discard (h : Respects R action) : Respects R (discard action) := closed.discard h

theorem forM {items : List α} {action : α → Run PUnit} (h : ∀ item, Respects R (action item)) :
    Respects R (items.forM action) := closed.forM h

end Respects

/-! ## Actions that never fail -/

def NeverFails (action : Run α) : Prop := ∀ s, ∃ a t, action s = (.ok a, t)

namespace NeverFails

variable {action : Run α}

theorem pure (a : α) : NeverFails (pure a : Run α) := fun s => ⟨a, s, rfl⟩

theorem attempt (action : Run α) : NeverFails (attempt action) := fun _ => ⟨_, _, rfl⟩

theorem bind {next : α → Run β} (h : NeverFails action) (hnext : ∀ a, NeverFails (next a)) :
    NeverFails (action >>= next) := by
  intro s
  obtain ⟨a, t, hs⟩ := h s
  rw [bind_of_ok hs]
  exact hnext a t

theorem orElse {instead : Fault → Run α} (hinstead : ∀ fault, NeverFails (instead fault)) :
    NeverFails (orElse action instead) := by
  refine (attempt action).bind fun result => ?_
  cases result with
  | error fault => exact hinstead fault
  | ok a => exact pure a

end NeverFails

/-! ## Growing logs -/

/-- The same pages can be loaded, queries are answered in the same way, less the
replies that were used up, and only allowed events are new. -/
structure Grows (allowed : Event → Prop) (s t : Surroundings) : Prop where
  web : t.browser.web = s.browser.web
  otherwise : t.store.answers.otherwise? = s.store.answers.otherwise?
  replies : t.store.answers.replies.Sublist s.store.answers.replies
  log : ∃ new, t.log = new ++ s.log ∧ ∀ event ∈ new, allowed event

/-- Besides, the browser still shows the same page. -/
structure Stays (allowed : Event → Prop) (s t : Surroundings) : Prop extends Grows allowed s t where
  current : t.browser.current = s.browser.current

/-- Besides, the settings in use and the variables are the same, and on disk there are at
most new directories. -/
structure Settled (allowed : Event → Prop) (s t : Surroundings) : Prop
    extends Stays allowed s t where
  server : t.server = s.server
  cache : t.cache = s.cache
  environment : t.environment = s.environment
  disk : s.disk.Grown t.disk

variable {allowed : Event → Prop}

def Logs (allowed : Event → Prop) (s t : Surroundings) : Prop :=
  ∃ new, t.log = new ++ s.log ∧ ∀ event ∈ new, allowed event

instance : IsPreorder Surroundings (Logs allowed) where
  refl s := ⟨[], rfl, by simp⟩
  trans s t u hst htu := by
    obtain ⟨first, hfirst, hallowed⟩ := hst
    obtain ⟨second, hsecond, hallowed'⟩ := htu
    refine ⟨second ++ first, by rw [hsecond, hfirst, List.append_assoc], fun event hevent => ?_⟩
    rcases List.mem_append.mp hevent with hevent | hevent
    · exact hallowed' event hevent
    · exact hallowed event hevent

theorem Logs.mono (h : Logs allowed s t) (himp : ∀ event, allowed event → allowed' event) :
    Logs allowed' s t := by
  obtain ⟨new, hlog, hnew⟩ := h
  exact ⟨new, hlog, fun event hevent => himp event (hnew event hevent)⟩

instance : IsPreorder Surroundings (Grows allowed) where
  refl s := ⟨rfl, rfl, List.Sublist.refl _, [], rfl, by simp⟩
  trans s t u hst htu :=
    ⟨htu.web.trans hst.web, htu.otherwise.trans hst.otherwise, htu.replies.trans hst.replies,
      IsTrans.trans (r := Logs allowed) _ _ _ hst.log htu.log⟩

instance : IsPreorder Surroundings (Stays allowed) where
  refl s := ⟨refl s, rfl⟩
  trans _ _ _ hst htu :=
    ⟨IsTrans.trans _ _ _ hst.toGrows htu.toGrows, htu.current.trans hst.current⟩

instance : IsPreorder Surroundings (Settled allowed) where
  refl s := ⟨refl s, rfl, rfl, rfl, .refl _⟩
  trans _ _ _ hst htu :=
    ⟨IsTrans.trans _ _ _ hst.toStays htu.toStays, htu.server.trans hst.server,
      htu.cache.trans hst.cache, htu.environment.trans hst.environment, hst.disk.trans htu.disk⟩

theorem Keeps.stays (h : Keeps (Settled allowed) action) : Keeps (Stays allowed) action :=
  h.mono fun _ _ hsettled => hsettled.toStays

theorem Grows.mono (h : Grows allowed s t) (himp : ∀ event, allowed event → allowed' event) :
    Grows allowed' s t :=
  ⟨h.web, h.otherwise, h.replies, Logs.mono h.log himp⟩

theorem Settled.mono (h : Settled allowed s t) (himp : ∀ event, allowed event → allowed' event) :
    Settled allowed' s t :=
  ⟨⟨h.toGrows.mono himp, h.current⟩, h.server, h.cache, h.environment, h.disk⟩

theorem Keeps.logs (h : Keeps (Settled allowed) action) : Keeps (Logs allowed) action :=
  h.mono fun _ _ hsettled => hsettled.log

theorem Settled.of_same (hbrowser : t.browser = s.browser)
    (hanswers : t.store.answers = s.store.answers) (hlog : t.log = s.log)
    (hserver : t.server = s.server) (hcache : t.cache = s.cache)
    (henvironment : t.environment = s.environment) (hdisk : s.disk.Grown t.disk) :
    Settled allowed s t where
  web := by rw [hbrowser]
  otherwise := by rw [hanswers]
  replies := hanswers ▸ List.Sublist.refl _
  log := ⟨[], hlog, by simp⟩
  current := by rw [hbrowser]
  server := hserver
  cache := hcache
  environment := henvironment
  disk := hdisk

theorem settled_record (h : allowed event) : Keeps (Settled allowed) (record event) := by
  intro s
  exact ⟨⟨⟨rfl, rfl, List.Sublist.refl _, [event], rfl, by simpa using h⟩, rfl⟩, rfl, rfl, rfl, .refl _⟩

theorem stays_record (h : allowed event) : Keeps (Stays allowed) (record event) :=
  (settled_record h).stays

theorem logs_record (h : allowed event) : Keeps (Logs allowed) (record event) :=
  (settled_record h).logs

theorem makeDirectory_apply (path : Path) (s : Surroundings) :
    makeDirectory path s =
      ((s.disk.makeDirectory path).1, { s with disk := (s.disk.makeDirectory path).2 }) := by
  unfold makeDirectory
  rfl

theorem makeDirectory_cases {path : Path} {result : Except Fault Unit}
    (h : makeDirectory path s = (result, t)) :
    (s.disk.makeDirectory path).1 = result ∧ (s.disk.makeDirectory path).2 = t.disk := by
  unfold makeDirectory at h
  generalize s.disk.makeDirectory path = made at h ⊢
  cases h
  exact ⟨rfl, rfl⟩

theorem settled_makeDirectory (path : Path) : Keeps (Settled allowed) (makeDirectory path) :=
  fun s => Settled.of_same rfl rfl rfl rfl rfl rfl (Disk.grown_makeDirectory path s.disk)

theorem settled_embed {model input : String} (h : allowed (.embedding model input)) :
    Keeps (Settled allowed) (embed model input) := by
  refine (settled_record h).bind fun _ => ?_
  refine Keeps.bind (α := EmbeddingReply) ?_ fun reply => ?_
  · intro s
    rcases hreplies : s.embeddingReplies with _ | ⟨reply, rest⟩ <;>
      simp only [modifyGet_apply, hreplies] <;>
      exact Settled.of_same rfl rfl rfl rfl rfl rfl (.refl _)
  · cases reply with
    | vector => exact Keeps.pure _
    | fault => exact Keeps.throw _

theorem settled_takeScreenshot {path : Path} (h : allowed (.screenshot path.text false)) :
    Keeps (Settled allowed) (takeScreenshot path) := by
  refine (settled_record h).bind fun _ => ?_
  exact Keeps.currentPage.bind fun _ => Keeps.lift _

theorem settled_sleep {seconds : Json} (h : allowed (.slept seconds)) :
    Keeps (Settled allowed) (sleep seconds) :=
  settled_record h

/-! ## Queries -/

theorem takeReply?_sublist {replies others : List QueryReply} {answer : Except Fault (List Json)}
    (h : takeReply? text replies = some (answer, others)) :
    others.Sublist replies := by
  induction replies generalizing others with
  | nil => simp [takeReply?] at h
  | cons reply rest ih =>
    simp only [takeReply?] at h
    split at h
    · cases h
      exact List.sublist_cons_self _ _
    · obtain ⟨⟨answer', others'⟩, htake, heq⟩ := Option.map_eq_some_iff.mp h
      cases heq
      exact (ih htake).cons_cons reply

theorem settled_identifier (text : String) : Keeps (Settled allowed) (identifier text) := by
  unfold identifier
  split
  · exact fun _ => Settled.of_same rfl rfl rfl rfl rfl rfl (.refl _)
  · exact Keeps.pure _

theorem settled_query (h : allowed (.query (Text.collapse text) params)) :
    Keeps (Settled allowed) (query text params) := by
  refine (settled_record h).bind fun _ => ?_
  intro s
  rw [bind_of_ok (get_apply s)]
  rcases htake : takeReply? (Text.collapse text) s.store.answers.replies with _ | ⟨answer, others⟩
  · cases hother : s.store.answers.otherwise? s.log with
    | some => exact refl s
    | none => exact settled_identifier _ s
  · exact ⟨⟨⟨rfl, rfl, takeReply?_sublist htake, [], rfl, by simp⟩, rfl⟩, rfl, rfl, rfl, .refl _⟩

theorem query_log (text : String) (params : List (String × Json)) (s : Surroundings) :
    (query text params s).2.log = .query (Text.collapse text) params :: s.log := by
  unfold query
  rw [bind_of_ok (record_apply _ s), bind_of_ok (get_apply _)]
  rcases takeReply? (Text.collapse text) s.store.answers.replies with _ | ⟨answer, others⟩
  · cases s.store.answers.otherwise? (.query (Text.collapse text) params :: s.log) with
    | some => rfl
    | none =>
      simp only [identifier]
      split <;> rfl
  · rfl

theorem settled_querySingle (h : allowed (.query (Text.collapse text) params)) :
    Keeps (Settled allowed) (querySingle text params) :=
  (settled_query h).bind fun _ => Keeps.pure _

end Sitecheck.Run
