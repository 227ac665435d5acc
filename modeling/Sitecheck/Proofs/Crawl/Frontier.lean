import Mathlib.Logic.Relation
import Sitecheck.Crawl.Frontier
import Sitecheck.Proofs.Crawl.Address

/-!
# Rounds of a crawl

One round of a crawl passes over an address, fails to store its page, or stores
it and puts its links into the queue (`Round`).  Every run is a sequence of
rounds, and a crawl ends after finitely many (`rounds_walk`).
-/

namespace Sitecheck.Crawl

variable {σ : Type} {bounds : Bounds} {base : String} {visit : Visit σ}

/-! ## The queue -/

theorem enqueue_eq_append (bounds : Bounds) (base : String) (known queue links : List String) :
    ∃ added, enqueue bounds base known queue links = queue ++ added ∧ added.Nodup ∧
      ∀ link ∈ added, link ∈ links ∧ link ∉ known ∧ link ∉ queue ∧
        bounds.admits (depth link base) = true := by
  induction links generalizing queue with
  | nil => exact ⟨[], by simp [enqueue], by simp, by simp⟩
  | cons link links ih =>
    rw [enqueue]
    split
    · next h =>
      simp only [Bool.and_eq_true, Bool.not_eq_eq_eq_not, Bool.not_true, List.contains_eq_mem,
        decide_eq_false_iff_not] at h
      obtain ⟨added, heq, hnodup, hadded⟩ := ih (queue ++ [link])
      refine ⟨link :: added, by simp [heq], ?_, ?_⟩
      · refine List.nodup_cons.mpr ⟨fun hmem => ?_, hnodup⟩
        exact (hadded link hmem).2.2.1 (by simp)
      · intro other hother
        rcases List.mem_cons.mp hother with rfl | hother
        · exact ⟨by simp, h.1.1, h.1.2, h.2⟩
        · obtain ⟨hlinks, hknown, hqueue, hadmits⟩ := hadded other hother
          exact ⟨List.mem_cons_of_mem _ hlinks, hknown,
            fun hmem => hqueue (List.mem_append_left _ hmem), hadmits⟩
    · obtain ⟨added, heq, hnodup, hadded⟩ := ih queue
      refine ⟨added, heq, hnodup, fun other hother => ?_⟩
      obtain ⟨hlinks, hrest⟩ := hadded other hother
      exact ⟨List.mem_cons_of_mem _ hlinks, hrest⟩

theorem mem_enqueue_of_admits {bounds : Bounds} {base : String} {known queue links : List String}
    {link : String} (hlink : link ∈ links) (hnew : link ∉ known)
    (hadmits : bounds.admits (depth link base) = true) :
    link ∈ enqueue bounds base known queue links := by
  induction links generalizing queue with
  | nil => simp at hlink
  | cons first links ih =>
    rw [enqueue]
    rcases List.mem_cons.mp hlink with rfl | hlink
    · -- the link itself is put last, unless it waits already
      split
      · obtain ⟨added, heq, -⟩ := enqueue_eq_append bounds base known (queue ++ [link]) links
        simp [heq]
      · next h =>
        have hqueue : link ∈ queue := by
          by_contra hnot
          exact h (by simp [hnew, hnot, hadmits])
        obtain ⟨added, heq, -⟩ := enqueue_eq_append bounds base known queue links
        simp [heq, hqueue]
    · split
      · exact ih hlink
      · exact ih hlink

/-! ## One round -/

namespace Frontier

variable {f g : Frontier σ} {count : Nat} {added : List String}

/-- What one round of a crawl can do. -/
inductive Round (bounds : Bounds) (base : String) (visit : Visit σ) (f : Frontier σ) :
    Frontier σ → Prop
  | skipped {url : String} {queue : List String} (waits : f.queue = url :: queue)
      (room : f.visited.length < bounds.limit) (skips : f.skips bounds base url = true) :
      Round bounds base visit f { f with queue := queue }
  | failed {url : String} {queue : List String} {s : σ} (waits : f.queue = url :: queue)
      (room : f.visited.length < bounds.limit) (skips : f.skips bounds base url = false)
      (visits : visit f.visited url (depth url base) f.state = (none, s)) :
      Round bounds base visit f { f with queue := queue, state := s }
  | stored {url : String} {queue : List String} {id : Json} {links : List String} {s : σ}
      (waits : f.queue = url :: queue) (room : f.visited.length < bounds.limit)
      (skips : f.skips bounds base url = false)
      (visits : visit f.visited url (depth url base) f.state = (some (id, links), s)) :
      Round bounds base visit f
        { queue := enqueue bounds base (f.visited ++ [url]) queue links
          visited := f.visited ++ [url]
          pages := Fields.set url id f.pages
          state := s }

theorem next_eq_some_iff : f.next bounds base visit = some g ↔ Round bounds base visit f g := by
  constructor
  · intro h
    unfold next at h
    split at h
    · contradiction
    · next url queue hqueue =>
      split at h
      · next hroom =>
        split at h
        · next hskips =>
          cases h
          exact .skipped hqueue hroom hskips
        · next hskips =>
          cases h
          rcases hvisit : visit f.visited url (depth url base) f.state with
            ⟨_ | ⟨id, links⟩, s⟩
          · exact .failed hqueue hroom (by simpa using hskips) hvisit
          · exact .stored hqueue hroom (by simpa using hskips) hvisit
      · contradiction
  · intro h
    cases h with
    | skipped waits room skips => simp [next, waits, room, skips]
    | failed waits room skips visits => simp [next, waits, room, skips, visits, advance]
    | stored waits room skips visits => simp [next, waits, room, skips, visits, advance]

theorem next_eq_none_iff :
    f.next bounds base visit = none ↔ f.queue = [] ∨ bounds.limit ≤ f.visited.length := by
  unfold next
  split
  · next h => simp [h]
  · next url queue h =>
    split
    · have hnot : ¬ bounds.limit ≤ f.visited.length := by omega
      split <;> simp [h, hnot]
    · next hroom => simpa [h] using hroom

theorem Round.queue_eq (h : Round bounds base visit f g) :
    ∃ url rest added, f.queue = url :: rest ∧ g.queue = rest ++ added := by
  cases h with
  | skipped waits => exact ⟨_, _, [], waits, by simp⟩
  | failed waits => exact ⟨_, _, [], waits, by simp⟩
  | @stored url queue id links s waits room skips visits =>
    obtain ⟨added, heq, -⟩ :=
      enqueue_eq_append bounds base (f.visited ++ [url]) queue links
    exact ⟨url, queue, added, waits, heq⟩

theorem Round.state_eq (h : Round bounds base visit f g) :
    g.state = f.state ∨ ∃ url, g.state = (visit f.visited url (depth url base) f.state).2 := by
  cases h with
  | skipped => exact Or.inl rfl
  | failed waits room skips visits => exact Or.inr ⟨_, by rw [visits]⟩
  | stored waits room skips visits => exact Or.inr ⟨_, by rw [visits]⟩

/-! ## Many rounds -/

def Leads (bounds : Bounds) (base : String) (visit : Visit σ) : Frontier σ → Frontier σ → Prop :=
  Relation.ReflTransGen fun f g => f.next bounds base visit = some g

theorem Leads.keeps {P : Frontier σ → Prop} (h : Leads bounds base visit f g)
    (hround : ∀ f g, P f → Round bounds base visit f g → P g) (hf : P f) : P g := by
  induction h with
  | refl => exact hf
  | tail _ hnext ih => exact hround _ _ ih (next_eq_some_iff.mp hnext)

theorem Leads.related {R : σ → σ → Prop} [IsPreorder σ R] (h : Leads bounds base visit f g)
    (hvisit : ∀ visited url depth s, R s (visit visited url depth s).2) : R f.state g.state := by
  refine h.keeps (P := fun k => R f.state k.state) (fun k l hk hround => ?_) (refl _)
  rcases hround.state_eq with hstate | ⟨url, hstate⟩
  · rwa [hstate]
  · rw [hstate]
    exact IsTrans.trans _ _ _ hk (hvisit ..)

theorem Leads.nodup_visited (h : Leads bounds base visit f g) (hf : f.visited.Nodup) :
    g.visited.Nodup := by
  refine h.keeps (P := fun k => k.visited.Nodup) (fun k l hk hround => ?_) hf
  cases hround with
  | skipped | failed => exact hk
  | @stored url queue id links s waits room skips visits =>
    have hnew : url ∉ k.visited := by
      intro hmem
      simp [Frontier.skips, hmem] at skips
    simpa [List.nodup_append] using ⟨hk, fun other hother heq => hnew (heq ▸ hother)⟩

theorem Leads.length_visited_le (h : Leads bounds base visit f g)
    (hf : f.visited.length ≤ bounds.limit) : g.visited.length ≤ bounds.limit := by
  refine h.keeps (P := fun k => k.visited.length ≤ bounds.limit) (fun k l hk hround => ?_) hf
  cases hround with
  | skipped | failed => exact hk
  | stored =>
    simp only [List.length_append, List.length_singleton]
    omega

theorem Leads.visited_subset (h : Leads bounds base visit f g) : f.visited ⊆ g.visited := by
  refine h.keeps (P := fun k => f.visited ⊆ k.visited) (fun k l hk hround => ?_) (fun _ hurl => hurl)
  cases hround with
  | skipped | failed => exact hk
  | stored => exact fun url hurl => List.mem_append_left _ (hk hurl)

/-- So many rounds lead from one frontier to another, and these links are put
into the queue on the way. -/
inductive Rounds (bounds : Bounds) (base : String) (visit : Visit σ) :
    (count : Nat) → (added : List String) → Frontier σ → Frontier σ → Prop
  | done (f : Frontier σ) : Rounds bounds base visit 0 [] f f
  | more {f g h : Frontier σ} {url : String} {rest here later : List String} {count : Nat}
      (round : f.next bounds base visit = some g) (waits : f.queue = url :: rest)
      (puts : g.queue = rest ++ here) (rounds : Rounds bounds base visit count later g h) :
      Rounds bounds base visit (count + 1) (here ++ later) f h

theorem Rounds.length_queue (h : Rounds bounds base visit count added f g) :
    f.queue.length + added.length = count + g.queue.length := by
  induction h with
  | done => simp
  | more round waits puts rounds ih =>
    simp only [waits, puts, List.length_cons, List.length_append] at ih ⊢
    omega

theorem Rounds.leads (h : Rounds bounds base visit count added f g) :
    Leads bounds base visit f g := by
  induction h with
  | done => exact .refl
  | more round waits puts rounds ih => exact .head round ih

theorem rounds_walk (bounds : Bounds) (base : String) (visit : Visit σ) (f : Frontier σ) :
    ∃ count added, Rounds bounds base visit count added f (f.walk bounds base visit) ∧
      (f.walk bounds base visit).next bounds base visit = none := by
  fun_induction walk bounds base visit f with
  | case1 f hnone => exact ⟨0, [], .done f, hnone⟩
  | case2 f g hround ih =>
    obtain ⟨count, later, hrounds, hnone⟩ := ih
    obtain ⟨url, rest, here, hwaits, hputs⟩ := (next_eq_some_iff.mp hround).queue_eq
    exact ⟨count + 1, here ++ later, .more hround hwaits hputs hrounds, hnone⟩

theorem leads_walk (bounds : Bounds) (base : String) (visit : Visit σ) (f : Frontier σ) :
    Leads bounds base visit f (f.walk bounds base visit) := by
  obtain ⟨count, added, hrounds, -⟩ := rounds_walk bounds base visit f
  exact hrounds.leads

def after (bounds : Bounds) (base : String) (visit : Visit σ) : Nat → Frontier σ → Frontier σ
  | 0, f => f
  | count + 1, f =>
    match f.next bounds base visit with
    | none => f
    | some g => after bounds base visit count g

theorem walk_eq_after (h : (after bounds base visit count f).next bounds base visit = none) :
    f.walk bounds base visit = after bounds base visit count f := by
  induction count generalizing f with
  | zero =>
    rw [walk]
    split
    · rfl
    · next g hround =>
      rw [after, hround] at h
      cases h
  | succ count ih =>
    rw [walk, after]
    rw [after] at h
    cases hround : f.next bounds base visit with
    | none => rfl
    | some =>
      rw [hround] at h
      exact ih h

end Frontier

end Sitecheck.Crawl
