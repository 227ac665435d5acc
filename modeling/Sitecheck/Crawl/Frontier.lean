import Sitecheck.Crawl.Address
import Sitecheck.Json.Arithmetic

/-!
# The frontier of a crawl

Pages are visited in the order in which their addresses were found, each at
most once, until the queue is empty or enough pages are stored.  How a page is
visited is left open: a visit gives the identifier of the stored page and the
links found on it, or nothing.  Every round of a crawl stores a page or shortens
the queue (`Frontier.next_decreases`).
-/

namespace Sitecheck.Crawl

/-- How far a crawl goes: fewer than `limit` pages are stored before the next
visit, and depths are too deep to visit or admitted to the queue. -/
structure Bounds where
  limit : Nat
  tooDeep : Nat → Bool
  admits : Nat → Bool

/-- The number of pages that a magnitude allows; `all` stands for no limit. -/
def pageLimit (all : Nat) : Json.Magnitude → Nat
  | .undefined => 0
  | .infinite negative => if negative then 0 else all
  | .ratio num den => ((num + den - 1) / den).toNat

def Bounds.ofMagnitudes (all : Nat) (maxPages maxDepth : Json.Magnitude) : Bounds :=
  ⟨pageLimit all maxPages, fun depth => maxDepth.isBelow depth,
    fun depth => maxDepth.exceeds depth || maxDepth.is depth⟩

abbrev Stored := List (String × Json)

/-- Puts the links that are new and not too deep at the end of the queue. -/
def enqueue (bounds : Bounds) (base : String) (known : List String) :
    (queue links : List String) → List String
  | queue, [] => queue
  | queue, link :: links =>
    if !known.contains link && !queue.contains link && bounds.admits (depth link base) then
      enqueue bounds base known (queue ++ [link]) links
    else enqueue bounds base known queue links

abbrev Visit (σ : Type) := List String → String → Nat → σ → Option (Json × List String) × σ

structure Frontier (σ : Type) where
  queue : List String
  visited : List String
  pages : Stored
  state : σ

namespace Frontier

variable {σ : Type} (bounds : Bounds) (base : String) (visit : Visit σ)

def skips (frontier : Frontier σ) (url : String) : Bool :=
  frontier.visited.contains url || bounds.tooDeep (depth url base)

/-- The frontier after the visit to the address that stood before a queue. -/
def advance (frontier : Frontier σ) (url : String) (queue : List String) :
    Option (Json × List String) × σ → Frontier σ
  | (none, s) => { frontier with queue := queue, state := s }
  | (some (id, links), s) =>
    { queue := enqueue bounds base (frontier.visited ++ [url]) queue links
      visited := frontier.visited ++ [url]
      pages := Fields.set url id frontier.pages
      state := s }

/-- One round of a crawl.  There is none when the queue is empty or the limit is
reached. -/
def next (frontier : Frontier σ) : Option (Frontier σ) :=
  match frontier.queue with
  | [] => none
  | url :: queue =>
    if frontier.visited.length < bounds.limit then
      if frontier.skips bounds base url then some { frontier with queue := queue }
      else some (frontier.advance bounds base url queue
        (visit frontier.visited url (depth url base) frontier.state))
    else none

/-- The pages that may still be stored, then the addresses that wait. -/
def measure (frontier : Frontier σ) : Nat × Nat :=
  (bounds.limit - frontier.visited.length, frontier.queue.length)

theorem next_decreases {frontier after : Frontier σ}
    (h : frontier.next bounds base visit = some after) :
    Prod.Lex (· < ·) (· < ·) (after.measure bounds) (frontier.measure bounds) := by
  unfold next at h
  split at h
  · contradiction
  · next url queue hqueue =>
    split at h
    · split at h
      · cases h
        simp only [measure, hqueue, List.length_cons]
        exact .right _ (Nat.lt_succ_self _)
      · cases h
        rcases visit frontier.visited url (depth url base) frontier.state with ⟨_ | ⟨id, links⟩, s⟩
        · simp only [measure, advance, hqueue, List.length_cons]
          exact .right _ (Nat.lt_succ_self _)
        · refine .left _ _ ?_
          simp only [advance, List.length_append, List.length_cons, List.length_nil]
          omega
    · contradiction

def walk (frontier : Frontier σ) : Frontier σ :=
  match _round : frontier.next bounds base visit with
  | none => frontier
  | some after => walk after
termination_by frontier.measure bounds
decreasing_by exact next_decreases bounds base visit _round

end Frontier

end Sitecheck.Crawl
