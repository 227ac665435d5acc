import Sitecheck.Settings.Basic

/-!
# Settings in use

The settings a session works with.  The crawl section can be replaced value by
value while the session runs, by values that nobody has checked.
-/

namespace Sitecheck.Settings

structure LiveCrawl where
  maxDepth : Json
  maxPages : Json
  timeout : Json
  screenshot : Json
  viewport : List (String × Int)
  pageDelay : Json
  skipEmbeddings : Json

structure Live where
  base : Settings
  crawl : LiveCrawl

def Crawl.live (s : Crawl) : LiveCrawl :=
  { maxDepth := .int s.maxDepth
    maxPages := .int s.maxPages
    timeout := .int s.timeout
    screenshot := .bool s.screenshot
    viewport := s.viewport
    pageDelay := .int s.pageDelay
    skipEmbeddings := .bool s.skipEmbeddings }

def live (s : Settings) : Live := ⟨s, s.crawl.live⟩

/-- Where the settings that the next component asks for come from: nowhere
yet, from the server's own, or from a copy read later. -/
inductive Cache where
  | empty
  | shared
  | own (live : Live)

def Cache.read? : Cache → (server : Option Live) → Option Live
  | .empty, _ => none
  | .shared, server => server
  | .own live, _ => some live

end Sitecheck.Settings
