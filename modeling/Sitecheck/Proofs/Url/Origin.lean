import Sitecheck.Proofs.Text
import Sitecheck.Url.Split

/-!
# The origin of an address

The origin of an address is its scheme and its host.  What is written behind an
address leaves its origin alone if the address has a path already, or if it does
not go on with the name of the host (`SiteAddress.sameOrigin_append_iff`).
-/

namespace Sitecheck.Url

open Split

/-- The scheme and the host of an address that is not refused. -/
def origin? (url : String) : Option (String × String) :=
  match ofText url with
  | .ok split => some (split.scheme, split.host)
  | .error _ => none

/-- A scheme and a host, unless the host is refused. -/
def accepted? (scheme host : List Char) : Option (String × String) :=
  match checkBrackets host, checkLookAlikes host with
  | .ok _, .ok _ => some (String.ofList scheme, String.ofList host)
  | _, _ => none

theorem origin?_eq_accepted? (url : String) :
    origin? url =
      let parts := takeScheme ((url.toList.dropWhile isControlOrSpace).filter (!isOmitted ·))
      accepted? parts.1 (takeHost parts.2).1 := by
  simp only [origin?, ofText, accepted?]
  generalize takeScheme ((url.toList.dropWhile isControlOrSpace).filter (!isOmitted ·)) = parts
  cases checkBrackets (takeHost parts.2).1 with
  | error => rfl
  | ok value =>
    cases checkLookAlikes (takeHost parts.2).1 with
    | error | ok => rfl

theorem accepted?_host_inj {scheme first second : List Char} {origin : String × String}
    (hfirst : accepted? scheme first = some origin)
    (hsecond : accepted? scheme second = some origin) : first = second := by
  have hhost {host : List Char} (h : accepted? scheme host = some origin) :
      String.ofList host = origin.2 := by
    unfold accepted? at h
    split at h
    · cases h
      rfl
    · contradiction
  exact String.ofList_injective ((hhost hfirst).trans (hhost hsecond).symm)

def SameOrigin (first second : String) : Prop :=
  ∃ origin, origin? first = some origin ∧ origin? second = some origin

/-! ## Addresses of sites -/

/-- An address that is a scheme and a host, perhaps with a path. -/
structure SiteAddress where
  scheme : List Char
  host : List Char
  path : List Char
  schemeLetter : ∃ letter ∈ scheme.head?, letter.isAlpha = true
  schemeChars : ∀ c ∈ scheme, isSchemeChar c = true
  hostNonempty : host ≠ []
  hostChars : ∀ c ∈ host, endsHost c = false ∧ isOmitted c = false
  pathSlash : ∀ c ∈ path.head?, c = '/'
  pathChars : ∀ c ∈ path, c ≠ '?' ∧ c ≠ '#' ∧ isOmitted c = false

namespace SiteAddress

variable (address : SiteAddress)

def chars : List Char :=
  address.scheme ++ ':' :: '/' :: '/' :: (address.host ++ address.path)

def text : String := String.ofList address.chars

def trimmed : SiteAddress :=
  { address with
    path := address.path.rdropWhile (· = '/')
    pathSlash := by
      intro c hc
      obtain ⟨rest, hrest⟩ := List.rdropWhile_prefix (· = '/') address.path
      apply address.pathSlash c
      cases htrimmed : address.path.rdropWhile (· = '/') with
      | nil => simp [htrimmed] at hc
      | cons =>
        rw [htrimmed] at hrest hc
        rw [← hrest]
        exact hc
    pathChars := fun c hc =>
      address.pathChars c ((List.rdropWhile_prefix _ _).subset hc) }

/-! ## Trimming -/

private theorem getLast?_front :
    ∀ c ∈ (address.scheme ++ ':' :: '/' :: '/' :: address.host).getLast?, c ∈ address.host := by
  intro c hc
  obtain ⟨last, hlast⟩ := Option.ne_none_iff_exists'.mp
    (mt List.getLast?_eq_none_iff.mp address.hostNonempty)
  have hfront : (':' :: '/' :: '/' :: address.host).getLast? = some last := by
    simp [List.getLast?_cons, hlast]
  rw [List.getLast?_append, hfront] at hc
  cases hc
  exact List.mem_of_getLast? hlast

theorem text_trimmed : address.trimmed.text = Text.trimEnd (· = '/') address.text := by
  have hfront : ∀ c ∈ (address.scheme ++ ':' :: '/' :: '/' :: address.host).getLast?,
      decide (c = '/') = false := by
    intro c hc
    have hends := (address.hostChars c (address.getLast?_front c hc)).1
    simp only [endsHost, Bool.or_eq_false_iff] at hends
    exact hends.1.1
  have happend : address.chars =
      (address.scheme ++ ':' :: '/' :: '/' :: address.host) ++ address.path := by
    simp [chars]
  rw [← String.toList_inj, Text.toList_trimEnd, text, text, String.toList_ofList,
    String.toList_ofList, happend, Chars.rdropWhile_append hfront]
  simp [chars, trimmed]

theorem not_mem_chars {c : Char} (h : c = '#' ∨ c = '?') : c ∉ address.chars := by
  have hscheme : c ∉ address.scheme := by
    intro hmem
    have hchar := address.schemeChars c hmem
    rcases h with rfl | rfl <;> simp [isSchemeChar] at hchar
  have hhost : c ∉ address.host := by
    intro hmem
    have hends := (address.hostChars c hmem).1
    rcases h with rfl | rfl <;> simp [endsHost] at hends
  have hpath : c ∉ address.path := by
    intro hmem
    obtain ⟨hquery, hfragment, -⟩ := address.pathChars c hmem
    rcases h with rfl | rfl
    · exact hfragment rfl
    · exact hquery rfl
  rcases h with rfl | rfl <;> simp [chars, hscheme, hhost, hpath]

theorem getLast?_chars_trimmed : address.trimmed.chars.getLast? ≠ some '/' := by
  have htext : address.trimmed.chars = (Text.trimEnd (· = '/') address.text).toList := by
    rw [← text_trimmed, text, String.toList_ofList]
  rw [htext, Text.toList_trimEnd]
  intro hlast
  simpa using Chars.getLast?_rdropWhile (· = '/') _ _ hlast

/-! ## The parts of an address with more behind it -/

/-- What is read of a text behind an address. -/
def kept (rest : List Char) : List Char := rest.filter (!isOmitted ·)

private theorem isOmitted_of_mem_chars {c : Char} (h : c ∈ address.chars) :
    isOmitted c = false := by
  simp only [chars, List.mem_append, List.mem_cons] at h
  rcases h with h | rfl | rfl | rfl | h | h
  · have hchar := address.schemeChars c h
    cases homitted : isOmitted c with
    | false => rfl
    | true =>
      simp only [isOmitted, Bool.or_eq_true, decide_eq_true_eq] at homitted
      rcases homitted with (rfl | rfl) | rfl <;> simp [isSchemeChar] at hchar
  · rfl
  · rfl
  · rfl
  · exact (address.hostChars c h).2
  · exact (address.pathChars c h).2.2

theorem kept_chars_append (rest : List Char) :
    ((address.chars ++ rest).dropWhile isControlOrSpace).filter (!isOmitted ·) =
      address.chars ++ kept rest := by
  obtain ⟨letter, hletter, halpha⟩ := address.schemeLetter
  obtain ⟨others, hscheme⟩ : ∃ others, address.scheme = letter :: others := by
    cases hscheme : address.scheme with
    | nil => simp [hscheme] at hletter
    | cons first others =>
      simp only [hscheme, List.head?_cons, Option.mem_def, Option.some.injEq] at hletter
      exact ⟨others, by rw [hletter]⟩
  have hstart : isControlOrSpace letter = false := by
    simp only [isControlOrSpace, decide_eq_false_iff_not, Nat.not_le]
    have hcases : letter.isUpper = true ∨ letter.isLower = true := Bool.or_eq_true_iff.mp halpha
    rcases hcases with hupper | hlower
    · have hfirst : letter.val ≥ 'A'.val := (of_decide_eq_true hupper).1
      have hbound : 65 ≤ letter.toNat := UInt32.le_iff_toNat_le.mp hfirst
      omega
    · have hfirst : letter.val ≥ 'a'.val := of_decide_eq_true (Bool.and_eq_true_iff.mp hlower).1
      have hbound : 97 ≤ letter.toNat := UInt32.le_iff_toNat_le.mp hfirst
      omega
  have hall : address.chars.filter (!isOmitted ·) = address.chars := by
    rw [List.filter_eq_self]
    intro c hc
    simp [address.isOmitted_of_mem_chars hc]
  have hdrop : (address.chars ++ rest).dropWhile isControlOrSpace = address.chars ++ rest := by
    simp [chars, hscheme, hstart]
  rw [hdrop, List.filter_append, hall, kept]

theorem takeScheme_append (rest : List Char) :
    takeScheme (address.chars ++ rest) = (address.scheme.map Char.toLower,
      '/' :: '/' :: (address.host ++ address.path ++ rest)) := by
  have hcolon : ':' ∉ address.scheme := by
    intro hmem
    have hchar := address.schemeChars _ hmem
    simp [isSchemeChar] at hchar
  have hfront : (address.chars ++ rest).takeWhile (· ≠ ':') = address.scheme := by
    have hpos : ∀ c ∈ address.scheme, decide (c ≠ ':') = true := by
      intro c hc
      have hne : c ≠ ':' := fun heq => hcolon (heq ▸ hc)
      simpa using hne
    simp only [chars, List.append_assoc]
    rw [List.takeWhile_append_of_pos hpos]
    simp
  have hcut : Chars.cut? [':'] (address.chars ++ rest) =
      some (address.scheme, '/' :: '/' :: (address.host ++ address.path ++ rest)) := by
    simp only [chars, List.append_assoc, List.cons_append]
    exact Chars.cut?_singleton_append hcolon _
  have hall : address.scheme.all isSchemeChar = true := List.all_eq_true.mpr address.schemeChars
  obtain ⟨letter, hletter, halpha⟩ := address.schemeLetter
  unfold takeScheme
  simp only [hfront, hcut]
  cases hscheme : address.scheme with
  | nil => simp [hscheme] at hletter
  | cons =>
    simp only [hscheme, List.head?_cons, Option.mem_def, Option.some.injEq] at hletter
    rw [hscheme, hletter] at hall
    rw [hletter]
    simp only [halpha, hall, Bool.and_self, if_true]

/-- The host goes on behind an address without a path, up to the first mark that
ends a host. -/
def hostWith (rest : List Char) : List Char :=
  if address.path = [] then address.host ++ (kept rest).takeWhile (!endsHost ·) else address.host

theorem takeHost_append (rest : List Char) :
    (takeHost ('/' :: '/' :: (address.host ++ address.path ++ kept rest))).1 =
      address.hostWith rest := by
  have hhost : ∀ c ∈ address.host, (!endsHost c) = true := by
    intro c hc
    simp [(address.hostChars c hc).1]
  have hafter (more : List Char) : Chars.after? ['/', '/'] ('/' :: '/' :: more) = some more := by
    simp [Chars.after?]
  simp only [takeHost, hafter, List.append_assoc, hostWith]
  rw [List.takeWhile_append_of_pos hhost]
  split
  · next hpath => simp [hpath]
  · next hpath =>
    cases hchars : address.path with
    | nil => exact absurd hchars hpath
    | cons first =>
      have hslash := address.pathSlash first (by simp [hchars])
      simp [hslash, endsHost]

/-! ## Origins -/

theorem origin?_append (rest : List Char) :
    origin? (String.ofList (address.chars ++ rest)) =
      accepted? (address.scheme.map Char.toLower) (address.hostWith rest) := by
  rw [origin?_eq_accepted?, String.toList_ofList, kept_chars_append, takeScheme_append]
  dsimp only
  rw [takeHost_append]

theorem origin?_text : origin? address.text =
    accepted? (address.scheme.map Char.toLower) address.host := by
  have happend := address.origin?_append []
  simpa [text, hostWith, kept] using happend

/-- More text behind an address leads to another origin exactly if the address
has no path and the text goes on with its host. -/
theorem sameOrigin_append_iff (haccepted : (origin? address.text).isSome) (rest : List Char) :
    SameOrigin (String.ofList (address.chars ++ rest)) address.text ↔
      address.path ≠ [] ∨ ∀ c ∈ (kept rest).head?, endsHost c = true := by
  obtain ⟨origin, horigin⟩ := Option.isSome_iff_exists.mp haccepted
  have hhost : SameOrigin (String.ofList (address.chars ++ rest)) address.text ↔
      address.hostWith rest = address.host := by
    rw [SameOrigin, origin?_append, origin?_text]
    rw [origin?_text] at horigin
    constructor
    · rintro ⟨other, hother, hsame⟩
      exact accepted?_host_inj hother hsame
    · intro heq
      exact ⟨origin, by rw [heq, horigin], horigin⟩
  rw [hhost, hostWith]
  split
  · next hpath =>
    cases kept rest with
    | nil => simp
    | cons c => cases hends : endsHost c <;> simp [hpath, hends]
  · next hpath => simp [hpath]

end SiteAddress

end Sitecheck.Url
