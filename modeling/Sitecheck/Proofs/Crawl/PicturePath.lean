import Sitecheck.Proofs.Crawl.Picture

/-!
# Where pictures are kept

Whatever the path of an address looks like, its picture is kept in the directory of the
crawl, under a name in which no character is reserved.  Making a file name of a file name
changes nothing.
-/

namespace Sitecheck

/-! ## File names of file names -/

theorem Chars.trim_trim (p : Char → Bool) (text : List Char) :
    trim p (trim p text) = trim p text := by
  simp only [trim, dropEndWhile_eq_rdropWhile]
  cases hkept : (text.dropWhile p).rdropWhile p with
  | nil => rfl
  | cons c kept =>
    -- what is kept begins as the text without its first characters does
    obtain ⟨rest, hrest⟩ := List.rdropWhile_prefix p (text.dropWhile p)
    rw [hkept] at hrest
    have hhead := List.head?_dropWhile_not p text
    rw [← hrest, List.cons_append, List.head?_cons] at hhead
    rw [List.dropWhile_cons_of_neg (by simp [hhead]), ← hkept, List.rdropWhile_idempotent]

theorem FileName.plain_of_not_mem {c : Char} (h : c ∉ reserved) : plain c = c := by
  simp [plain, h]

theorem FileName.ofText_ofText (text : String) : ofText (ofText text) = ofText text := by
  have hplain : (ofText text).toList.map plain = (ofText text).toList := by
    rw [List.map_congr_left fun c hc => plain_of_not_mem fun hmem => not_mem_ofText hmem text hc,
      List.map_id']
  have hstrip : Text.strip (ofText text) = ofText text := by
    simp only [ofText, Text.strip, Text.trim, String.toList_ofList, Chars.trim_trim]
  rw [ofText, hplain, String.ofList_toList, hstrip]

/-! ## The directory of a crawl -/

namespace Crawl.Crawler

variable {crawler : Crawler} {crawl url : String} {split : Url.Split}

def pictureDirectory (crawler : Crawler) (crawl : String) : Path :=
  let artifacts := Path.ofText crawler.settings.base.storage.artifacts
  ⟨artifacts.root, artifacts.parts ++ ["screenshots", crawl]⟩

theorem pictureName_of_split (h : Url.Split.ofText url = .ok split) :
    ∃ text, pictureName url = .ok (FileName.ofText text ++ ".png") := by
  rw [pictureName, h]
  exact ⟨_, rfl⟩

theorem picturePath_of_name {name : String} (crawler : Crawler) (hcrawl : Path.IsName crawl)
    (hname : pictureName url = .ok name) :
    crawler.picturePath (.str crawl) url = (do
      Run.makeDirectory (crawler.pictureDirectory crawl)
      return (crawler.pictureDirectory crawl).join name) := by
  have hscreenshots : Path.IsName "screenshots" := ⟨by decide, by decide⟩
  have hdirectory : ((Path.ofText crawler.settings.base.storage.artifacts).join
      "screenshots").join crawl = crawler.pictureDirectory crawl := by
    simp [Path.join_name _ hscreenshots, Path.join_name _ hcrawl, pictureDirectory]
  funext s
  rw [picturePath, hname, Run.bind_of_ok (Run.lift_apply _ s)]
  simp only [hdirectory]

/-- The picture of a page is kept in the directory of the crawl, under a plain name. -/
theorem picturePath_contained (crawler : Crawler) (hcrawl : Path.IsName crawl)
    (hurl : Url.Split.ofText url = .ok split) :
    (∃ path : Path, path.parent = crawler.pictureDirectory crawl ∧
      path.text = (crawler.pictureDirectory crawl).text ++ "/" ++ path.name ∧
      ".png".toList <:+ path.name.toList ∧ (∀ c ∈ "<>:\"/\\|?*".toList, c ∉ path.name.toList) ∧
      crawler.picturePath (.str crawl) url = (do
        Run.makeDirectory (crawler.pictureDirectory crawl)
        return path)) ∧
      ∀ text, FileName.ofText (FileName.ofText text) = FileName.ofText text := by
  obtain ⟨text, hname⟩ := pictureName_of_split hurl
  refine ⟨⟨_, ?_, ?_, ?_, ?_, picturePath_of_name crawler hcrawl hname⟩, FileName.ofText_ofText⟩ <;>
    simp only [Path.join_name _ (isName_png text), Path.name, List.getLastD_concat]
  · simp [Path.parent]
  · have hparts : (crawler.pictureDirectory crawl).parts ≠ [] := by simp [pictureDirectory]
    rw [Path.text_concat, if_neg hparts]
    simp [Path.text, hparts, String.append_assoc]
  · rw [String.toList_append]
    exact List.suffix_append _ _
  · have hends : ∀ c ∈ "<>:\"/\\|?*".toList, c ∉ ".png".toList := by simp
    intro c hc
    rw [String.toList_append, List.mem_append, not_or]
    exact ⟨FileName.not_mem_ofText hc text, hends c hc⟩

/-- An address that climbs out of its site has a picture like any other. -/
theorem picturePath_of_climb :
    ∃ path : Path, path.parent = ⟨.working, ["artifacts", "screenshots", "crawl"]⟩ ∧
      ".png".toList <:+ path.name.toList ∧ '/' ∉ path.name.toList ∧
      (sample.picturePath (.str "crawl") "https://a.co/../..//etc\\c:*?x"
        (sampleSurroundings restlessWeb)).1.toOption = some path := by
  have hsplit : (Url.Split.ofText "https://a.co/../..//etc\\c:*?x").isOk = true := by
    decide +kernel
  have hmade : (Run.makeDirectory (sample.pictureDirectory "crawl")
      (sampleSurroundings restlessWeb)).1.isOk = true := by decide +kernel
  have hcrawl : Path.IsName "crawl" := ⟨by decide, by decide⟩
  cases hurl : Url.Split.ofText "https://a.co/../..//etc\\c:*?x" with
  | error => simp [hurl, Except.isOk, Except.toBool] at hsplit
  | ok split =>
    obtain ⟨⟨path, hparent, -, hends, hfree, hpath⟩, -⟩ := picturePath_contained sample hcrawl hurl
    have hslash := hfree '/' (by decide)
    have hdirectory : sample.pictureDirectory "crawl" =
        ⟨.working, ["artifacts", "screenshots", "crawl"]⟩ := by decide +kernel
    refine ⟨path, hparent.trans hdirectory, hends, hslash, ?_⟩
    rcases hdone : Run.makeDirectory (sample.pictureDirectory "crawl")
        (sampleSurroundings restlessWeb) with ⟨fault | made, t⟩
    · simp [hdone, Except.isOk, Except.toBool] at hmade
    · rw [hpath, Run.bind_of_ok hdone]
      rfl

end Crawl.Crawler

end Sitecheck
