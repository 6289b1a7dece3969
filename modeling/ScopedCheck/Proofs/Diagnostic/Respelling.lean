import ScopedCheck.Proofs.Diagnostic.Selection

/-!
# Selections under other spellings

A selection depends on which files are asked for and on which files are listed.
It does not depend on how either are spelled, nor on how often and in which order
files are asked for; only the number of requests is counted as it is.
-/

namespace ScopedCheck

namespace Selection

/-- Whether two lists ask for the same files, whatever their order and spelling. -/
def AskAlike (requested others : List Path) : Prop :=
  (requested.map Path.normalize).toFinset = (others.map Path.normalize).toFinset

instance (requested others : List Path) : Decidable (AskAlike requested others) :=
  inferInstanceAs (Decidable (_ = _))

/-- Whether two sets list the same entries place by place, under spellings of the same files. -/
def ListAlike (raw other : RawSet) : Prop :=
  List.Forall₂ (fun file respelled =>
    file.1.normalize = respelled.1.normalize ∧ file.2 = respelled.2) raw.files other.files

theorem AskAlike.exists_iff {requested others : List Path} (h : AskAlike requested others)
    (file : Path) :
    (∃ asked ∈ requested, asked.normalize = file) ↔ ∃ asked ∈ others, asked.normalize = file := by
  have hmem : file ∈ (requested.map Path.normalize).toFinset ↔
      file ∈ (others.map Path.normalize).toFinset := by
    rw [h]
  simpa only [List.mem_toFinset, List.mem_map] using hmem

theorem isRequested_of_askAlike {requested others : List Path} (h : AskAlike requested others)
    {file : Path} (hfile : file.IsNormal) :
    isRequested requested file = isRequested others file := by
  rw [Bool.eq_iff_iff, isRequested_iff hfile, isRequested_iff hfile]
  exact h.exists_iff file

theorem ListAlike.map_eq {α : Type} {raw other : RawSet} (h : ListAlike raw other)
    {see : Path × List RawEntry → α}
    (hsee : ∀ file respelled : Path × List RawEntry,
      file.1.normalize = respelled.1.normalize → file.2 = respelled.2 → see file = see respelled) :
    raw.files.map see = other.files.map see := by
  rw [← List.forall₂_eq_eq_eq, List.forall₂_map_left_iff, List.forall₂_map_right_iff]
  exact h.imp fun file respelled halike => hsee file respelled halike.1 halike.2

theorem relevant_of_alike {raw other : RawSet} {requested others : List Path}
    (hlisted : ListAlike raw other) (hasked : AskAlike requested others) :
    relevant raw requested = relevant other others := by
  unfold relevant
  rw [hlisted.map_eq fun file respelled hpath hentries => by simp only [hpath, hentries]]
  refine List.filter_congr ?_
  rintro ⟨path, entries⟩ hmem
  obtain ⟨listed, _, heq⟩ := List.mem_map.1 hmem
  obtain ⟨rfl, _⟩ := Prod.mk.inj heq
  simp only [isRequested_of_askAlike hasked (Path.isNormal_normalize listed.1)]

/--
Spelling, order and repetition of requests do not matter, and neither do the spellings of
the listed files.

The diagnostics are the same down to the spelling of their files, and so are all counters
but the number of requests.
-/
theorem ofRaw_respelled {raw other : RawSet} {requested others : List Path}
    (hlisted : ListAlike raw other) (hasked : AskAlike requested others) (ignore : IgnoreList) :
    (ofRaw raw requested ignore).diagnostics = (ofRaw other others ignore).diagnostics ∧
      (ofRaw raw requested ignore).stats.totalErrors =
        (ofRaw other others ignore).stats.totalErrors ∧
      (ofRaw raw requested ignore).stats.ignoredFiles =
        (ofRaw other others ignore).stats.ignoredFiles ∧
      (ofRaw raw requested ignore).stats.ignoredErrors =
        (ofRaw other others ignore).stats.ignoredErrors ∧
      (ofRaw raw requested ignore).stats.totalFiles = requested.length ∧
      (ofRaw other others ignore).stats.totalFiles = others.length := by
  have hrelevant := relevant_of_alike hlisted hasked
  have hdiagnostics : (ofRaw raw requested ignore).diagnostics =
      (ofRaw other others ignore).diagnostics := by
    rw [diagnostics_ofRaw, diagnostics_ofRaw, hrelevant]
  refine ⟨hdiagnostics, ?_, ?_, ?_, rfl, rfl⟩
  · rw [totalErrors_eq_countOf, totalErrors_eq_countOf, hrelevant]
  · simp only [ofRaw, hrelevant]
  · simp only [ofRaw, hrelevant]

/-- One ignored and one reported file, asked for twice and by detours in the second run. -/
theorem ofRaw_respelled_detours :
    let entry : RawEntry := ⟨none, 0, 1, .plain "e", none⟩
    let raw : RawSet := ⟨[(⟨"/p/a.ts"⟩, [entry]), (⟨"/p/b.ts"⟩, [entry, entry])]⟩
    let other : RawSet := ⟨[(⟨"/p/x/../a.ts"⟩, [entry]), (⟨"//p/./b.ts/"⟩, [entry, entry])]⟩
    let requested : List Path := [⟨"/p/a.ts"⟩, ⟨"/p/b.ts"⟩]
    let others : List Path := [⟨"/p/./b.ts"⟩, ⟨"/../p//a.ts"⟩, ⟨"/p/y/../b.ts"⟩]
    let ignore : IgnoreList := ⟨⟨"/p"⟩, [⟨"/p/a.ts"⟩], []⟩
    ListAlike raw other ∧ AskAlike requested others ∧
      (ofRaw raw requested ignore).diagnostics = (ofRaw other others ignore).diagnostics ∧
      (ofRaw other others ignore).diagnostics.map (·.file) = [⟨"/p/b.ts"⟩, ⟨"/p/b.ts"⟩] ∧
      (ofRaw raw requested ignore).stats.ignoredFiles =
        (ofRaw other others ignore).stats.ignoredFiles ∧
      (ofRaw raw requested ignore).stats.totalFiles = 2 ∧
      (ofRaw other others ignore).stats.totalFiles = 3 := by
  intro entry raw other requested others ignore
  have hfirst : (Path.mk "/p/a.ts").normalize = (Path.mk "/p/x/../a.ts").normalize := by
    decide +kernel
  have hsecond : (Path.mk "/p/b.ts").normalize = (Path.mk "//p/./b.ts/").normalize := by
    decide +kernel
  have hlisted : ListAlike raw other := .cons ⟨hfirst, rfl⟩ (.cons ⟨hsecond, rfl⟩ .nil)
  have hasked : AskAlike requested others := by decide +kernel
  have hfiles : (ofRaw other others ignore).diagnostics.map (·.file) =
      [⟨"/p/b.ts"⟩, ⟨"/p/b.ts"⟩] := by decide +kernel
  obtain ⟨hdiagnostics, _, hignored, _, htotal, htotalOther⟩ :=
    ofRaw_respelled hlisted hasked ignore
  exact ⟨hlisted, hasked, hdiagnostics, hfiles, hignored, htotal, htotalOther⟩

end Selection

end ScopedCheck
