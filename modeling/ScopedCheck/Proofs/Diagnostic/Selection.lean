import Mathlib.Data.List.Basic
import ScopedCheck.Diagnostic.Filter
import ScopedCheck.Proofs.Diagnostic.RawSet
import ScopedCheck.Proofs.Diagnostic.Rules

/-!
# What a selection keeps

Every entry of a requested file is either reported or counted as ignored, so the
total does not depend on the rules.  A longer list of rules only takes
diagnostics away.
-/

namespace ScopedCheck

namespace Selection

/-! ## The files that count -/

theorem isRequested_iff {requested : List Path} {file : Path} (hfile : file.IsNormal) :
    isRequested requested file = true ↔ ∃ asked ∈ requested, asked.normalize = file := by
  simp [isRequested, (Path.isNormal_normalize _).same_iff_eq hfile]

theorem mem_relevant {raw : RawSet} {requested : List Path} {file : Path}
    {entries : List RawEntry} :
    (file, entries) ∈ relevant raw requested ↔
      (∃ path, (path, entries) ∈ raw.files ∧ path.normalize = file) ∧ entries ≠ [] ∧
        ∃ asked ∈ requested, asked.normalize = file := by
  have hfile : ∀ path : Path, path.normalize = file → file.IsNormal := by
    rintro path rfl
    exact Path.isNormal_normalize path
  constructor
  · intro h
    obtain ⟨hmem, hcounts⟩ := List.mem_filter.1 h
    obtain ⟨⟨path, listed⟩, hraw, heq⟩ := List.mem_map.1 hmem
    obtain ⟨hpath, rfl⟩ := Prod.mk.inj heq
    simp only [Bool.and_eq_true, Bool.not_eq_true', List.isEmpty_eq_false_iff] at hcounts
    exact ⟨⟨path, hraw, hpath⟩, hcounts.1, (isRequested_iff (hfile path hpath)).1 hcounts.2⟩
  · rintro ⟨⟨path, hraw, hpath⟩, hne, hasked⟩
    refine List.mem_filter.2 ⟨List.mem_map.2 ⟨(path, entries), hraw, by rw [← hpath]⟩, ?_⟩
    simpa [hne] using (isRequested_iff (hfile path hpath)).2 hasked

def diagnosticsOf (files : List (Path × List RawEntry)) : List Diagnostic :=
  files.flatMap fun (path, entries) => entries.map (Diagnostic.ofEntry path)

def countOf (files : List (Path × List RawEntry)) : Nat :=
  (files.flatMap (·.2)).length

theorem length_diagnosticsOf (files : List (Path × List RawEntry)) :
    (diagnosticsOf files).length = countOf files := by
  simp [diagnosticsOf, countOf, List.length_flatMap]

theorem countOf_filter_add (keep : Path × List RawEntry → Bool)
    (files : List (Path × List RawEntry)) :
    countOf (files.filter keep) + countOf (files.filter fun file => !keep file) =
      countOf files := by
  simp only [countOf, List.length_flatMap]
  induction files with
  | nil => rfl
  | cons file rest ih =>
      cases h : keep file <;> simp [h] <;> omega

theorem diagnosticsOf_cons (path : Path) (entries : List RawEntry)
    (rest : List (Path × List RawEntry)) :
    diagnosticsOf ((path, entries) :: rest) =
      entries.map (Diagnostic.ofEntry path) ++ diagnosticsOf rest := by
  simp [diagnosticsOf]

/-- All diagnostics of a file are kept or dropped together. -/
theorem filter_map_ofEntry (keep : Path → Bool) (path : Path) (entries : List RawEntry) :
    (entries.map (Diagnostic.ofEntry path)).filter (fun diagnostic => keep diagnostic.file) =
      if keep path then entries.map (Diagnostic.ofEntry path) else [] := by
  have hfile : ∀ diagnostic ∈ entries.map (Diagnostic.ofEntry path),
      keep diagnostic.file = keep path := by
    intro diagnostic hmem
    obtain ⟨entry, _, rfl⟩ := List.mem_map.1 hmem
    rfl
  rw [List.filter_congr hfile]
  cases keep path <;> simp

theorem diagnosticsOf_filter (keep : Path → Bool) (files : List (Path × List RawEntry)) :
    diagnosticsOf (files.filter fun file => keep file.1) =
      (diagnosticsOf files).filter fun diagnostic => keep diagnostic.file := by
  induction files with
  | nil => rfl
  | cons file rest ih =>
      obtain ⟨path, entries⟩ := file
      rw [diagnosticsOf_cons, List.filter_append, filter_map_ofEntry, ← ih]
      cases h : keep path <;> simp [h, diagnosticsOf_cons]

theorem mem_map_file_diagnosticsOf {files : List (Path × List RawEntry)} {path : Path} :
    path ∈ (diagnosticsOf files).map (·.file) ↔
      ∃ entries, (path, entries) ∈ files ∧ entries ≠ [] := by
  constructor
  · intro h
    obtain ⟨diagnostic, hdiagnostic, rfl⟩ := List.mem_map.1 h
    obtain ⟨⟨path, entries⟩, hmem, hentry⟩ := List.mem_flatMap.1 hdiagnostic
    obtain ⟨entry, hlisted, rfl⟩ := List.mem_map.1 hentry
    exact ⟨entries, hmem, List.ne_nil_of_mem hlisted⟩
  · rintro ⟨entries, hmem, hne⟩
    obtain ⟨entry, hlisted⟩ := List.exists_mem_of_ne_nil entries hne
    refine List.mem_map.2 ⟨Diagnostic.ofEntry path entry, ?_, rfl⟩
    exact List.mem_flatMap.2 ⟨(path, entries), hmem, List.mem_map.2 ⟨entry, hlisted, rfl⟩⟩

/-! ## A selection through its diagnostics -/

theorem diagnostics_ofRaw (raw : RawSet) (requested : List Path) (ignore : IgnoreList) :
    (ofRaw raw requested ignore).diagnostics =
      (diagnosticsOf (relevant raw requested)).filter
        fun diagnostic => !ignore.isIgnored diagnostic.file :=
  diagnosticsOf_filter (fun path => !ignore.isIgnored path) (relevant raw requested)

theorem diagnostics_ofRaw_disabled (raw : RawSet) (requested : List Path) :
    (ofRaw raw requested .disabled).diagnostics = diagnosticsOf (relevant raw requested) := by
  rw [diagnostics_ofRaw]
  refine List.filter_eq_self.2 ?_
  intro diagnostic _
  rw [IgnoreList.isIgnored_disabled]
  rfl

/-- Reported and ignored entries together are all entries of the files that count. -/
theorem totalErrors_eq_countOf (raw : RawSet) (requested : List Path) (ignore : IgnoreList) :
    (ofRaw raw requested ignore).stats.totalErrors = countOf (relevant raw requested) := by
  have hsplit := countOf_filter_add (fun file => ignore.isIgnored file.1) (relevant raw requested)
  have hkept := length_diagnosticsOf
    ((relevant raw requested).filter fun file => !ignore.isIgnored file.1)
  change (diagnosticsOf ((relevant raw requested).filter fun file =>
      !ignore.isIgnored file.1)).length +
    countOf ((relevant raw requested).filter fun file => ignore.isIgnored file.1) = _
  omega

/-- Number of entries that a raw set lists under the requested files, however these are spelled. -/
def listedCount (raw : RawSet) (requested : List Path) : Nat :=
  countOf (raw.files.filter fun (path, _) =>
    decide (∃ asked ∈ requested, asked.normalize = path.normalize))

theorem countOf_relevant (raw : RawSet) (requested : List Path) :
    countOf (relevant raw requested) = listedCount raw requested := by
  unfold relevant listedCount countOf
  induction raw.files with
  | nil => rfl
  | cons file rest ih =>
      obtain ⟨path, entries⟩ := file
      have hasked : isRequested requested path.normalize = true ↔
          ∃ asked ∈ requested, asked.normalize = path.normalize :=
        isRequested_iff (Path.isNormal_normalize path)
      by_cases h : ∃ asked ∈ requested, asked.normalize = path.normalize
      · cases entries <;> simp_all
      · have hnot : isRequested requested path.normalize = false := by
          rw [Bool.eq_false_iff]
          exact fun hreq => h (hasked.1 hreq)
        simp_all

/-- Diagnostics are reported for the files that count and are not ignored. -/
theorem mem_map_file_ofRaw {raw : RawSet} {requested : List Path} {ignore : IgnoreList}
    {file : Path} :
    file ∈ (ofRaw raw requested ignore).diagnostics.map (·.file) ↔
      (∃ entries, (file, entries) ∈ relevant raw requested) ∧ ignore.isIgnored file = false := by
  have hcounts : file ∈ (diagnosticsOf (relevant raw requested)).map (·.file) ↔
      ∃ entries, (file, entries) ∈ relevant raw requested := by
    rw [mem_map_file_diagnosticsOf]
    constructor
    · rintro ⟨entries, hmem, _⟩
      exact ⟨entries, hmem⟩
    · rintro ⟨entries, hmem⟩
      exact ⟨entries, hmem, (mem_relevant.1 hmem).2.1⟩
  rw [← hcounts, diagnostics_ofRaw]
  constructor
  · intro h
    obtain ⟨diagnostic, hmem, rfl⟩ := List.mem_map.1 h
    obtain ⟨hlisted, hkept⟩ := List.mem_filter.1 hmem
    exact ⟨List.mem_map.2 ⟨diagnostic, hlisted, rfl⟩, by simpa using hkept⟩
  · rintro ⟨h, hkept⟩
    obtain ⟨diagnostic, hlisted, rfl⟩ := List.mem_map.1 h
    exact List.mem_map.2 ⟨diagnostic, List.mem_filter.2 ⟨hlisted, by simp [hkept]⟩, rfl⟩

theorem requested_of_mem_ofRaw {raw : RawSet} {requested : List Path} {ignore : IgnoreList}
    {diagnostic : Diagnostic} (h : diagnostic ∈ (ofRaw raw requested ignore).diagnostics) :
    (∃ asked ∈ requested, asked.normalize = diagnostic.file) ∧
      ignore.isIgnored diagnostic.file = false := by
  obtain ⟨⟨entries, hfile⟩, hkept⟩ := mem_map_file_ofRaw.1 (List.mem_map.2 ⟨diagnostic, h, rfl⟩)
  exact ⟨(mem_relevant.1 hfile).2.2, hkept⟩

theorem isNormal_of_mem_ofRaw {raw : RawSet} {requested : List Path} {ignore : IgnoreList}
    {diagnostic : Diagnostic} (h : diagnostic ∈ (ofRaw raw requested ignore).diagnostics) :
    diagnostic.file.IsNormal := by
  obtain ⟨⟨asked, _, hfile⟩, _⟩ := requested_of_mem_ofRaw h
  rw [← hfile]
  exact Path.isNormal_normalize asked

/-! ## The part that counts -/

def asks (requested : List Path) (path : Path) : Bool :=
  isRequested requested path.normalize

theorem asks_congr (requested : List Path) (a b : Path) (h : a.same b = true) :
    asks requested a = asks requested b := by
  rw [asks, asks, Path.normalize_congr h]

theorem relevant_restrict (raw : RawSet) (requested : List Path) :
    relevant (raw.restrict (asks requested)) requested = relevant raw requested := by
  unfold relevant RawSet.restrict
  rw [List.filter_map, List.filter_map, List.filter_filter]
  congr 1
  refine List.filter_congr ?_
  rintro ⟨path, entries⟩ _
  cases h : isRequested requested path.normalize <;> simp [asks, h]

/-- What a set lists of other files is no part of a selection. -/
theorem ofRaw_restrict (raw : RawSet) (requested : List Path) (ignore : IgnoreList) :
    ofRaw (raw.restrict (asks requested)) requested ignore = ofRaw raw requested ignore := by
  simp only [ofRaw, relevant_restrict]

/-! ## Conservation -/

/-- More rules keep what they do not ignore themselves. -/
theorem diagnostics_ofRaw_of_extends (raw : RawSet) (requested : List Path)
    {longer shorter : IgnoreList} (h : longer.Extends shorter) :
    (ofRaw raw requested longer).diagnostics =
      (ofRaw raw requested shorter).diagnostics.filter
        fun diagnostic => !longer.isIgnored diagnostic.file := by
  rw [diagnostics_ofRaw, diagnostics_ofRaw, List.filter_filter]
  refine List.filter_congr ?_
  intro diagnostic _
  cases hlonger : longer.isIgnored diagnostic.file with
  | true => rfl
  | false =>
      have hshorter : shorter.isIgnored diagnostic.file = false := by
        rw [Bool.eq_false_iff]
        intro hignored
        simp [h.isIgnored hignored] at hlonger
      simp [hshorter]

/-- What more rules take away they count as ignored. -/
theorem ignoredErrors_ofRaw_of_extends (raw : RawSet) (requested : List Path)
    {longer shorter : IgnoreList} (h : longer.Extends shorter) :
    (ofRaw raw requested longer).stats.ignoredErrors =
      (ofRaw raw requested shorter).stats.ignoredErrors +
        ((ofRaw raw requested shorter).diagnostics.filter
          fun diagnostic => longer.isIgnored diagnostic.file).length := by
  have hlonger := totalErrors_ofRaw raw requested longer
  have hshorter := totalErrors_ofRaw raw requested shorter
  rw [totalErrors_eq_countOf] at hlonger hshorter
  have hkept := congrArg List.length (diagnostics_ofRaw_of_extends raw requested h)
  have hsplit := List.length_eq_length_filter_add (l := (ofRaw raw requested shorter).diagnostics)
    (fun diagnostic => longer.isIgnored diagnostic.file)
  omega

/--
Entries of requested files are reported or counted as ignored, and only the rules decide which.

The total is that of the raw set alone.  What is reported is what would be reported without
rules, less the ignored files; rules added at the end take away diagnostics and nothing else,
and count what they take away.
-/
theorem ofRaw_conserves (raw : RawSet) (requested : List Path) (ignore : IgnoreList) :
    (ofRaw raw requested ignore).stats.totalErrors =
        (ofRaw raw requested ignore).diagnostics.length +
          (ofRaw raw requested ignore).stats.ignoredErrors ∧
      (ofRaw raw requested ignore).stats.totalErrors = listedCount raw requested ∧
      (ofRaw raw requested ignore).diagnostics =
        (ofRaw raw requested .disabled).diagnostics.filter
          (fun diagnostic => !ignore.isIgnored diagnostic.file) ∧
      (∀ diagnostic ∈ (ofRaw raw requested ignore).diagnostics,
        (∃ asked ∈ requested, asked.normalize = diagnostic.file) ∧
          ignore.isIgnored diagnostic.file = false) ∧
      ∀ (rules more : List String) (root : Path) (longer : IgnoreList),
        IgnoreList.compile rules root = .ok ignore →
          IgnoreList.compile (rules ++ more) root = .ok longer →
            (ofRaw raw requested longer).diagnostics.Sublist
                (ofRaw raw requested ignore).diagnostics ∧
              (ofRaw raw requested longer).diagnostics =
                (ofRaw raw requested ignore).diagnostics.filter
                  (fun diagnostic => !longer.isIgnored diagnostic.file) ∧
              (ofRaw raw requested longer).stats.ignoredErrors =
                (ofRaw raw requested ignore).stats.ignoredErrors +
                  ((ofRaw raw requested ignore).diagnostics.filter
                    (fun diagnostic => longer.isIgnored diagnostic.file)).length := by
  refine ⟨totalErrors_ofRaw raw requested ignore, ?_, ?_, ?_, ?_⟩
  · rw [totalErrors_eq_countOf, countOf_relevant]
  · rw [diagnostics_ofRaw, diagnostics_ofRaw_disabled]
  · intro diagnostic hmem
    exact requested_of_mem_ofRaw hmem
  · intro rules more root longer hrules hmore
    have hextends := IgnoreList.extends_compile_append hrules hmore
    have hkept := diagnostics_ofRaw_of_extends raw requested hextends
    refine ⟨?_, hkept, ignoredErrors_ofRaw_of_extends raw requested hextends⟩
    rw [hkept]
    exact List.filter_sublist

/-- A glob added after a path rule takes the two diagnostics of the file that it matches. -/
theorem ofRaw_conserves_glob_after_path :
    let entry : RawEntry := ⟨none, 0, 1, .plain "e", none⟩
    let raw : RawSet :=
      ⟨[(⟨"/p/a.ts"⟩, [entry]), (⟨"/p/./b.ts"⟩, [entry, entry]), (⟨"/p/c.ts"⟩, [entry])]⟩
    let requested : List Path := [⟨"/p/b.ts"⟩, ⟨"/p/q/../a.ts"⟩, ⟨"/p//d.ts"⟩]
    let shorter : IgnoreList := ⟨⟨"/p"⟩, [⟨"/p/a.ts"⟩], []⟩
    let longer : IgnoreList := ⟨⟨"/p"⟩, [⟨"/p/a.ts"⟩], [[.literal 'b', .star]]⟩
    IgnoreList.compile ["a.ts"] ⟨"/p"⟩ = .ok shorter ∧
      IgnoreList.compile (["a.ts"] ++ ["b*"]) ⟨"/p"⟩ = .ok longer ∧
      (ofRaw raw requested shorter).stats.ignoredErrors = 1 ∧
      (ofRaw raw requested longer).stats.ignoredErrors =
        (ofRaw raw requested shorter).stats.ignoredErrors +
          ((ofRaw raw requested shorter).diagnostics.filter
            (fun diagnostic => longer.isIgnored diagnostic.file)).length ∧
      (ofRaw raw requested longer).stats.ignoredErrors = 3 := by
  intro entry raw requested shorter longer
  have hshorter : IgnoreList.compile ["a.ts"] ⟨"/p"⟩ = .ok shorter := rfl
  have hlonger : IgnoreList.compile (["a.ts"] ++ ["b*"]) ⟨"/p"⟩ = .ok longer := rfl
  have hconserves := ofRaw_conserves raw requested shorter
  have hadded := hconserves.2.2.2.2 ["a.ts"] ["b*"] ⟨"/p"⟩ longer hshorter hlonger
  have hone : (ofRaw raw requested shorter).stats.ignoredErrors = 1 := by decide +kernel
  have hthree : (ofRaw raw requested longer).stats.ignoredErrors = 3 := by decide +kernel
  exact ⟨hshorter, hlonger, hone, hadded.2.2, hthree⟩

end Selection

end ScopedCheck
