import ScopedCheck.Diagnostic.Report
import ScopedCheck.Proofs.Path.Distinct

/-!
# Stable grouping

The groups of a list of diagnostics are the files it mentions, in order of first
mention, each with the diagnostics of that file in the order of the list.
-/

namespace ScopedCheck

/-! ## Files mentioned -/

def mentionedFiles (diagnostics : List Diagnostic) : List Path :=
  Path.distinct (diagnostics.map (·.file))

theorem apart_mentionedFiles (diagnostics : List Diagnostic) :
    Path.Apart (mentionedFiles diagnostics) :=
  Path.apart_distinct _

theorem mentionedFiles_append (diagnostics : List Diagnostic) (last : Diagnostic) :
    mentionedFiles (diagnostics ++ [last]) =
      Path.addNew (mentionedFiles diagnostics) last.file := by
  simp [mentionedFiles, Path.distinct]

theorem any_mentionedFiles (diagnostics : List Diagnostic) (path : Path) :
    (mentionedFiles diagnostics).any (·.same path) =
      diagnostics.any (·.file.same path) := by
  rw [mentionedFiles, Path.any_same_distinct, List.any_map]
  rfl

/-! ## Groups -/

theorem addToGroup_of_not_any {diagnostic : Diagnostic} {groups : List (Path × List Diagnostic)}
    (h : groups.any (·.1.same diagnostic.file) = false) :
    addToGroup diagnostic groups = groups ++ [(diagnostic.file, [diagnostic])] := by
  induction groups with
  | nil => rfl
  | cons head rest ih =>
      simp only [List.any_cons, Bool.or_eq_false_iff] at h
      simp [addToGroup, h.1, ih h.2]

/-- Among files that are apart only the group of the diagnostic's own file grows. -/
theorem addToGroup_of_any {diagnostic : Diagnostic} {paths : List Path}
    (hapart : Path.Apart paths) (group : Path → List Diagnostic)
    (h : paths.any (·.same diagnostic.file) = true) :
    addToGroup diagnostic (paths.map fun path => (path, group path)) =
      paths.map fun path =>
        (path, if path.same diagnostic.file then group path ++ [diagnostic] else group path) := by
  induction paths with
  | nil => simp at h
  | cons first rest ih =>
      obtain ⟨hfirst, hrest⟩ := List.pairwise_cons.1 hapart
      cases hsame : first.same diagnostic.file with
      | false =>
          have hany : rest.any (·.same diagnostic.file) = true := by simpa [hsame] using h
          simp [addToGroup, hsame, ih hrest hany]
      | true =>
          have hothers : ∀ path ∈ rest, path.same diagnostic.file = false := by
            intro path hmem
            refine Bool.eq_false_iff.2 fun hpath => ?_
            rw [Path.same_comm] at hpath
            exact Bool.eq_false_iff.1 (hfirst path hmem) (Path.same_trans hsame hpath)
          have htail : rest.map (fun path => (path, group path)) =
              rest.map fun path => (path,
                if path.same diagnostic.file then group path ++ [diagnostic] else group path) :=
            List.map_congr_left fun path hmem => by simp [hothers path hmem]
          simp [addToGroup, hsame, htail]

theorem groupByFile_append (diagnostics : List Diagnostic) (last : Diagnostic) :
    groupByFile (diagnostics ++ [last]) = addToGroup last (groupByFile diagnostics) := by
  simp [groupByFile]

/-- Grouping by file keeps the order of first mention and, within a file, the order given. -/
theorem groupByFile_eq (diagnostics : List Diagnostic) :
    groupByFile diagnostics = (mentionedFiles diagnostics).map fun path =>
      (path, diagnostics.filter (path.same ·.file)) := by
  -- The fold adds the last diagnostic last, so the induction takes it off first.
  induction diagnostics using List.reverseRecOn with
  | nil => rfl
  | append_singleton diagnostics last ih =>
      rw [groupByFile_append, mentionedFiles_append, ih]
      cases hany : (mentionedFiles diagnostics).any (·.same last.file) with
      | true =>
          rw [Path.addNew_of_any hany, addToGroup_of_any (apart_mentionedFiles _) _ hany]
          refine List.map_congr_left fun path _ => ?_
          cases hsame : path.same last.file <;> simp [List.filter_append, hsame]
      | false =>
          have hearlier : ∀ path ∈ mentionedFiles diagnostics, path.same last.file = false :=
            fun path hmem => Bool.eq_false_iff.2 (List.any_eq_false.1 hany path hmem)
          have hnone : diagnostics.filter (last.file.same ·.file) = [] := by
            rw [any_mentionedFiles] at hany
            refine List.filter_eq_nil_iff.2 fun diagnostic hmem hsame => ?_
            rw [Path.same_comm] at hsame
            exact List.any_eq_false.1 hany diagnostic hmem hsame
          rw [Path.addNew_of_not_any hany, List.map_append,
            addToGroup_of_not_any (by simpa [List.any_map] using hearlier)]
          congr 1
          · refine List.map_congr_left fun path hmem => ?_
            simp [List.filter_append, hearlier path hmem]
          · simp [List.filter_append, hnone]

theorem map_fst_groupByFile (diagnostics : List Diagnostic) :
    (groupByFile diagnostics).map (·.1) = mentionedFiles diagnostics := by
  rw [groupByFile_eq, List.map_map]
  exact List.map_id _

end ScopedCheck
