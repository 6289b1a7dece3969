import Mathlib.Data.Finset.Card
import ScopedCheck.Proofs.Path.NormalForm

/-!
# Paths without repetition

Paths that are added one after the other, each unless it is there already, name
every file once, in order of first mention.  Normal paths are counted by the set
of their spellings.
-/

namespace ScopedCheck

namespace Path

def Apart (paths : List Path) : Prop :=
  paths.Pairwise fun a b => a.same b = false

theorem addNew_of_any {paths : List Path} {path : Path} (h : paths.any (·.same path) = true) :
    addNew paths path = paths := by
  simp only [addNew, h, if_true]

theorem addNew_of_not_any {paths : List Path} {path : Path}
    (h : paths.any (·.same path) = false) : addNew paths path = paths ++ [path] := by
  simp only [addNew, h, Bool.false_eq_true, if_false]

theorem apart_addNew {paths : List Path} (h : Apart paths) (path : Path) :
    Apart (addNew paths path) := by
  cases hany : paths.any (·.same path) with
  | true => rwa [addNew_of_any hany]
  | false =>
      rw [addNew_of_not_any hany]
      refine List.pairwise_append.2 ⟨h, List.pairwise_singleton _ _, ?_⟩
      intro a ha b hb
      rw [List.mem_singleton.1 hb]
      exact Bool.eq_false_iff.2 fun hsame => by simpa [hsame] using List.any_eq_false.1 hany a ha

theorem apart_foldl_addNew (paths : List Path) {found : List Path} (h : Apart found) :
    Apart (paths.foldl addNew found) := by
  induction paths generalizing found with
  | nil => exact h
  | cons path rest ih => exact ih (apart_addNew h path)

theorem apart_distinct (paths : List Path) : Apart (distinct paths) :=
  apart_foldl_addNew paths List.Pairwise.nil

theorem mem_addNew {paths : List Path} {path found : Path} (h : found ∈ addNew paths path) :
    found ∈ paths ∨ found = path := by
  unfold addNew at h
  split at h
  · exact .inl h
  · simpa using h

theorem mem_of_mem_foldl_addNew {paths found : List Path} {path : Path}
    (h : path ∈ paths.foldl addNew found) : path ∈ found ∨ path ∈ paths := by
  induction paths generalizing found with
  | nil => exact .inl h
  | cons first rest ih =>
      rcases ih h with hmem | hmem
      · rcases mem_addNew hmem with hfound | rfl
        · exact .inl hfound
        · exact .inr List.mem_cons_self
      · exact .inr (List.mem_cons_of_mem first hmem)

theorem mem_of_mem_distinct {paths : List Path} {path : Path} (h : path ∈ distinct paths) :
    path ∈ paths :=
  (mem_of_mem_foldl_addNew h).resolve_left List.not_mem_nil

theorem any_same_addNew (paths : List Path) (path other : Path) :
    (addNew paths path).any (·.same other) = (paths.any (·.same other) || path.same other) := by
  cases hany : paths.any (·.same path) with
  | false => simp [addNew_of_not_any hany]
  | true =>
      rw [addNew_of_any hany]
      cases hsame : path.same other with
      | false => simp
      | true =>
          obtain ⟨earlier, hmem, hearlier⟩ := List.any_eq_true.1 hany
          simpa using ⟨earlier, hmem, same_trans hearlier hsame⟩

theorem any_same_foldl_addNew (paths found : List Path) (other : Path) :
    (paths.foldl addNew found).any (·.same other) =
      (found.any (·.same other) || paths.any (·.same other)) := by
  induction paths generalizing found with
  | nil => simp
  | cons path rest ih => simp [ih, any_same_addNew, Bool.or_assoc]

theorem any_same_distinct (paths : List Path) (other : Path) :
    (distinct paths).any (·.same other) = paths.any (·.same other) :=
  any_same_foldl_addNew paths [] other

/-! ## Order of first mention -/

/-- Whether some paths up to a place in a list mention one file, and none of them another. -/
def MentionedBefore (paths : List Path) (earlier later : Path) : Prop :=
  ∃ before after, paths = before ++ after ∧ earlier ∈ before ∧
    before.any (·.same later) = false

theorem MentionedBefore.append {paths : List Path} {earlier later : Path}
    (h : MentionedBefore paths earlier later) (more : List Path) :
    MentionedBefore (paths ++ more) earlier later := by
  obtain ⟨before, after, rfl, hearlier, hlater⟩ := h
  exact ⟨before, after ++ more, List.append_assoc before after more, hearlier, hlater⟩

theorem distinct_concat (paths : List Path) (path : Path) :
    distinct (paths ++ [path]) = addNew (distinct paths) path := by
  rw [distinct, List.foldl_concat, distinct]

/-- Of two paths that are kept, the earlier one is mentioned first. -/
theorem pairwise_distinct (paths : List Path) :
    (distinct paths).Pairwise (MentionedBefore paths) := by
  induction paths using List.reverseRecOn with
  | nil => exact List.Pairwise.nil
  | append_singleton paths path ih =>
      have hbefore := ih.imp fun h => h.append [path]
      rw [distinct_concat]
      cases hany : (distinct paths).any (·.same path) with
      | true => rwa [addNew_of_any hany]
      | false =>
          rw [addNew_of_not_any hany]
          refine List.pairwise_append.2 ⟨hbefore, List.pairwise_singleton _ _, ?_⟩
          intro earlier hmem later hlater
          obtain rfl := List.mem_singleton.1 hlater
          rw [any_same_distinct] at hany
          exact ⟨paths, [later], rfl, mem_of_mem_distinct hmem, hany⟩

theorem exists_first_of_mem_distinct {paths : List Path} {path : Path} (h : path ∈ distinct paths) :
    ∃ before after, paths = before ++ path :: after ∧ before.any (·.same path) = false := by
  induction paths using List.reverseRecOn with
  | nil => exact absurd h List.not_mem_nil
  | append_singleton paths last ih =>
      have hearlier : path ∈ distinct paths → ∃ before after,
          paths ++ [last] = before ++ path :: after ∧ before.any (·.same path) = false := by
        intro hmem
        obtain ⟨before, after, hsplit, hfirst⟩ := ih hmem
        exact ⟨before, after ++ [last], by rw [hsplit, List.append_assoc, List.cons_append], hfirst⟩
      rw [distinct_concat] at h
      cases hany : (distinct paths).any (·.same last) with
      | true =>
          rw [addNew_of_any hany] at h
          exact hearlier h
      | false =>
          rw [addNew_of_not_any hany] at h
          rcases List.mem_append.1 h with hmem | hlast
          · exact hearlier hmem
          · obtain rfl := List.mem_singleton.1 hlast
            rw [any_same_distinct] at hany
            exact ⟨paths, [], rfl, hany⟩

/-- Of the paths that name one file the first one, in the order of the list. -/
structure FirstMentions (paths kept : List Path) : Prop where
  apart : Apart kept
  first : ∀ path ∈ kept, ∃ before after, paths = before ++ path :: after ∧
    before.any (·.same path) = false
  complete : ∀ path ∈ paths, kept.any (·.same path) = true
  inOrder : kept.Pairwise (MentionedBefore paths)

theorem firstMentions_distinct (paths : List Path) : FirstMentions paths (distinct paths) where
  apart := apart_distinct paths
  first := fun _ hmem => exists_first_of_mem_distinct hmem
  complete := by
    intro path hmem
    rw [any_same_distinct]
    exact List.any_eq_true.2 ⟨path, hmem, same_refl path⟩
  inOrder := pairwise_distinct paths

/-! ## Normal paths -/

theorem mem_distinct_iff {paths : List Path} (h : ∀ path ∈ paths, path.IsNormal) {path : Path} :
    path ∈ distinct paths ↔ path ∈ paths := by
  constructor
  · exact mem_of_mem_distinct
  · intro hmem
    have hany : (distinct paths).any (·.same path) = true := by
      rw [any_same_distinct]
      exact List.any_eq_true.2 ⟨path, hmem, same_refl path⟩
    obtain ⟨found, hfound, hsame⟩ := List.any_eq_true.1 hany
    rwa [← (h found (mem_of_mem_distinct hfound)).eq_of_same (h path hmem) hsame]

theorem nodup_of_apart {paths : List Path} (h : Apart paths) : paths.Nodup := by
  refine List.Pairwise.imp ?_ h
  rintro a b hsame rfl
  simp at hsame

/-- Normal paths name as many files as they have spellings. -/
theorem length_distinct {paths : List Path} (h : ∀ path ∈ paths, path.IsNormal) :
    (distinct paths).length = paths.toFinset.card := by
  have hset : (distinct paths).toFinset = paths.toFinset := by
    ext path
    simp only [List.mem_toFinset, mem_distinct_iff h]
  rw [← hset, List.toFinset_card_of_nodup (nodup_of_apart (apart_distinct paths))]

end Path

end ScopedCheck
