import Mathlib.Algebra.Order.BigOperators.Group.Finset
import ScopedCheck.Proofs.Diagnostic.Selection

/-!
# How ignored files are counted

A selection normalizes the keys of a raw set but does not merge them.  Its
counter goes up at each key, so that a file listed under two spellings counts
twice, and the counter tells the number of files only when every ignored file
has one key.
-/

namespace ScopedCheck

namespace Selection

def requestedPaths (requested : List Path) : Finset Path :=
  (requested.map Path.normalize).toFinset

/-- The requested files that are ignored and have an entry under some key. -/
def ignoredPaths (raw : RawSet) (requested : List Path) (ignore : IgnoreList) : Finset Path :=
  (requestedPaths requested).filter fun file =>
    ignore.isIgnored file = true ∧
      ∃ listed ∈ raw.files, listed.1.normalize = file ∧ listed.2.isEmpty = false

def keyCount (raw : RawSet) (file : Path) : Nat :=
  raw.files.countP fun listed => decide (listed.1.normalize = file) && !listed.2.isEmpty

/-- The ignored part of the files that count, one item for each key. -/
def ignoredKeys (raw : RawSet) (requested : List Path) (ignore : IgnoreList) : List Path :=
  ((relevant raw requested).filter fun listed => ignore.isIgnored listed.1).map (·.1)

theorem length_ignoredKeys (raw : RawSet) (requested : List Path) (ignore : IgnoreList) :
    (ignoredKeys raw requested ignore).length =
      (ofRaw raw requested ignore).stats.ignoredFiles := by
  rw [ignoredKeys, List.length_map]
  rfl

section Counting

variable {raw : RawSet} {requested : List Path} {ignore : IgnoreList} {file : Path}

theorem mem_requestedPaths :
    file ∈ requestedPaths requested ↔ ∃ asked ∈ requested, asked.normalize = file := by
  simp [requestedPaths]

theorem mem_ignoredPaths :
    file ∈ ignoredPaths raw requested ignore ↔
      (∃ asked ∈ requested, asked.normalize = file) ∧ ignore.isIgnored file = true ∧
        ∃ listed ∈ raw.files, listed.1.normalize = file ∧ listed.2.isEmpty = false := by
  rw [ignoredPaths, Finset.mem_filter, mem_requestedPaths]

theorem toFinset_ignoredKeys :
    (ignoredKeys raw requested ignore).toFinset = ignoredPaths raw requested ignore := by
  ext file
  rw [List.mem_toFinset, mem_ignoredPaths, ignoredKeys, List.mem_map]
  constructor
  · rintro ⟨⟨file, entries⟩, hmem, rfl⟩
    obtain ⟨hcounts, hignored⟩ := List.mem_filter.1 hmem
    obtain ⟨⟨key, hkey, hfile⟩, hne, hasked⟩ := mem_relevant.1 hcounts
    exact ⟨hasked, hignored, (key, entries), hkey, hfile, List.isEmpty_eq_false_iff.2 hne⟩
  · rintro ⟨hasked, hignored, ⟨key, entries⟩, hkey, hfile, hne⟩
    have hcounts : (file, entries) ∈ relevant raw requested :=
      mem_relevant.2 ⟨⟨key, hkey, hfile⟩, List.isEmpty_eq_false_iff.1 hne, hasked⟩
    exact ⟨(file, entries), List.mem_filter.2 ⟨hcounts, hignored⟩, rfl⟩

/-- For a file that is requested and ignored every key with entries is one item. -/
theorem count_ignoredKeys (h : file ∈ ignoredPaths raw requested ignore) :
    (ignoredKeys raw requested ignore).count file = keyCount raw file := by
  obtain ⟨hasked, hignored, _⟩ := mem_ignoredPaths.1 h
  rw [ignoredKeys, relevant, List.count_eq_countP, List.countP_map, List.countP_filter,
    List.countP_filter, List.countP_map, keyCount]
  refine List.countP_congr ?_
  rintro ⟨key, entries⟩ _
  by_cases hfile : key.normalize = file
  · have hrequested : isRequested requested file = true := by
      rw [← hfile] at hasked ⊢
      exact (isRequested_iff (Path.isNormal_normalize key)).2 hasked
    simp [hfile, hignored, hrequested]
  · simp [hfile]

theorem keyCount_pos (h : file ∈ ignoredPaths raw requested ignore) : 1 ≤ keyCount raw file := by
  obtain ⟨_, _, listed, hlisted, hfile, hne⟩ := mem_ignoredPaths.1 h
  exact List.countP_pos_iff.2 ⟨listed, hlisted, by simp [hfile, hne]⟩

theorem card_ignoredPaths_le :
    (ignoredPaths raw requested ignore).card ≤ (requestedPaths requested).card :=
  Finset.card_filter_le _ _

end Counting

/--
The counter of ignored files counts keys.

It is the sum, over the files that are ignored, of the keys that spell them.  It is never below
the number of these files and equals it exactly when each has one key only; that number is at
most the number of requested files.
-/
theorem ofRaw_counts_keys (raw : RawSet) (requested : List Path) (ignore : IgnoreList) :
    (ofRaw raw requested ignore).stats.ignoredFiles =
        ∑ file ∈ ignoredPaths raw requested ignore, keyCount raw file ∧
      (ignoredPaths raw requested ignore).card ≤
        (ofRaw raw requested ignore).stats.ignoredFiles ∧
      ((ofRaw raw requested ignore).stats.ignoredFiles =
          (ignoredPaths raw requested ignore).card ↔
        ∀ file ∈ ignoredPaths raw requested ignore, keyCount raw file = 1) ∧
      (ignoredPaths raw requested ignore).card ≤ (requestedPaths requested).card := by
  have hsum : (ofRaw raw requested ignore).stats.ignoredFiles =
      ∑ file ∈ ignoredPaths raw requested ignore, keyCount raw file := by
    calc
      (ofRaw raw requested ignore).stats.ignoredFiles =
          (ignoredKeys raw requested ignore).length :=
        (length_ignoredKeys raw requested ignore).symm
      _ = ∑ file ∈ (ignoredKeys raw requested ignore).toFinset,
            (ignoredKeys raw requested ignore).count file :=
        (List.sum_toFinset_count_eq_length _).symm
      _ = ∑ file ∈ ignoredPaths raw requested ignore,
            (ignoredKeys raw requested ignore).count file := by rw [toFinset_ignoredKeys]
      _ = ∑ file ∈ ignoredPaths raw requested ignore, keyCount raw file :=
        Finset.sum_congr rfl fun _ hfile => count_ignoredKeys hfile
  have hpos : ∀ file ∈ ignoredPaths raw requested ignore, 1 ≤ keyCount raw file :=
    fun _ hfile => keyCount_pos hfile
  refine ⟨hsum, ?_, ?_, card_ignoredPaths_le⟩
  · rw [hsum, Finset.card_eq_sum_ones]
    exact Finset.sum_le_sum hpos
  · rw [hsum, Finset.card_eq_sum_ones, eq_comm, Finset.sum_eq_sum_iff_of_le hpos]
    exact forall₂_congr fun _ _ => eq_comm

/-- One ignored file under two keys counts as two, more than were requested. -/
theorem ofRaw_counts_file_twice :
    let entry : RawEntry := ⟨none, 0, 1, .plain "e", none⟩
    let raw : RawSet := ⟨[(⟨"/p/a.ts"⟩, [entry]), (⟨"/p/x/../a.ts"⟩, [entry])]⟩
    let requested : List Path := [⟨"/p/a.ts"⟩]
    let ignore : IgnoreList := ⟨⟨"/p"⟩, [⟨"/p/a.ts"⟩], []⟩
    Path.Apart raw.keys ∧
      IgnoreList.compile ["a.ts"] ⟨"/p"⟩ = .ok ignore ∧
      (ofRaw raw requested ignore).stats.ignoredFiles = 2 ∧
      (ofRaw raw requested ignore).stats.ignoredFiles ≠ (ignoredPaths raw requested ignore).card ∧
      (requestedPaths requested).card < (ofRaw raw requested ignore).stats.ignoredFiles := by
  intro entry raw requested ignore
  have hkeys : Path.Apart raw.keys := by
    unfold Path.Apart
    decide +kernel
  have hcount : (ofRaw raw requested ignore).stats.ignoredFiles = 2 := by decide +kernel
  have hfiles : ignoredPaths raw requested ignore = {⟨"/p/a.ts"⟩} := by decide +kernel
  have hasked : requestedPaths requested = {⟨"/p/a.ts"⟩} := by decide +kernel
  refine ⟨hkeys, rfl, hcount, ?_, ?_⟩
  · rw [hcount, hfiles]
    decide
  · rw [hcount, hasked]
    decide

end Selection

end ScopedCheck
