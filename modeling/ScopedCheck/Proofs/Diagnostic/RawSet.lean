import ScopedCheck.Diagnostic.RawSet
import ScopedCheck.Proofs.Path.Distinct

/-!
# Raw sets built by extension

A raw set is a run of extensions.  Its keys are the files of the run in order of
first mention, and a file has the entries of all its extensions, one after the
other.  Where entries are replaced the last ones of a file are left.
-/

namespace ScopedCheck

namespace RawSet

def extendAll (raw : RawSet) (pairs : List (Path × List RawEntry)) : RawSet :=
  pairs.foldl (fun raw pair => raw.extend pair.1 pair.2) raw

def keys (raw : RawSet) : List Path :=
  raw.files.map (·.1)

def entriesOf (raw : RawSet) (path : Path) : List RawEntry :=
  (raw.get? path).getD []

/-! ## Keys -/

theorem map_fst_alter (path : Path) (change : List RawEntry → List RawEntry)
    (files : List (Path × List RawEntry)) :
    (alter path change files).map (·.1) = Path.addNew (files.map (·.1)) path := by
  induction files with
  | nil => rfl
  | cons file rest ih =>
      obtain ⟨key, entries⟩ := file
      cases h : key.same path with
      | true => simp [alter, Path.addNew, h]
      | false =>
          simp only [alter, h, Bool.false_eq_true, if_false, List.map_cons, ih]
          simp only [Path.addNew, List.any_cons, h, Bool.false_or]
          split <;> rfl

theorem keys_extend (raw : RawSet) (path : Path) (entries : List RawEntry) :
    (raw.extend path entries).keys = Path.addNew raw.keys path :=
  map_fst_alter path (· ++ entries) raw.files

theorem keys_extendAll (raw : RawSet) (pairs : List (Path × List RawEntry)) :
    (raw.extendAll pairs).keys = (pairs.map (·.1)).foldl Path.addNew raw.keys := by
  induction pairs generalizing raw with
  | nil => rfl
  | cons pair rest ih =>
      rw [List.map_cons, List.foldl_cons, ← keys_extend raw pair.1 pair.2]
      exact ih (raw.extend pair.1 pair.2)

/-- A run from the empty set lists each file once, in order of first mention. -/
theorem keys_extendAll_empty (pairs : List (Path × List RawEntry)) :
    (empty.extendAll pairs).keys = Path.distinct (pairs.map (·.1)) :=
  keys_extendAll empty pairs

/-! ## Entries -/

theorem get?_congr (raw : RawSet) {a b : Path} (h : a.same b = true) :
    raw.get? a = raw.get? b := by
  have hsame : ∀ path : Path, path.same a = path.same b := by
    intro path
    simp [Path.same, Path.same_iff.1 h]
  simp only [get?, hsame]

/-- An extension adds to the entries of its file and leaves those of others. -/
theorem entriesOf_extend (raw : RawSet) (path : Path) (entries : List RawEntry) (asked : Path) :
    (raw.extend path entries).entriesOf asked =
      raw.entriesOf asked ++ if path.same asked then entries else [] := by
  unfold entriesOf
  cases h : path.same asked with
  | true =>
      rw [← get?_congr _ h, ← get?_congr _ h, get?_extend_same]
      rfl
  | false =>
      rw [Path.same_comm] at h
      rw [get?_extend_other raw h]
      simp

theorem entriesOf_extendAll (raw : RawSet) (pairs : List (Path × List RawEntry)) (asked : Path) :
    (raw.extendAll pairs).entriesOf asked =
      raw.entriesOf asked ++ (pairs.filter (·.1.same asked)).flatMap (·.2) := by
  induction pairs generalizing raw with
  | nil => simp [extendAll]
  | cons pair rest ih =>
      have hrest := ih (raw.extend pair.1 pair.2)
      rw [entriesOf_extend, List.append_assoc] at hrest
      refine hrest.trans ?_
      cases h : pair.1.same asked <;> simp [h]

/-- A file has an entry exactly when some extension gave it one. -/
theorem entriesOf_extendAll_empty_ne_nil {pairs : List (Path × List RawEntry)} {asked : Path} :
    (empty.extendAll pairs).entriesOf asked ≠ [] ↔
      ∃ pair ∈ pairs, pair.1.same asked = true ∧ pair.2 ≠ [] := by
  have hempty : empty.entriesOf asked = [] := rfl
  rw [entriesOf_extendAll, hempty, List.nil_append, Ne, List.flatMap_eq_nil_iff]
  simp

theorem entriesOf_of_mem {raw : RawSet} (h : Path.Apart raw.keys) {path : Path}
    {entries : List RawEntry} (hmem : (path, entries) ∈ raw.files) :
    raw.entriesOf path = entries := by
  obtain ⟨files⟩ := raw
  unfold entriesOf get?
  unfold keys at h
  dsimp only at h hmem ⊢
  induction files with
  | nil => exact absurd hmem List.not_mem_nil
  | cons file rest ih =>
      obtain ⟨hfirst, hrest⟩ := List.pairwise_cons.1 h
      rcases List.mem_cons.1 hmem with rfl | hlater
      · simp
      · have hother : file.1.same path = false :=
          hfirst path (List.mem_map.2 ⟨(path, entries), hlater, rfl⟩)
        rw [List.find?_cons_of_neg (by simp [hother])]
        exact ih hrest hlater

theorem mem_of_entriesOf_ne_nil {raw : RawSet} {path : Path} (h : raw.entriesOf path ≠ []) :
    ∃ key, (key, raw.entriesOf path) ∈ raw.files ∧ key.same path = true := by
  unfold entriesOf get? at h ⊢
  cases hfind : raw.files.find? (·.1.same path) with
  | none => simp [hfind] at h
  | some file =>
      have hsame := List.find?_some hfind
      exact ⟨file.1, List.mem_of_find?_eq_some hfind, hsame⟩

/-! ## Number of entries -/

theorem length_flatMap_alter (path : Path) (entries : List RawEntry)
    (files : List (Path × List RawEntry)) :
    ((alter path (· ++ entries) files).flatMap (·.2)).length =
      (files.flatMap (·.2)).length + entries.length := by
  induction files with
  | nil => simp [alter]
  | cons file rest ih =>
      obtain ⟨key, found⟩ := file
      cases h : key.same path with
      | true =>
          simp only [alter, h, if_true, List.flatMap_cons, List.length_append]
          omega
      | false =>
          simp only [alter, h, Bool.false_eq_true, if_false, List.flatMap_cons,
            List.length_append, ih]
          omega

theorem entryCount_extendAll (raw : RawSet) (pairs : List (Path × List RawEntry)) :
    (raw.extendAll pairs).entryCount = raw.entryCount + (pairs.flatMap (·.2)).length := by
  induction pairs generalizing raw with
  | nil => simp [extendAll]
  | cons pair rest ih =>
      have hstep : (raw.extend pair.1 pair.2).entryCount = raw.entryCount + pair.2.length :=
        length_flatMap_alter pair.1 pair.2 raw.files
      have hrest := ih (raw.extend pair.1 pair.2)
      rw [hstep] at hrest
      rw [List.flatMap_cons, List.length_append, ← Nat.add_assoc]
      exact hrest

/-! ## Runs -/

theorem get?_eq_none_iff {raw : RawSet} {path : Path} :
    raw.get? path = none ↔ raw.keys.any (·.same path) = false := by
  rw [get?, Option.map_eq_none_iff, List.find?_eq_none, keys, List.any_map, List.any_eq_false]
  rfl

theorem get?_eq_some_entriesOf {raw : RawSet} {path : Path}
    (h : raw.keys.any (·.same path) = true) : raw.get? path = some (raw.entriesOf path) := by
  cases hget : raw.get? path with
  | none =>
      rw [get?_eq_none_iff, h] at hget
      cases hget
  | some entries => simp [entriesOf, hget]

/-- A run has a file when it names the file, with all that it gives the file. -/
theorem get?_extendAll_empty (calls : List (Path × List RawEntry)) (path : Path) :
    (empty.extendAll calls).get? path =
      if calls.any (·.1.same path) then some ((calls.filter (·.1.same path)).flatMap (·.2))
      else none := by
  have hkeys : (empty.extendAll calls).keys.any (·.same path) = calls.any (·.1.same path) := by
    rw [keys_extendAll_empty, Path.any_same_distinct, List.any_map]
    rfl
  cases hany : calls.any (·.1.same path) with
  | false => simpa using get?_eq_none_iff.2 (hkeys.trans hany)
  | true =>
      have hempty : empty.entriesOf path = [] := rfl
      rw [get?_eq_some_entriesOf (hkeys.trans hany), entriesOf_extendAll, hempty, List.nil_append]
      simp

theorem entryCount_extendAll_empty (calls : List (Path × List RawEntry)) :
    (empty.extendAll calls).entryCount = (calls.flatMap (·.2)).length := by
  rw [entryCount_extendAll, show empty.entryCount = 0 from rfl, Nat.zero_add]

/-- Runs that differ in the order of neighbouring extensions of different files. -/
inductive Interchanged : List (Path × List RawEntry) → List (Path × List RawEntry) → Prop
  | refl (calls : List (Path × List RawEntry)) : Interchanged calls calls
  | trans {calls between others : List (Path × List RawEntry)}
      (hfirst : Interchanged calls between) (hsecond : Interchanged between others) :
      Interchanged calls others
  | cons (call : Path × List RawEntry) {calls others : List (Path × List RawEntry)}
      (h : Interchanged calls others) : Interchanged (call :: calls) (call :: others)
  | swap {first second : Path × List RawEntry} (h : first.1.same second.1 = false)
      (rest : List (Path × List RawEntry)) :
      Interchanged (first :: second :: rest) (second :: first :: rest)

theorem Interchanged.perm {calls others : List (Path × List RawEntry)}
    (h : Interchanged calls others) : calls.Perm others := by
  induction h with
  | refl calls => exact .refl calls
  | trans _ _ ihFirst ihSecond => exact ihFirst.trans ihSecond
  | cons call _ ih => exact ih.cons call
  | @swap first second _ rest => exact .swap second first rest

/-- The extensions of one file keep their order. -/
theorem Interchanged.filter_eq {calls others : List (Path × List RawEntry)}
    (h : Interchanged calls others) (path : Path) :
    calls.filter (·.1.same path) = others.filter (·.1.same path) := by
  induction h with
  | refl calls => rfl
  | trans _ _ ihFirst ihSecond => exact ihFirst.trans ihSecond
  | cons call _ ih => simp only [List.filter_cons, ih]
  | @swap first second hother rest =>
      cases hfirst : first.1.same path with
      | false => simp [List.filter_cons, hfirst]
      | true =>
          have hsecond : second.1.same path = false := by
            refine Bool.eq_false_iff.2 fun hsame => ?_
            rw [Path.same_comm] at hsame
            exact Bool.eq_false_iff.1 hother (Path.same_trans hfirst hsame)
          simp [hfirst, hsecond]

/--
A run of extensions from the empty set keeps every entry in order.

The set lists the files of the run once each, in the order and the spelling of their first mention.
A file has what all its extensions gave it, one after the other, and no entry is lost or made up.
Extensions of different files may change places.
-/
theorem extendAll_empty_keeps (calls : List (Path × List RawEntry)) :
    let raw := empty.extendAll calls
    Path.FirstMentions (calls.map (·.1)) raw.keys ∧
      (∀ path, raw.get? path = none ↔ ∀ call ∈ calls, call.1.same path = false) ∧
      (∀ path, (∃ call ∈ calls, call.1.same path = true) →
        raw.get? path = some ((calls.filter (·.1.same path)).flatMap (·.2))) ∧
      raw.entryCount = (calls.flatMap (·.2)).length ∧
      (raw.isEmpty = true ↔ (calls.flatMap (·.2)).length = 0) ∧
      ∀ others, Interchanged calls others →
        (∀ path, (empty.extendAll others).get? path = raw.get? path) ∧
          (empty.extendAll others).entryCount = raw.entryCount := by
  intro raw
  have hget := get?_extendAll_empty calls
  have hcount := entryCount_extendAll_empty calls
  refine ⟨?_, ?_, ?_, hcount, ?_, ?_⟩
  · rw [keys_extendAll_empty]
    exact Path.firstMentions_distinct _
  · intro path
    rw [hget]
    simp
  · intro path hnamed
    rw [hget, if_pos (List.any_eq_true.2 hnamed)]
  · rw [isEmpty, hcount, beq_iff_eq]
  · intro others h
    refine ⟨fun path => ?_, ?_⟩
    · rw [hget, get?_extendAll_empty, h.perm.any_eq, h.filter_eq]
    · rw [hcount, entryCount_extendAll_empty, (h.perm.flatMap_right _).length_eq]

/-- A file under two spellings, one without entries between them, and a change of places. -/
theorem extendAll_empty_keeps_respelled :
    let first : RawEntry := ⟨none, 0, 1, .plain "first", none⟩
    let second : RawEntry := ⟨none, 2, 1, .plain "second", some 1⟩
    let calls : List (Path × List RawEntry) :=
      [(⟨"/p/./b.ts"⟩, [first]), (⟨"a.ts"⟩, []), (⟨"/p//b.ts"⟩, [second])]
    let others : List (Path × List RawEntry) :=
      [(⟨"a.ts"⟩, []), (⟨"/p/./b.ts"⟩, [first]), (⟨"/p//b.ts"⟩, [second])]
    (∃ call ∈ calls, call.1.same ⟨"/p/b.ts"⟩ = true) ∧ Interchanged calls others ∧
      (empty.extendAll calls).get? ⟨"/p/b.ts"⟩ = some [first, second] ∧
      (empty.extendAll others).get? ⟨"/p/b.ts"⟩ = some [first, second] := by
  intro first second calls others
  have hother : Path.same ⟨"/p/./b.ts"⟩ ⟨"a.ts"⟩ = false := by decide +kernel
  have hfirst : Path.same ⟨"/p/./b.ts"⟩ ⟨"/p/b.ts"⟩ = true := by decide +kernel
  have hmiddle : Path.same ⟨"a.ts"⟩ ⟨"/p/b.ts"⟩ = false := by decide +kernel
  have hsecond : Path.same ⟨"/p//b.ts"⟩ ⟨"/p/b.ts"⟩ = true := by decide +kernel
  have hnamed : ∃ call ∈ calls, call.1.same ⟨"/p/b.ts"⟩ = true :=
    ⟨(⟨"/p/./b.ts"⟩, [first]), List.mem_cons_self, hfirst⟩
  have hchanged : Interchanged calls others :=
    @Interchanged.swap (⟨"/p/./b.ts"⟩, [first]) (⟨"a.ts"⟩, []) hother [(⟨"/p//b.ts"⟩, [second])]
  have hboth : calls.filter (·.1.same ⟨"/p/b.ts"⟩) =
      [(⟨"/p/./b.ts"⟩, [first]), (⟨"/p//b.ts"⟩, [second])] := by
    simp only [calls, List.filter_cons, List.filter_nil, hfirst, hmiddle, hsecond, if_true,
      Bool.false_eq_true, if_false]
  obtain ⟨_, _, hget, _, _, hcommute⟩ := extendAll_empty_keeps calls
  have hentries := hget _ hnamed
  rw [hboth] at hentries
  exact ⟨hnamed, hchanged, hentries, ((hcommute others hchanged).1 _).trans hentries⟩

/-! ## Replacement -/

/-- Sets the entries of several files, one after the other. -/
def replaceAll (raw : RawSet) (pairs : List (Path × List RawEntry)) : RawSet :=
  pairs.foldl (fun raw pair => raw.replace pair.1 pair.2) raw

theorem replaceAll_concat (raw : RawSet) (pairs : List (Path × List RawEntry))
    (pair : Path × List RawEntry) :
    raw.replaceAll (pairs ++ [pair]) = (raw.replaceAll pairs).replace pair.1 pair.2 := by
  rw [replaceAll, List.foldl_concat]
  rfl

theorem extendAll_concat (raw : RawSet) (pairs : List (Path × List RawEntry))
    (pair : Path × List RawEntry) :
    raw.extendAll (pairs ++ [pair]) = (raw.extendAll pairs).extend pair.1 pair.2 := by
  rw [extendAll, List.foldl_concat]
  rfl

theorem keys_replaceAll (raw : RawSet) (pairs : List (Path × List RawEntry)) :
    (raw.replaceAll pairs).keys = (pairs.map (·.1)).foldl Path.addNew raw.keys := by
  induction pairs generalizing raw with
  | nil => rfl
  | cons pair rest ih =>
      have hkeys : (raw.replace pair.1 pair.2).keys = Path.addNew raw.keys pair.1 :=
        map_fst_alter pair.1 (fun _ => pair.2) raw.files
      rw [List.map_cons, List.foldl_cons, ← hkeys]
      exact ih (raw.replace pair.1 pair.2)

theorem get?_replace (raw : RawSet) (path : Path) (entries : List RawEntry) (asked : Path) :
    (raw.replace path entries).get? asked =
      if path.same asked then some entries else raw.get? asked := by
  cases h : path.same asked with
  | true =>
      rw [← get?_congr _ h]
      exact find?_alter_same path (fun _ => entries) raw.files
  | false =>
      rw [Path.same_comm] at h
      rw [get?, replace, find?_alter_other h]
      rfl

theorem get?_replaceAll_empty (pairs : List (Path × List RawEntry)) (asked : Path) :
    (empty.replaceAll pairs).get? asked =
      ((pairs.filter (·.1.same asked)).getLast?).map (·.2) := by
  induction pairs using List.reverseRecOn with
  | nil => rfl
  | append_singleton earlier pair ih =>
      rw [replaceAll_concat, get?_replace, ih, List.filter_append]
      cases h : pair.1.same asked <;> simp [h]

theorem entryCount_replace (raw : RawSet) (path : Path) (entries : List RawEntry) :
    (raw.replace path entries).entryCount + (raw.entriesOf path).length =
      raw.entryCount + entries.length := by
  obtain ⟨files⟩ := raw
  unfold replace entryCount entriesOf get?
  dsimp only
  induction files with
  | nil => simp [alter]
  | cons file rest ih =>
      obtain ⟨key, found⟩ := file
      cases h : key.same path with
      | true =>
          simp only [alter, h, if_true, List.flatMap_cons, List.length_append, List.find?_cons,
            Option.map_some, Option.getD_some]
          omega
      | false =>
          simp only [alter, h, Bool.false_eq_true, if_false, List.flatMap_cons,
            List.length_append, List.find?_cons]
          omega

/-- Nothing is lost of a file that has no entries. -/
theorem replace_eq_extend {raw : RawSet} {path : Path} (h : raw.entriesOf path = [])
    (entries : List RawEntry) : raw.replace path entries = raw.extend path entries := by
  obtain ⟨files⟩ := raw
  unfold entriesOf get? at h
  unfold replace extend
  dsimp only at h ⊢
  congr 1
  induction files with
  | nil => rfl
  | cons file rest ih =>
      obtain ⟨key, found⟩ := file
      cases hsame : key.same path with
      | true =>
          obtain rfl : found = [] := by simpa [hsame] using h
          simp [alter, hsame]
      | false =>
          have hrest := ih (by simpa [hsame] using h)
          simp [alter, hsame, hrest]

/-- Whether no file is named again, under any spelling, after it was given entries. -/
def Kept (pairs : List (Path × List RawEntry)) : Prop :=
  pairs.Pairwise fun earlier later => earlier.1.same later.1 = true → earlier.2 = []

theorem kept_concat_iff {pairs : List (Path × List RawEntry)} {pair : Path × List RawEntry} :
    Kept (pairs ++ [pair]) ↔
      Kept pairs ∧ (empty.extendAll pairs).entriesOf pair.1 = [] := by
  have hentries : (empty.extendAll pairs).entriesOf pair.1 = [] ↔
      ∀ earlier ∈ pairs, earlier.1.same pair.1 = true → earlier.2 = [] := by
    rw [← not_iff_not, ← Ne, entriesOf_extendAll_empty_ne_nil]
    simp
  rw [hentries]
  simp [Kept, List.pairwise_append]

theorem replaceAll_eq_extendAll {pairs : List (Path × List RawEntry)} (h : Kept pairs) :
    empty.replaceAll pairs = empty.extendAll pairs := by
  induction pairs using List.reverseRecOn with
  | nil => rfl
  | append_singleton earlier pair ih =>
      obtain ⟨hearlier, hpair⟩ := kept_concat_iff.1 h
      rw [replaceAll_concat, extendAll_concat, ih hearlier, replace_eq_extend hpair]

/-- Entries are lost unless all are kept. -/
theorem entryCount_replaceAll (pairs : List (Path × List RawEntry)) :
    (empty.replaceAll pairs).entryCount ≤ (pairs.flatMap (·.2)).length ∧
      ((empty.replaceAll pairs).entryCount = (pairs.flatMap (·.2)).length → Kept pairs) := by
  induction pairs using List.reverseRecOn with
  | nil => exact ⟨Nat.le_refl 0, fun _ => List.Pairwise.nil⟩
  | append_singleton earlier pair ih =>
      obtain ⟨hle, hkept⟩ := ih
      have hcount := entryCount_replace (empty.replaceAll earlier) pair.1 pair.2
      rw [← replaceAll_concat] at hcount
      have htotal : ((earlier ++ [pair]).flatMap (·.2)).length =
          (earlier.flatMap (·.2)).length + pair.2.length := by simp
      refine ⟨by omega, fun heq => ?_⟩
      have hbefore : Kept earlier := hkept (by omega)
      have hnone : (empty.replaceAll earlier).entriesOf pair.1 = [] :=
        List.eq_nil_of_length_eq_zero (by omega)
      rw [replaceAll_eq_extendAll hbefore] at hnone
      exact kept_concat_iff.2 ⟨hbefore, hnone⟩

/-- Replacing and extending come to the same exactly when every entry is kept. -/
theorem replaceAll_eq_extendAll_iff (pairs : List (Path × List RawEntry)) :
    empty.replaceAll pairs = empty.extendAll pairs ↔ Kept pairs := by
  refine ⟨fun h => (entryCount_replaceAll pairs).2 ?_, replaceAll_eq_extendAll⟩
  rw [h, entryCount_extendAll_empty]

/-! ## Parts of a set -/

/-- The files that a condition keeps, with their entries. -/
def restrict (raw : RawSet) (keep : Path → Bool) : RawSet :=
  ⟨raw.files.filter fun file => keep file.1⟩

section Restrict

variable {keep : Path → Bool} (hkeep : ∀ a b : Path, a.same b = true → keep a = keep b)

include hkeep

/-- A change of a file that is not kept is not seen, whether the file is new or not. -/
theorem filter_alter (path : Path) (change : List RawEntry → List RawEntry)
    (files : List (Path × List RawEntry)) :
    (alter path change files).filter (fun file => keep file.1) =
      if keep path then alter path change (files.filter fun file => keep file.1)
      else files.filter fun file => keep file.1 := by
  induction files with
  | nil => cases h : keep path <;> simp [alter, h]
  | cons file rest ih =>
      obtain ⟨key, entries⟩ := file
      cases hsame : key.same path with
      | true =>
          have hkey : keep key = keep path := hkeep key path hsame
          cases h : keep path <;> simp [alter, hsame, hkey, h]
      | false =>
          have halter : alter path change ((key, entries) :: rest) =
              (key, entries) :: alter path change rest := by simp [alter, hsame]
          rw [halter]
          cases hkey : keep key <;> cases h : keep path <;> simp [alter, hsame, hkey, h, ih]

theorem restrict_extend (raw : RawSet) (path : Path) (entries : List RawEntry) :
    (raw.extend path entries).restrict keep =
      if keep path then (raw.restrict keep).extend path entries else raw.restrict keep := by
  unfold restrict extend
  rw [filter_alter hkeep]
  split <;> rfl

/-- Extensions of other files leave the part that is kept as it is, place and order included. -/
theorem restrict_extendAll (raw : RawSet) (pairs : List (Path × List RawEntry)) :
    (raw.extendAll pairs).restrict keep =
      (raw.restrict keep).extendAll (pairs.filter fun pair => keep pair.1) := by
  induction pairs generalizing raw with
  | nil => rfl
  | cons pair rest ih =>
      have hrest := ih (raw.extend pair.1 pair.2)
      rw [restrict_extend hkeep] at hrest
      refine hrest.trans ?_
      cases h : keep pair.1 <;> simp [h, extendAll]

end Restrict

end RawSet

end ScopedCheck
