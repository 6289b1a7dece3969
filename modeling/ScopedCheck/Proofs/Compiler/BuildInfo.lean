import ScopedCheck.Compiler.BuildInfo
import ScopedCheck.Proofs.Diagnostic.RawSet
import ScopedCheck.Proofs.Outcome

/-!
# What a build info lists

A build info is decoded item by item into pairs of a file and its entries; the
raw set is the run of extensions by these pairs.  Its keys are normal and apart,
and a file has entries exactly when some pair of the document gives it one.
-/

namespace ScopedCheck

namespace BuildInfo

/-! ## Items as pairs -/

/-- What an item lists: the entries of a file, or nothing when it is no array. -/
def listing (names : List String) (base : Path) :
    Json.Value → Except BuildInfoError (List (Path × List RawEntry))
  | .array [reference, entries] =>
      match fileOf names base reference, RawEntry.listOfJson entries with
      | .ok file, .ok entries => .ok [(file, entries)]
      | .error cause, _ => .error cause
      | .ok _, .error cause => .error (.malformed cause)
  | .array items => .error (.notPair (.array items))
  | _ => .ok []

def listings (names : List String) (base : Path) :
    List Json.Value → Except BuildInfoError (List (Path × List RawEntry))
  | [] => .ok []
  | item :: rest =>
      match listing names base item, listings names base rest with
      | .ok first, .ok others => .ok (first ++ others)
      | .error cause, _ => .error cause
      | .ok _, .error cause => .error cause

theorem addItem_pair (names : List String) (base : Path) (raw : RawSet)
    (reference entries : Json.Value) :
    addItem names base raw (.array [reference, entries]) =
      (listing names base (.array [reference, entries])).map raw.extendAll := by
  simp only [addItem, listing]
  cases fileOf names base reference with
  | error cause => rfl
  | ok file =>
      cases RawEntry.listOfJson entries with
      | error cause => rfl
      | ok decoded => rfl

theorem addItem_eq (names : List String) (base : Path) (raw : RawSet) (item : Json.Value) :
    addItem names base raw item = (listing names base item).map raw.extendAll := by
  cases item with
  | array items =>
      match items with
      | [] => rfl
      | [_] => rfl
      | [reference, entries] => exact addItem_pair names base raw reference entries
      | _ :: _ :: _ :: _ => rfl
  | null => rfl
  | bool value => rfl
  | number value => rfl
  | string text => rfl
  | object members => rfl

/-- Adding items one after the other extends the set by all that they list. -/
theorem foldlM_addItem (names : List String) (base : Path) (raw : RawSet)
    (items : List Json.Value) :
    items.foldlM (addItem names base) raw = (listings names base items).map raw.extendAll := by
  induction items generalizing raw with
  | nil => rfl
  | cons item rest ih =>
      rw [List.foldlM_cons, addItem_eq, listings]
      cases hitem : listing names base item with
      | error cause => rfl
      | ok first =>
          have hrest := ih (raw.extendAll first)
          cases hothers : listings names base rest with
          | error cause => simpa [hothers, Except.map, bind, Except.bind] using hrest
          | ok others =>
              simpa [hothers, Except.map, bind, Except.bind, RawSet.extendAll] using hrest

theorem ofValue_eq (document : Json.Value) (base : Path) :
    ofValue document base =
      (listings (fileNames (program document)) base (perFile (program document))).map
        RawSet.empty.extendAll :=
  foldlM_addItem _ _ _ _

/-! ## Pairs of a document -/

theorem listing_pair {names : List String} {base : Path} {reference entries : Json.Value}
    {pairs : List (Path × List RawEntry)}
    (h : listing names base (.array [reference, entries]) = .ok pairs) :
    ∃ file decoded, fileOf names base reference = .ok file ∧
      RawEntry.listOfJson entries = .ok decoded ∧ pairs = [(file, decoded)] := by
  unfold listing at h
  cases hfile : fileOf names base reference with
  | error cause => simp [hfile] at h
  | ok file =>
      cases hentries : RawEntry.listOfJson entries with
      | error cause => simp [hfile, hentries] at h
      | ok decoded =>
          simp only [hfile, hentries, Except.ok.injEq] at h
          exact ⟨file, decoded, rfl, rfl, h.symm⟩

theorem mem_listing {names : List String} {base : Path} {item : Json.Value}
    {pairs : List (Path × List RawEntry)} (h : listing names base item = .ok pairs)
    {file : Path} {decoded : List RawEntry} (hmem : (file, decoded) ∈ pairs) :
    ∃ reference entries, item = .array [reference, entries] ∧
      fileOf names base reference = .ok file ∧ RawEntry.listOfJson entries = .ok decoded := by
  unfold listing at h
  split at h
  · rename_i reference entries
    obtain ⟨found, listed, hfile, hentries, rfl⟩ := listing_pair h
    obtain ⟨rfl, rfl⟩ := Prod.mk.inj (List.mem_singleton.1 hmem)
    exact ⟨reference, entries, rfl, hfile, hentries⟩
  · simp at h
  · simp only [Except.ok.injEq] at h
    subst h
    exact absurd hmem List.not_mem_nil

theorem listings_cons_eq_ok {names : List String} {base : Path} {item : Json.Value}
    {rest : List Json.Value} {pairs : List (Path × List RawEntry)}
    (h : listings names base (item :: rest) = .ok pairs) :
    ∃ first others, listing names base item = .ok first ∧
      listings names base rest = .ok others ∧ pairs = first ++ others := by
  unfold listings at h
  cases hitem : listing names base item with
  | error cause => simp [hitem] at h
  | ok first =>
      cases hothers : listings names base rest with
      | error cause => simp [hitem, hothers] at h
      | ok others =>
          simp only [hitem, hothers, Except.ok.injEq] at h
          exact ⟨first, others, rfl, rfl, h.symm⟩

/-- Where all items can be decoded, so can each one, and its pairs are among all pairs. -/
theorem listing_of_mem {names : List String} {base : Path} {items : List Json.Value}
    {pairs : List (Path × List RawEntry)} (h : listings names base items = .ok pairs)
    {item : Json.Value} (hmem : item ∈ items) :
    ∃ listed, listing names base item = .ok listed ∧ listed ⊆ pairs := by
  induction items generalizing pairs with
  | nil => exact absurd hmem List.not_mem_nil
  | cons first rest ih =>
      obtain ⟨listed, others, hfirst, hrest, rfl⟩ := listings_cons_eq_ok h
      rcases List.mem_cons.1 hmem with rfl | hlater
      · exact ⟨listed, hfirst, List.subset_append_left listed others⟩
      · obtain ⟨found, hfound, hsubset⟩ := ih hrest hlater
        exact ⟨found, hfound, List.subset_append_of_subset_right listed hsubset⟩

theorem mem_listings {names : List String} {base : Path} {items : List Json.Value}
    {pairs : List (Path × List RawEntry)} (h : listings names base items = .ok pairs)
    {file : Path} {decoded : List RawEntry} (hmem : (file, decoded) ∈ pairs) :
    ∃ reference entries, .array [reference, entries] ∈ items ∧
      fileOf names base reference = .ok file ∧ RawEntry.listOfJson entries = .ok decoded := by
  induction items generalizing pairs with
  | nil =>
      simp only [listings, Except.ok.injEq] at h
      subst h
      exact absurd hmem List.not_mem_nil
  | cons item rest ih =>
      obtain ⟨listed, others, hitem, hrest, rfl⟩ := listings_cons_eq_ok h
      rcases List.mem_append.1 hmem with hfirst | hlater
      · obtain ⟨reference, entries, rfl, hpair⟩ := mem_listing hitem hfirst
        exact ⟨reference, entries, List.mem_cons_self, hpair⟩
      · obtain ⟨reference, entries, hfound, hpair⟩ := ih hrest hlater
        exact ⟨reference, entries, List.mem_cons_of_mem item hfound, hpair⟩

/-! ## Keys -/

theorem isNormal_fileOf {names : List String} {base : Path} {reference : Json.Value}
    {file : Path} (h : fileOf names base reference = .ok file) : file.IsNormal := by
  unfold fileOf at h
  split at h
  · simp only [Except.ok.injEq] at h
    subst h
    exact Path.isNormal_absolutize _ base
  · split at h
    · simp only [Except.ok.injEq] at h
      subst h
      exact Path.isNormal_absolutize _ base
    · simp at h
  · simp at h

theorem isNormal_of_mem_listings {names : List String} {base : Path} {items : List Json.Value}
    {pairs : List (Path × List RawEntry)} (h : listings names base items = .ok pairs)
    {path : Path} (hmem : path ∈ pairs.map (·.1)) : path.IsNormal := by
  obtain ⟨⟨file, decoded⟩, hpair, rfl⟩ := List.mem_map.1 hmem
  obtain ⟨_, _, _, hfile, _⟩ := mem_listings h hpair
  exact isNormal_fileOf hfile

/-- A decoded document is the run of extensions by its pairs. -/
theorem ofText_eq_ok {text : String} {base : Path} {raw : RawSet} (h : ofText text base = .ok raw) :
    ∃ document pairs, Json.parse? text = some document ∧
      listings (fileNames (program document.keyed)) base (perFile (program document.keyed)) =
        .ok pairs ∧
      raw = RawSet.empty.extendAll pairs := by
  unfold ofText at h
  cases hparse : Json.parse? text with
  | none => simp [hparse] at h
  | some document =>
      simp only [hparse, ofValue_eq] at h
      obtain ⟨pairs, hpairs, rfl⟩ := exists_ok_of_map h
      exact ⟨document, pairs, rfl, hpairs, rfl⟩

theorem apart_keys_ofText {text : String} {base : Path} {raw : RawSet}
    (h : ofText text base = .ok raw) : Path.Apart raw.keys := by
  obtain ⟨_, pairs, _, _, rfl⟩ := ofText_eq_ok h
  rw [RawSet.keys_extendAll_empty]
  exact Path.apart_distinct _

theorem isNormal_of_mem_keys_ofText {text : String} {base : Path} {raw : RawSet}
    (h : ofText text base = .ok raw) {path : Path} (hmem : path ∈ raw.keys) : path.IsNormal := by
  obtain ⟨_, pairs, _, hpairs, rfl⟩ := ofText_eq_ok h
  rw [RawSet.keys_extendAll_empty] at hmem
  exact isNormal_of_mem_listings hpairs (Path.mem_of_mem_distinct hmem)

/-! ## Files with an error -/

/-- Whether a build info has a pair that gives a file at least one entry. -/
def Lists (text : String) (base file : Path) : Prop :=
  ∃ document reference entry entries, Json.parse? text = some document ∧
    .array [reference, .array (entry :: entries)] ∈ perFile (program document.keyed) ∧
    fileOf (fileNames (program document.keyed)) base reference = .ok file

theorem listOfJson_ne_nil {entries : Json.Value} {decoded : List RawEntry}
    (h : RawEntry.listOfJson entries = .ok decoded) :
    decoded ≠ [] ↔ ∃ entry rest, entries = .array (entry :: rest) := by
  unfold RawEntry.listOfJson at h
  split at h
  · rename_i items
    cases items with
    | nil =>
        simp only [List.mapM_nil, pure, Except.pure, Except.ok.injEq] at h
        simp [← h]
    | cons entry rest =>
        rw [List.mapM_cons] at h
        obtain ⟨first, _, hfirst⟩ := exists_ok_of_bind h
        obtain ⟨others, _, hothers⟩ := exists_ok_of_bind hfirst
        obtain rfl := Except.ok.inj hothers
        simp
  · simp at h

/-- The files that a build info lists an error of are those that its raw set has entries of. -/
theorem lists_iff {text : String} {base : Path} {raw : RawSet} (h : ofText text base = .ok raw)
    {file : Path} (hfile : file.IsNormal) : Lists text base file ↔ raw.entriesOf file ≠ [] := by
  obtain ⟨document, pairs, hparse, hpairs, rfl⟩ := ofText_eq_ok h
  rw [RawSet.entriesOf_extendAll_empty_ne_nil]
  constructor
  · rintro ⟨found, reference, entry, entries, hfound, hmem, hreference⟩
    obtain rfl := Option.some.inj (hparse.symm.trans hfound)
    obtain ⟨listed, hlisting, hsubset⟩ := listing_of_mem hpairs hmem
    obtain ⟨path, decoded, hpath, hdecoded, rfl⟩ := listing_pair hlisting
    obtain rfl := Except.ok.inj (hpath.symm.trans hreference)
    have hne : decoded ≠ [] := (listOfJson_ne_nil hdecoded).2 ⟨entry, entries, rfl⟩
    exact ⟨(path, decoded), hsubset List.mem_cons_self, Path.same_refl path, hne⟩
  · rintro ⟨⟨path, decoded⟩, hmem, hsame, hne⟩
    obtain ⟨reference, entries, hitem, hreference, hentries⟩ := mem_listings hpairs hmem
    obtain rfl := (isNormal_fileOf hreference).eq_of_same hfile hsame
    obtain ⟨entry, rest, rfl⟩ := (listOfJson_ne_nil hentries).1 hne
    exact ⟨document, reference, entry, rest, hparse, hitem, hreference⟩

theorem lists_iff_mem {text : String} {base : Path} {raw : RawSet}
    (h : ofText text base = .ok raw) {file : Path} (hfile : file.IsNormal) :
    Lists text base file ↔ ∃ entries, (file, entries) ∈ raw.files ∧ entries ≠ [] := by
  rw [lists_iff h hfile]
  constructor
  · intro hne
    obtain ⟨key, hmem, hsame⟩ := RawSet.mem_of_entriesOf_ne_nil hne
    have hkey : key.IsNormal := isNormal_of_mem_keys_ofText h (List.mem_map.2 ⟨_, hmem, rfl⟩)
    have heq : key = file := hkey.eq_of_same hfile hsame
    rw [heq] at hmem
    exact ⟨raw.entriesOf file, hmem, hne⟩
  · rintro ⟨entries, hmem, hne⟩
    rwa [RawSet.entriesOf_of_mem (apart_keys_ofText h) hmem]

end BuildInfo

end ScopedCheck
