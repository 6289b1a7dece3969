import ScopedCheck.Proofs.Compiler.Recoding

/-!
# Files by number

A build info may name a file by the place of its name among all names, counted
from one.  Only the strings of that list are counted, so a number means the
element at its place as long as no string comes after something else.
-/

namespace ScopedCheck

namespace BuildInfo

/-! ## Elements by place -/

def IsNameOf (elements : List Json.Value) (id : Int) (name : String) : Prop :=
  ∃ k : Nat, id = k + 1 ∧ elements[k]? = some (.string name)

/-- No string comes after an element that is none. -/
def StringsFirst (elements : List Json.Value) : Prop :=
  elements.Pairwise fun a b => a.text? = none → b.text? = none

theorem text?_eq_some_iff {value : Json.Value} {name : String} :
    value.text? = some name ↔ value = .string name := by
  cases value <;> simp [Json.Value.text?]

theorem isNameOf_succ {elements : List Json.Value} {k : Nat} {name : String} :
    IsNameOf elements (k + 1) name ↔ elements[k]?.bind (·.text?) = some name := by
  constructor
  · rintro ⟨other, hid, hname⟩
    obtain rfl : k = other := by omega
    simp [hname, Json.Value.text?]
  · intro h
    obtain ⟨value, hvalue, hname⟩ := Option.bind_eq_some_iff.1 h
    exact ⟨k, rfl, by rw [hvalue, text?_eq_some_iff.1 hname]⟩

theorem refersTo_id_succ {names : List String} {k : Nat} {name : String} :
    RefersTo names (.number (.int (k + 1))) name ↔ names[k]? = some name := by
  constructor
  · intro h
    generalize hid : Json.Value.number (.int ((k : Int) + 1)) = reference at h
    cases h with
    | text => cases hid
    | @id other _ hname =>
        have hsame : (k : Int) + 1 = other + 1 := by simpa using hid
        obtain rfl : k = other := by omega
        exact hname
  · exact .id

theorem exists_of_refersTo_id {names : List String} {id : Int} {name : String}
    (h : RefersTo names (.number (.int id)) name) : ∃ k : Nat, id = k + 1 := by
  cases h with
  | @id k => exact ⟨k, rfl⟩

/-- What a filter passes on stays in place exactly when it takes things off at the end only. -/
theorem forall_getElem?_filterMap_iff {α β : Type} (f : α → Option β) (items : List α) :
    (∀ k : Nat, (items.filterMap f)[k]? = items[k]?.bind f) ↔
      items.Pairwise fun a b => f a = none → f b = none := by
  induction items with
  | nil => simp
  | cons item rest ih =>
      rw [List.pairwise_cons]
      cases hitem : f item with
      | none =>
          have hnone : rest.filterMap f = [] ↔ ∀ other ∈ rest, f other = none :=
            List.filterMap_eq_nil_iff
          rw [List.filterMap_cons_none hitem]
          constructor
          · intro h
            have hzero : (rest.filterMap f)[0]? = none := by simpa [hitem] using h 0
            have hrest := hnone.1 (List.length_eq_zero_iff.1
              (Nat.le_zero.1 (List.getElem?_eq_none_iff.1 hzero)))
            exact ⟨fun other hmem _ => hrest other hmem,
              List.pairwise_of_forall_mem_list fun _ _ other hmem _ => hrest other hmem⟩
          · rintro ⟨hrest, _⟩ k
            rw [hnone.2 fun other hmem => hrest other hmem rfl, List.getElem?_nil]
            symm
            rw [Option.bind_eq_none_iff]
            intro other hother
            rcases List.mem_cons.1 (List.mem_of_getElem? hother) with rfl | hmem
            · exact hitem
            · exact hrest other hmem rfl
      | some value =>
          rw [List.filterMap_cons_some hitem, ← ih]
          constructor
          · intro h
            exact ⟨fun _ _ habsurd => by simp at habsurd, fun k => by simpa using h (k + 1)⟩
          · rintro ⟨_, hrest⟩ k
            cases k with
            | zero => simp [hitem]
            | succ k => simpa using hrest k

/-- Ids stand for the elements at their places exactly when strings come first. -/
theorem forall_refersTo_iff_isNameOf_iff (elements : List Json.Value) :
    (∀ id name, RefersTo (elements.filterMap (·.text?)) (.number (.int id)) name ↔
      IsNameOf elements id name) ↔ StringsFirst elements := by
  rw [StringsFirst, ← forall_getElem?_filterMap_iff]
  constructor
  · intro h k
    ext name
    have hk := h (k + 1) name
    rw [refersTo_id_succ, isNameOf_succ] at hk
    exact hk
  · intro h id name
    constructor
    · intro hname
      obtain ⟨k, rfl⟩ := exists_of_refersTo_id hname
      rwa [isNameOf_succ, ← h k, ← refersTo_id_succ]
    · intro hname
      have hplace := hname
      obtain ⟨k, rfl, _⟩ := hplace
      rwa [refersTo_id_succ, h k, ← isNameOf_succ]

/-! ## One pair among others -/

theorem fileNames_eq {program : Json.Value} {elements : List Json.Value}
    (h : program.get? "fileNames" = some (.array elements)) :
    fileNames program = elements.filterMap (·.text?) := by
  simp [fileNames, h, Json.Value.items?]

theorem refersTo_unique {names : List String} {id : Int} {name other : String}
    (h : RefersTo names (.number (.int id)) name)
    (hother : RefersTo names (.number (.int id)) other) : name = other :=
  Option.some.inj ((nameOfId?_eq_some_iff.2 h).symm.trans (nameOfId?_eq_some_iff.2 hother))

theorem denotes_pair_iff {names : List String} {base : Path} {reference entries : Json.Value}
    {pair : Path × List RawEntry} :
    Denotes names base (.array [reference, entries]) pair ↔
      ∃ name decoded, RefersTo names reference name ∧
        RawEntry.listOfJson entries = .ok decoded ∧ pair = (Path.absolutize ⟨name⟩ base, decoded) := by
  constructor
  · rintro ⟨hname, hentries⟩
    exact ⟨_, _, hname, hentries, rfl⟩
  · rintro ⟨name, decoded, hname, hentries, rfl⟩
    exact .pair hname hentries

theorem forall₂_append_cons_iff {α β : Type} {related : α → β → Prop} {before after : List α}
    {item : α} {found : List β} :
    List.Forall₂ related (before ++ item :: after) found ↔
      ∃ earlier value later, List.Forall₂ related before earlier ∧ related item value ∧
        List.Forall₂ related after later ∧ found = earlier ++ value :: later := by
  induction before generalizing found with
  | nil =>
      rw [List.nil_append, List.forall₂_cons_left_iff]
      constructor
      · rintro ⟨value, later, hvalue, hlater, rfl⟩
        exact ⟨[], value, later, .nil, hvalue, hlater, rfl⟩
      · rintro ⟨earlier, value, later, hearlier, hvalue, hlater, rfl⟩
        obtain rfl := List.forall₂_nil_left_iff.1 hearlier
        exact ⟨value, later, hvalue, hlater, rfl⟩
  | cons first rest ih =>
      rw [List.cons_append, List.forall₂_cons_left_iff]
      constructor
      · rintro ⟨head, others, hhead, hothers, rfl⟩
        obtain ⟨earlier, value, later, hearlier, hvalue, hlater, rfl⟩ := ih.1 hothers
        exact ⟨head :: earlier, value, later, .cons hhead hearlier, hvalue, hlater, rfl⟩
      · rintro ⟨earlier, value, later, hearlier, hvalue, hlater, rfl⟩
        obtain ⟨head, others, hhead, hothers, rfl⟩ := List.forall₂_cons_left_iff.1 hearlier
        exact ⟨head, others ++ value :: later, hhead,
          ih.2 ⟨others, value, later, hothers, hvalue, hlater, rfl⟩, rfl⟩

theorem ofText_of_parse {text : String} {document : Json.Value}
    (h : Json.parse? text = some document) (base : Path) :
    ofText text base = ofValue document.keyed base := by
  simp only [ofText, h]

section Pair

variable {text : String} {document : Json.Value} {base : Path}
variable {before after : List Json.Value} {reference entries : Json.Value}

/-- A document is decoded when one of its pairs and all others are, those before and those after. -/
theorem ofText_eq_ok_iff (hparse : Json.parse? text = some document)
    (hitems : perFile (program document.keyed) = before ++ .array [reference, entries] :: after)
    (raw : RawSet) :
    let names := fileNames (program document.keyed)
    ofText text base = .ok raw ↔ ∃ earlier name decoded later,
      List.Forall₂ (Denotes names base) (before.filter isArray) earlier ∧
        RefersTo names reference name ∧ RawEntry.listOfJson entries = .ok decoded ∧
        List.Forall₂ (Denotes names base) (after.filter isArray) later ∧
        raw = RawSet.empty.extendAll
          (earlier ++ (Path.absolutize ⟨name⟩ base, decoded) :: later) := by
  intro names
  have harray : isArray (.array [reference, entries]) = true := rfl
  have hfiltered : (before ++ .array [reference, entries] :: after).filter isArray =
      before.filter isArray ++ .array [reference, entries] :: after.filter isArray := by
    rw [List.filter_append, List.filter_cons_of_pos harray]
  rw [ofText_of_parse hparse, ofValue_eq, hitems]
  constructor
  · intro h
    obtain ⟨pairs, hpairs, rfl⟩ := exists_ok_of_map h
    rw [listings_eq_ok_iff, hfiltered] at hpairs
    obtain ⟨earlier, pair, later, hearlier, hpair, hlater, rfl⟩ := forall₂_append_cons_iff.1 hpairs
    obtain ⟨name, decoded, hname, hdecoded, rfl⟩ := denotes_pair_iff.1 hpair
    exact ⟨earlier, name, decoded, later, hearlier, hname, hdecoded, hlater, rfl⟩
  · rintro ⟨earlier, name, decoded, later, hearlier, hname, hdecoded, hlater, rfl⟩
    have hpairs : listings names base (before ++ .array [reference, entries] :: after) =
        .ok (earlier ++ (Path.absolutize ⟨name⟩ base, decoded) :: later) := by
      rw [listings_eq_ok_iff, hfiltered, forall₂_append_cons_iff]
      exact ⟨earlier, _, later, hearlier, .pair hname hdecoded, hlater, rfl⟩
    rw [hpairs]
    rfl

theorem ofText_eq_ok_iff_of_refersTo {id : Int} {name : String}
    (hparse : Json.parse? text = some document)
    (hitems : perFile (program document.keyed) =
      before ++ .array [.number (.int id), entries] :: after)
    (hname : RefersTo (fileNames (program document.keyed)) (.number (.int id)) name)
    (raw : RawSet) :
    let names := fileNames (program document.keyed)
    ofText text base = .ok raw ↔ ∃ earlier decoded later,
      List.Forall₂ (Denotes names base) (before.filter isArray) earlier ∧
        RawEntry.listOfJson entries = .ok decoded ∧
        List.Forall₂ (Denotes names base) (after.filter isArray) later ∧
        raw = RawSet.empty.extendAll
          (earlier ++ (Path.absolutize ⟨name⟩ base, decoded) :: later) := by
  intro names
  refine (ofText_eq_ok_iff hparse hitems raw).trans ?_
  constructor
  · rintro ⟨earlier, other, decoded, later, hearlier, hother, hdecoded, hlater, heq⟩
    obtain rfl := refersTo_unique hname hother
    exact ⟨earlier, decoded, later, hearlier, hdecoded, hlater, heq⟩
  · rintro ⟨earlier, decoded, later, hearlier, hdecoded, hlater, heq⟩
    exact ⟨earlier, name, decoded, later, hearlier, hname, hdecoded, hlater, heq⟩

theorem exists_error_of_not_refersTo (hparse : Json.parse? text = some document)
    (hitems : perFile (program document.keyed) = before ++ .array [reference, entries] :: after)
    (hnone : ∀ name, ¬RefersTo (fileNames (program document.keyed)) reference name) :
    ∃ cause, ofText text base = .error cause := by
  cases htext : ofText text base with
  | error cause => exact ⟨cause, rfl⟩
  | ok raw =>
      obtain ⟨_, name, _, _, _, hname, _⟩ := (ofText_eq_ok_iff hparse hitems raw).1 htext
      exact absurd hname (hnone name)

end Pair

theorem listings_eq_error {names : List String} {base : Path} {before after : List Json.Value}
    {earlier : List (Path × List RawEntry)} {item : Json.Value} {cause : BuildInfoError}
    (hbefore : listings names base before = .ok earlier)
    (hitem : listing names base item = .error cause) :
    listings names base (before ++ item :: after) = .error cause := by
  induction before generalizing earlier with
  | nil => simp only [List.nil_append, listings, hitem]
  | cons first rest ih =>
      obtain ⟨listed, others, hfirst, hrest, rfl⟩ := listings_cons_eq_ok hbefore
      simp only [List.cons_append, listings, hfirst, ih hrest]

theorem listing_unknownId {names : List String} {id : Int}
    (h : ∀ name, ¬RefersTo names (.number (.int id)) name) (base : Path)
    (entries : Json.Value) :
    listing names base (.array [.number (.int id), entries]) =
      .error (.unknownId (.int id)) := by
  have hnone : nameOfId? names (.int id) = none := by
    rw [Option.eq_none_iff_forall_ne_some]
    intro name hname
    exact h name (nameOfId?_eq_some_iff.1 hname)
  simp only [listing, fileOf, hnone]

/-- An id without a name is what the refusal reports, unless a pair before it is refused. -/
theorem ofText_eq_unknownId {text : String} {document : Json.Value} {base : Path}
    {before after : List Json.Value} {id : Int} {entries : Json.Value}
    {earlier : List (Path × List RawEntry)} (hparse : Json.parse? text = some document)
    (hitems : perFile (program document.keyed) =
      before ++ .array [.number (.int id), entries] :: after)
    (hnone : ∀ name, ¬RefersTo (fileNames (program document.keyed)) (.number (.int id)) name)
    (hearlier : List.Forall₂ (Denotes (fileNames (program document.keyed)) base)
      (before.filter isArray) earlier) :
    ofText text base = .error (.unknownId (.int id)) := by
  have hlistings := @listings_eq_error _ _ _ after _ _ _ (listings_eq_ok_iff.2 hearlier)
    (listing_unknownId hnone base entries)
  rw [ofText_of_parse hparse, ofValue_eq, hitems, hlistings]
  rfl

theorem infix_entriesOf_extendAll (earlier later : List (Path × List RawEntry)) (path : Path)
    (decoded : List RawEntry) :
    decoded <:+: (RawSet.empty.extendAll (earlier ++ (path, decoded) :: later)).entriesOf path := by
  have hsame : (path, decoded).1.same path = true := Path.same_refl path
  rw [RawSet.entriesOf_extendAll, List.filter_append, List.filter_cons, if_pos hsame,
    List.flatMap_append, List.flatMap_cons]
  exact ⟨RawSet.empty.entriesOf path ++ (earlier.filter (·.1.same path)).flatMap (·.2),
    (later.filter (·.1.same path)).flatMap (·.2), by simp⟩

/--
A file id means the element at its place, where strings come first among the names.

If that is a string, the entries of the id are listed under the path of this name, and the
document is decoded when all other pairs and these entries are.  If not, the document is refused.
-/
theorem ofText_id {text : String} {document : Json.Value} {base : Path}
    {elements before after : List Json.Value} {id : Int} {entries : Json.Value}
    (hparse : Json.parse? text = some document)
    (hnames : (program document.keyed).get? "fileNames" = some (.array elements))
    (hfirst : StringsFirst elements)
    (hitems : perFile (program document.keyed) =
      before ++ .array [.number (.int id), entries] :: after) :
    let denotes := Denotes (fileNames (program document.keyed)) base
    (∀ name, IsNameOf elements id name →
      (∀ raw, ofText text base = .ok raw ↔ ∃ earlier decoded later,
        List.Forall₂ denotes (before.filter isArray) earlier ∧
          RawEntry.listOfJson entries = .ok decoded ∧
          List.Forall₂ denotes (after.filter isArray) later ∧
          raw = RawSet.empty.extendAll
            (earlier ++ (Path.absolutize ⟨name⟩ base, decoded) :: later)) ∧
        ∀ raw, ofText text base = .ok raw →
          ∃ decoded, RawEntry.listOfJson entries = .ok decoded ∧
            decoded <:+: raw.entriesOf (Path.absolutize ⟨name⟩ base)) ∧
      ((∀ name, ¬IsNameOf elements id name) →
        (∃ cause, ofText text base = .error cause) ∧
          ∀ earlier, List.Forall₂ denotes (before.filter isArray) earlier →
            ofText text base = .error (.unknownId (.int id))) := by
  intro denotes
  have hrefers := (forall_refersTo_iff_isNameOf_iff elements).2 hfirst id
  rw [← fileNames_eq hnames] at hrefers
  refine ⟨?_, ?_⟩
  · intro name hname
    have hlisted := @ofText_eq_ok_iff_of_refersTo _ _ base _ _ _ _ _ hparse hitems
      ((hrefers name).2 hname)
    refine ⟨hlisted, ?_⟩
    intro raw hraw
    obtain ⟨earlier, decoded, later, _, hdecoded, _, rfl⟩ := (hlisted raw).1 hraw
    exact ⟨decoded, hdecoded, infix_entriesOf_extendAll earlier later _ decoded⟩
  · intro hnot
    have hnone : ∀ name,
        ¬RefersTo (fileNames (program document.keyed)) (.number (.int id)) name :=
      fun name hname => hnot name ((hrefers name).1 hname)
    exact ⟨exists_error_of_not_refersTo hparse hitems hnone,
      fun _ hearlier => ofText_eq_unknownId hparse hitems hnone hearlier⟩

/-- An id before a `null` among the names; a file listed by its name comes first. -/
theorem ofText_id_before_null :
    let entries : Json.Value :=
      .array [.array [.null, .number (.int 0), .number (.int 1), .string "x"]]
    let elements : List Json.Value := [.string "a", .string "./b", .null]
    let named : Json.Value := .array [.string "b", .array []]
    let document : Json.Value := .object [("fileNames", .array elements),
      ("semanticDiagnosticsPerFile", .array [named, .array [.number (.int 2), entries]])]
    Json.parse? document.pretty = some document ∧ StringsFirst elements ∧
      IsNameOf elements 2 "./b" ∧
      ∃ raw decoded, ofText document.pretty ⟨"/p"⟩ = .ok raw ∧
        RawEntry.listOfJson entries = .ok decoded ∧ decoded ≠ [] ∧
        decoded <:+: raw.entriesOf (Path.absolutize ⟨"./b"⟩ ⟨"/p"⟩) := by
  intro entries elements named document
  have hparse : Json.parse? document.pretty = some document := by
    have hfits : document.Fits Json.maxDepth := by
      simp [document, elements, named, entries, Json.Value.Fits, Json.Number.Fits, Json.maxDepth,
        Json.maxNegated, Json.maxInteger]
    simpa using Json.parse?_pretty hfits Json.isBlank_nil
  have hfirst : StringsFirst elements := by
    simp [StringsFirst, elements, Json.Value.text?]
  have hname : IsNameOf elements 2 "./b" := ⟨1, rfl, rfl⟩
  have hid := (@ofText_id _ document ⟨"/p"⟩ elements [named] [] 2 entries hparse rfl hfirst rfl).1
    "./b" hname
  have hdecoded : RawEntry.listOfJson entries = .ok [⟨none, 0, 1, .plain "x", none⟩] := rfl
  have hnamed : RawEntry.listOfJson (.array []) = .ok [] := rfl
  have hraw := (hid.1 _).2 ⟨_, _, [], .cons (.pair (.text "b") hnamed) .nil, hdecoded, .nil, rfl⟩
  obtain ⟨decoded, hlisted, hinfix⟩ := hid.2 _ hraw
  refine ⟨hparse, hfirst, hname, _, decoded, hraw, hlisted, ?_, hinfix⟩
  rw [← Except.ok.inj (hdecoded.symm.trans hlisted)]
  exact List.cons_ne_nil _ _

/-- Behind a `null` an id stands for the name after the one at its place. -/
theorem not_listed_behind_null :
    let entries : Json.Value :=
      .array [.array [.null, .number (.int 0), .number (.int 1), .string "e"]]
    let elements : List Json.Value := [.null, .string "a.ts", .string "b.ts"]
    let document : Json.Value := .object [("fileNames", .array elements),
      ("semanticDiagnosticsPerFile", .array [.array [.number (.int 2), entries]])]
    Json.parse? document.pretty = some document ∧ IsNameOf elements 2 "a.ts" ∧
      ∃ raw, ofText document.pretty ⟨"/p"⟩ = .ok raw ∧ raw.keys = [⟨"/p/b.ts"⟩] ∧
        (raw.entriesOf ⟨"/p/a.ts"⟩).length = 0 ∧ (raw.entriesOf ⟨"/p/b.ts"⟩).length = 1 := by
  intro entries elements document
  have hparse : Json.parse? document.pretty = some document := by
    have hfits : document.Fits Json.maxDepth := by
      simp [document, elements, entries, Json.Value.Fits, Json.Number.Fits, Json.maxDepth,
        Json.maxNegated, Json.maxInteger]
    simpa using Json.parse?_pretty hfits Json.isBlank_nil
  have hdecoded : RawEntry.listOfJson entries = .ok [⟨none, 0, 1, .plain "e", none⟩] := rfl
  have hraw := (@ofText_eq_ok_iff _ document ⟨"/p"⟩ [] [] (.number (.int 2)) entries hparse rfl _).2
    ⟨[], "b.ts", _, [], .nil, .id (k := 1) rfl, hdecoded, .nil, rfl⟩
  exact ⟨hparse, ⟨1, rfl, rfl⟩, _, hraw, by decide +kernel, by decide +kernel, by decide +kernel⟩

end BuildInfo

end ScopedCheck
