import ScopedCheck.Json.Equality
import ScopedCheck.Proofs.Check.Stages

/-!
# Files that nobody asked for

A build info may list any number of other files, anywhere between the requested
ones.  What a check reads, reports and prints is the same without them.
-/

namespace ScopedCheck

namespace BuildInfo

/-! ## Items about other files -/

/-- Items that say nothing about the requested files, and that can be decoded. -/
inductive IsUnrequested (names : List String) (base : Path) (requested : List Path) :
    Json.Value → Prop
  /-- What is no array only names a file that was checked. -/
  | reference {item : Json.Value} (hitem : item.items? = none) :
      IsUnrequested names base requested item
  | pair {reference entries : Json.Value} {file : Path} {decoded : List RawEntry}
      (hfile : fileOf names base reference = .ok file)
      (hentries : RawEntry.listOfJson entries = .ok decoded)
      (hother : ∀ asked ∈ requested, asked.normalize ≠ file) :
      IsUnrequested names base requested (.array [reference, entries])

/-- Lists that differ by items put in or left out, at any place. -/
inductive DifferBy (negligible : Json.Value → Prop) : List Json.Value → List Json.Value → Prop
  | nil : DifferBy negligible [] []
  | keep (item : Json.Value) {a b : List Json.Value} (h : DifferBy negligible a b) :
      DifferBy negligible (item :: a) (item :: b)
  | insert {item : Json.Value} (hitem : negligible item) {a b : List Json.Value}
      (h : DifferBy negligible a b) : DifferBy negligible a (item :: b)
  | delete {item : Json.Value} (hitem : negligible item) {a b : List Json.Value}
      (h : DifferBy negligible a b) : DifferBy negligible (item :: a) b

/-- Documents with the same names whose items differ only in what they say about other files. -/
structure SameForRequested (base : Path) (requested : List Path) (a b : Json.Value) : Prop where
  names : fileNames (program a) = fileNames (program b)
  items : DifferBy (IsUnrequested (fileNames (program a)) base requested)
    (perFile (program a)) (perFile (program b))

/-! ## What is listed of the requested files -/

def requestedListings (names : List String) (base : Path) (requested : List Path)
    (items : List Json.Value) : Except BuildInfoError (List (Path × List RawEntry)) :=
  (listings names base items).map fun pairs =>
    pairs.filter fun pair => Selection.asks requested pair.1

theorem requestedListings_cons_of_error {names : List String} {base : Path}
    (requested : List Path) {item : Json.Value} {cause : BuildInfoError}
    (h : listing names base item = .error cause) (rest : List Json.Value) :
    requestedListings names base requested (item :: rest) = .error cause := by
  simp [requestedListings, listings, h, Except.map]

theorem requestedListings_cons_of_ok {names : List String} {base : Path}
    (requested : List Path) {item : Json.Value} {first : List (Path × List RawEntry)}
    (h : listing names base item = .ok first) (rest : List Json.Value) :
    requestedListings names base requested (item :: rest) =
      (requestedListings names base requested rest).map
        (first.filter (fun pair => Selection.asks requested pair.1) ++ ·) := by
  unfold requestedListings
  rw [listings, h]
  cases listings names base rest with
  | error cause => rfl
  | ok others => simp [Except.map]

theorem asks_eq_false {requested : List Path} {file : Path} (hfile : file.IsNormal)
    (h : ∀ asked ∈ requested, asked.normalize ≠ file) :
    Selection.asks requested file = false := by
  rw [Bool.eq_false_iff, Selection.asks, hfile]
  intro hasks
  obtain ⟨asked, hmem, heq⟩ := (Selection.isRequested_iff hfile).1 hasks
  exact h asked hmem heq

theorem requestedListings_cons_of_isUnrequested {names : List String} {base : Path}
    {requested : List Path} {item : Json.Value} (h : IsUnrequested names base requested item)
    (rest : List Json.Value) :
    requestedListings names base requested (item :: rest) =
      requestedListings names base requested rest := by
  obtain ⟨first, hfirst, hnone⟩ : ∃ first, listing names base item = .ok first ∧
      first.filter (fun pair => Selection.asks requested pair.1) = [] := by
    cases h with
    | reference hitem =>
        refine ⟨[], ?_, rfl⟩
        cases item with
        | array items => simp [Json.Value.items?] at hitem
        | null | bool | number | string | object => rfl
    | @pair reference entries file decoded hfile hentries hother =>
        have hfalse := asks_eq_false (isNormal_fileOf hfile) hother
        refine ⟨[(file, decoded)], ?_, by simp [hfalse]⟩
        simp only [listing, hfile, hentries]
  rw [requestedListings_cons_of_ok requested hfirst, hnone]
  cases requestedListings names base requested rest with
  | error cause => rfl
  | ok others => rfl

/-- Items about other files change neither what is listed nor the first fault. -/
theorem requestedListings_eq_of_differBy {names : List String} {base : Path}
    {requested : List Path} {a b : List Json.Value}
    (h : DifferBy (IsUnrequested names base requested) a b) :
    requestedListings names base requested a = requestedListings names base requested b := by
  induction h with
  | nil => rfl
  | keep item _ ih =>
      cases hitem : listing names base item with
      | error cause =>
          rw [requestedListings_cons_of_error requested hitem,
            requestedListings_cons_of_error requested hitem]
      | ok first =>
          rw [requestedListings_cons_of_ok requested hitem,
            requestedListings_cons_of_ok requested hitem, ih]
  | insert hitem _ ih => rw [requestedListings_cons_of_isUnrequested hitem, ih]
  | delete hitem _ ih => rw [requestedListings_cons_of_isUnrequested hitem, ih]

end BuildInfo

namespace Check

variable (read : SourceReader) (context : Nat) (format : OutputFormat) (requested : List Path)
  (ignore : IgnoreList)

theorem concluded_restrict (raw : RawSet) :
    concluded read context requested ignore (raw.restrict (Selection.asks requested)) =
      concluded read context requested ignore raw := by
  unfold concluded
  rw [Selection.ofRaw_restrict]

theorem finish_eq_requestedListings {base : Path} {text : String} {document : Json.Value}
    (h : Json.parse? text = some document) :
    finish read context format requested ignore base text =
      match BuildInfo.requestedListings (BuildInfo.fileNames (BuildInfo.program document.keyed))
        base requested (BuildInfo.perFile (BuildInfo.program document.keyed)) with
      | .error cause => ([], .error (.compiler (.buildInfo cause)))
      | .ok pairs =>
          let (asked, found) :=
            concluded read context requested ignore (RawSet.empty.extendAll pairs)
          (asked, found.map fun (report, summary) =>
            (summary, Output.format format report summary)) := by
  unfold finish BuildInfo.ofText BuildInfo.requestedListings
  rw [h]
  dsimp only
  rw [BuildInfo.ofValue_eq]
  cases BuildInfo.listings (BuildInfo.fileNames (BuildInfo.program document.keyed)) base
      (BuildInfo.perFile (BuildInfo.program document.keyed)) with
  | error cause => rfl
  | ok pairs =>
      have hpart := RawSet.restrict_extendAll (Selection.asks_congr requested) RawSet.empty pairs
      have hconcluded := concluded_restrict read context requested ignore
        (RawSet.empty.extendAll pairs)
      rw [hpart] at hconcluded
      simp only [Except.map]
      rw [← hconcluded]
      rfl

/--
What a build info says about other files has no influence on a check.

The same sources are asked for in the same order, and the check ends with the same error or
with the same summary and text.
-/
theorem finish_eq_of_sameForRequested {base : Path} {a b : String} {first second : Json.Value}
    (ha : Json.parse? a = some first) (hb : Json.parse? b = some second)
    (h : BuildInfo.SameForRequested base requested first.keyed second.keyed) :
    finish read context format requested ignore base a =
      finish read context format requested ignore base b := by
  rw [finish_eq_requestedListings read context format requested ignore ha,
    finish_eq_requestedListings read context format requested ignore hb, ← h.names,
    BuildInfo.requestedListings_eq_of_differBy h.items]

set_option maxRecDepth 2000 in
/-- A file named before the requested one and a reference after it leave the check as it was. -/
theorem finish_eq_of_sameForRequested_before_and_after :
    let entries : Json.Value :=
      .array [.array [.null, .number (.int 0), .number (.int 1), .string ""]]
    let first : Json.Value :=
      .object [("semanticDiagnosticsPerFile", .array [.array [.string "a", entries]])]
    let second : Json.Value :=
      .object [("semanticDiagnosticsPerFile",
        .array [.array [.string "../b", entries], .array [.string "a", entries],
          .number (.int 3)])]
    let requested : List Path := [⟨"/p/./a"⟩]
    let a := "\x7b\"semanticDiagnosticsPerFile\":[[\"a\",[[null,0,1,\"\"]]]]\x7d"
    let b :=
      "\x7b\"semanticDiagnosticsPerFile\":[[\"../b\",[[null,0,1,\"\"]]],[\"a\",[[null,0,1,\"\"]]],3]\x7d"
    Json.parse? a = some first ∧ Json.parse? b = some second ∧
      BuildInfo.SameForRequested ⟨"/p"⟩ requested first.keyed second.keyed ∧
      finish (fun _ => .ok "xy") 0 .machine requested .disabled ⟨"/p"⟩ a =
        finish (fun _ => .ok "xy") 0 .machine requested .disabled ⟨"/p"⟩ b := by
  intro entries first second requested a b
  have ha : Json.parse? a = some first := by decide +kernel +zetaReduce
  have hb : Json.parse? b = some second := by decide +kernel +zetaReduce
  have hfile : BuildInfo.fileOf [] ⟨"/p"⟩ (.string "../b") = .ok ⟨"/b"⟩ :=
    congrArg Except.ok (by decide +kernel)
  have hentries : RawEntry.listOfJson entries = .ok [⟨none, 0, 1, .plain "", none⟩] := rfl
  have hother : ∀ asked ∈ requested, asked.normalize ≠ ⟨"/b"⟩ := by
    intro asked hmem
    rw [List.mem_singleton.1 hmem]
    decide +kernel
  have hsame : BuildInfo.SameForRequested ⟨"/p"⟩ requested first.keyed second.keyed :=
    ⟨rfl, .insert (.pair hfile hentries hother) (.keep _ (.insert (.reference rfl) .nil))⟩
  exact ⟨ha, hb, hsame,
    finish_eq_of_sameForRequested (fun _ => .ok "xy") 0 .machine requested .disabled ha hb hsame⟩

end Check

end ScopedCheck
