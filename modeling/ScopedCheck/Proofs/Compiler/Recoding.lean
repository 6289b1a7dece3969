import Mathlib.Algebra.Ring.Nat
import ScopedCheck.Proofs.Compiler.BuildInfo
import ScopedCheck.Proofs.Json.Printed

/-!
# What a build info denotes

The arrays of a build info are pairs of a reference and entries, or the whole
document is refused.  Decoding collects the entries by file, and comes to the
same end for every layout in which a compiler may write the document.
-/

namespace ScopedCheck

namespace BuildInfo

/-! ## Pairs -/

/-- The name that a reference gives: its text, or the name with its number, counted from one. -/
inductive RefersTo (names : List String) : Json.Value → String → Prop
  | text (name : String) : RefersTo names (.string name) name
  | id {k : Nat} {name : String} (h : names[k]? = some name) :
      RefersTo names (.number (.int (k + 1))) name

/-- An item that is a pair of a reference and entries, and what it lists. -/
inductive Denotes (names : List String) (base : Path) :
    Json.Value → Path × List RawEntry → Prop
  | pair {reference entries : Json.Value} {name : String} {decoded : List RawEntry}
      (hname : RefersTo names reference name)
      (hentries : RawEntry.listOfJson entries = .ok decoded) :
      Denotes names base (.array [reference, entries]) (Path.absolutize ⟨name⟩ base, decoded)

def isArray (item : Json.Value) : Bool :=
  item.items?.isSome

theorem nameOfId?_eq_some_iff {names : List String} {id : Json.Number} {name : String} :
    nameOfId? names id = some name ↔ RefersTo names (.number id) name := by
  constructor
  · intro h
    cases id with
    | float value => simp [nameOfId?] at h
    | int value =>
        rw [nameOfId?] at h
        split at h
        · rename_i hpos
          obtain ⟨k, rfl⟩ : ∃ k : Nat, value = k + 1 := ⟨value.toNat - 1, by omega⟩
          have hk : ((k : Int) + 1).toNat - 1 = k := by omega
          rw [hk] at h
          exact .id h
        · cases h
  · rintro (_ | @⟨k, _, h⟩)
    have hpos : (1 : Int) ≤ k + 1 := by omega
    have hk : ((k : Int) + 1).toNat - 1 = k := by omega
    simp only [nameOfId?, hpos, if_true, hk, h]

theorem fileOf_eq_ok_iff {names : List String} {base : Path} {reference : Json.Value}
    {file : Path} :
    fileOf names base reference = .ok file ↔
      ∃ name, RefersTo names reference name ∧ file = Path.absolutize ⟨name⟩ base := by
  constructor
  · intro h
    unfold fileOf at h
    split at h
    · exact ⟨_, .text _, (Except.ok.inj h).symm⟩
    · split at h
      · rename_i hname
        exact ⟨_, nameOfId?_eq_some_iff.1 hname, (Except.ok.inj h).symm⟩
      · cases h
    · cases h
  · rintro ⟨name, hname, rfl⟩
    cases hname with
    | text => rfl
    | id hk =>
        have hid := nameOfId?_eq_some_iff.2 (RefersTo.id hk)
        simp only [fileOf, hid]

/-- An array lists what it denotes, and nothing else lists anything. -/
theorem listing_eq_ok_iff {names : List String} {base : Path} {item : Json.Value}
    {pairs : List (Path × List RawEntry)} :
    listing names base item = .ok pairs ↔
      if isArray item then ∃ pair, Denotes names base item pair ∧ pairs = [pair]
      else pairs = [] := by
  cases item with
  | null | bool | number | string | object => simp [listing, isArray, Json.Value.items?, eq_comm]
  | array items =>
      have harray : isArray (.array items) = true := rfl
      rw [if_pos harray]
      constructor
      · intro h
        obtain _ | ⟨reference, _ | ⟨entries, _ | ⟨third, rest⟩⟩⟩ := items
        · cases h
        · cases h
        · obtain ⟨file, decoded, hfile, hentries, rfl⟩ := listing_pair h
          obtain ⟨name, hname, rfl⟩ := fileOf_eq_ok_iff.1 hfile
          exact ⟨_, .pair hname hentries, rfl⟩
        · cases h
      · rintro ⟨_, @⟨reference, _, name, _, hname, hentries⟩, rfl⟩
        have hfile : fileOf names base reference = .ok (Path.absolutize ⟨name⟩ base) :=
          fileOf_eq_ok_iff.2 ⟨name, hname, rfl⟩
        simp only [listing, hfile, hentries]

theorem listings_eq_ok_iff {names : List String} {base : Path} {items : List Json.Value}
    {pairs : List (Path × List RawEntry)} :
    listings names base items = .ok pairs ↔
      List.Forall₂ (Denotes names base) (items.filter isArray) pairs := by
  induction items generalizing pairs with
  | nil => simp [listings, eq_comm]
  | cons item rest ih =>
      have hfirst := @listing_eq_ok_iff names base item
      constructor
      · intro h
        obtain ⟨first, others, hitem, hrest, rfl⟩ := listings_cons_eq_ok h
        rw [hfirst] at hitem
        cases harray : isArray item with
        | true =>
            rw [harray, if_pos rfl] at hitem
            obtain ⟨pair, hpair, rfl⟩ := hitem
            rw [List.filter_cons_of_pos harray]
            exact .cons hpair (ih.1 hrest)
        | false =>
            simp only [harray, Bool.false_eq_true, if_false] at hitem
            rw [hitem, List.filter_cons_of_neg (by simp [harray])]
            exact ih.1 hrest
      · intro h
        cases harray : isArray item with
        | true =>
            rw [List.filter_cons_of_pos harray] at h
            obtain ⟨pair, others, hpair, hothers, rfl⟩ := List.forall₂_cons_left_iff.1 h
            have hitem : listing names base item = .ok [pair] := by
              rw [hfirst, harray, if_pos rfl]
              exact ⟨pair, hpair, rfl⟩
            simp only [listings, hitem, ih.2 hothers]
            rfl
        | false =>
            rw [List.filter_cons_of_neg (by simp [harray])] at h
            have hitem : listing names base item = .ok [] := by
              rw [hfirst]
              simp [harray]
            simp only [listings, hitem, ih.2 h]
            rfl

theorem Denotes.file {names : List String} {base : Path} (hbase : base.isAbsolute = true)
    {item : Json.Value} {pair : Path × List RawEntry} (h : Denotes names base item pair) :
    pair.1.isAbsolute = true ∧ pair.1.IsNormal := by
  obtain ⟨_, _⟩ := h
  exact ⟨Path.isAbsolute_absolutize hbase _, Path.isNormal_absolutize _ base⟩

end BuildInfo

end ScopedCheck
