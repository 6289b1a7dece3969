import Mathlib.Data.List.Basic
import Mathlib.Data.List.Induction
import ScopedCheck.Config
import ScopedCheck.Script.Equality

/-!
# What a configuration takes from its exports

The objects that a script exports add up: of each setting the last mention counts,
whichever of the objects it stands in.  So the configuration is that of the object
exported last exactly when the objects before it leave no setting behind that the
last one does not mention.
-/

namespace ScopedCheck

open Script (Expr Item Member Binding Statement)

namespace Config

/-! ## The contents of an object -/

def valueOf? (name : String) : Member → Option Expr
  | .field (some found) value => if found = name then some value else none
  | _ => none

def property? (name : String) (members : List Member) : Option Expr :=
  members.reverse.findSome? (valueOf? name)

/-- What an object of pairs of names and values configures. -/
def contents (members : List Member) : Config where
  ignore := ((property? "ignore" members).map strings).getD []
  alwaysInclude := ((property? "alwaysInclude" members).map strings).getD []
  onFinish := (property? "onFinish" members).isSome

/-- Whether the members of an object are pairs of names and values. -/
def IsKeyValue (members : List Member) : Prop :=
  ∀ member ∈ members, ∃ name value, member = .field name value

theorem property?_append (name : String) (members more : List Member) :
    property? name (members ++ more) = (property? name more).or (property? name members) := by
  rw [property?, List.reverse_append, List.findSome?_append, property?, property?]

theorem property?_concat (name : String) (members : List Member) (member : Member) :
    property? name (members ++ [member]) =
      (valueOf? name member).or (property? name members) := by
  rw [property?_append]
  congr 1
  cases h : valueOf? name member <;> simp [property?, h]

/-- A pair sets what it is about and leaves the other settings alone. -/
theorem addMember_contents (members : List Member) (name : Option String) (value : Expr) :
    addMember (contents members) (.field name value) =
      contents (members ++ [.field name value]) := by
  cases name with
  | none => simp [contents, property?_concat, valueOf?, addMember]
  | some name =>
      by_cases hignore : name = "ignore"
      · simp [contents, property?_concat, valueOf?, addMember, hignore]
      · by_cases hinclude : name = "alwaysInclude"
        · simp [contents, property?_concat, valueOf?, addMember, hinclude]
        · by_cases hfinish : name = "onFinish"
          · simp [contents, property?_concat, valueOf?, addMember, hfinish]
          · simp [contents, property?_concat, valueOf?, addMember, hignore, hinclude, hfinish]

theorem addObject_eq_contents {members : List Member} (h : IsKeyValue members) :
    addObject {} members = contents members := by
  unfold addObject
  induction members using List.reverseRecOn with
  | nil => rfl
  | append_singleton members member ih =>
      obtain ⟨hmembers, hmember⟩ := List.forall_mem_append.1 h
      obtain ⟨name, value, rfl⟩ := hmember member List.mem_cons_self
      rw [List.foldl_concat, ih hmembers, addMember_contents]

/-! ## The exports of a script -/

def exportOf (value : Expr) : Statement :=
  .expression (.assignment (.property (.identifier "module") "exports") value)

/--
The objects that statements export one after the other, given the variables before them.

Every statement declares variables as objects, or exports an object: one that is written
out, or one that was declared before.
-/
inductive ExportsAfter : List Binding → List Statement → List (List Member) → Prop
  | nil {declared : List Binding} : ExportsAfter declared [] []
  | declares {declared bindings : List Binding} {rest : List Statement}
      {objects : List (List Member)}
      (hobjects : ∀ binding ∈ bindings, ∃ members, binding.value = .object members)
      (hrest : ExportsAfter (declared ++ bindings) rest objects) :
      ExportsAfter declared (.declaration bindings :: rest) objects
  | object {declared : List Binding} {rest : List Statement} {members : List Member}
      {objects : List (List Member)} (hrest : ExportsAfter declared rest objects) :
      ExportsAfter declared (exportOf (.object members) :: rest) (members :: objects)
  | named {declared : List Binding} {rest : List Statement} {name : String}
      {members : List Member} {objects : List (List Member)}
      (hdeclared : ⟨name, .object members⟩ ∈ declared)
      (hrest : ExportsAfter declared rest objects) :
      ExportsAfter declared (exportOf (.identifier name) :: rest) (members :: objects)

/-- The objects that a script exports, all of them pairs of names and values. -/
structure Exports (script : List Statement) (objects : List (List Member)) : Prop where
  inOrder : ExportsAfter [] script objects
  nodup : ((script.flatMap bindingsOf).map (·.name)).Nodup
  keyValue : ∀ members ∈ objects, IsKeyValue members

theorem findSome?_objectOf {bindings : List Binding} (hnodup : (bindings.map (·.name)).Nodup)
    {name : String} {members : List Member} (hmem : ⟨name, .object members⟩ ∈ bindings) :
    bindings.findSome? (objectOf? name) = some members := by
  induction bindings with
  | nil => cases hmem
  | cons binding bindings ih =>
      obtain ⟨hfresh, hrest⟩ := List.nodup_cons.1 hnodup
      rcases List.mem_cons.1 hmem with rfl | hmem
      · simp [objectOf?]
      · have hother : objectOf? name binding = none := by
          have hne : binding.name ≠ name := by
            rintro rfl
            exact hfresh (List.mem_map.2 ⟨_, hmem, rfl⟩)
          unfold objectOf?
          split
          · simp [hne]
          · rfl
        rw [List.findSome?_cons, hother]
        exact ih hrest hmem

def exportedMembers? (script : List Statement) (statement : Statement) : Option (List Member) :=
  (exported? statement).bind (membersOf? script)

theorem filterMap_exportedMembers {script : List Statement}
    (hnodup : ((script.flatMap bindingsOf).map (·.name)).Nodup) {declared : List Binding}
    {rest : List Statement} {objects : List (List Member)}
    (h : ExportsAfter declared rest objects) (hdeclared : declared ⊆ script.flatMap bindingsOf)
    (hrest : rest ⊆ script) : rest.filterMap (exportedMembers? script) = objects := by
  induction h with
  | nil => rfl
  | @declares declared bindings rest objects _ _ ih =>
      obtain ⟨hmem, hrest⟩ := List.cons_subset.1 hrest
      have hbindings : bindings ⊆ script.flatMap bindingsOf := fun binding hbinding =>
        List.mem_flatMap.2 ⟨_, hmem, hbinding⟩
      have hnone : exportedMembers? script (.declaration bindings) = none := rfl
      rw [List.filterMap_cons_none hnone, ih (List.append_subset.2 ⟨hdeclared, hbindings⟩) hrest]
  | @object declared rest members objects _ ih =>
      have hsome : exportedMembers? script (exportOf (.object members)) = some members := rfl
      rw [List.filterMap_cons_some hsome, ih hdeclared (List.cons_subset.1 hrest).2]
  | @named declared rest name members objects hobject _ ih =>
      have hsome : exportedMembers? script (exportOf (.identifier name)) = some members :=
        findSome?_objectOf hnodup (hdeclared hobject)
      rw [List.filterMap_cons_some hsome, ih hdeclared (List.cons_subset.1 hrest).2]

/-- Statements make a configuration take over the objects that they export, one after the other. -/
theorem foldl_addStatement (script statements : List Statement) (config : Config) :
    statements.foldl (addStatement script) config =
      config.addObject (statements.filterMap (exportedMembers? script)).flatten := by
  induction statements generalizing config with
  | nil => rfl
  | cons statement statements ih =>
      rw [List.foldl_cons, ih]
      unfold addStatement
      rw [← exportedMembers?]
      cases h : exportedMembers? script statement with
      | none => rw [List.filterMap_cons_none h]
      | some members =>
          rw [List.filterMap_cons_some h, List.flatten_cons]
          exact List.foldl_append.symm

theorem ofStatements_of_exports {script : List Statement} {objects : List (List Member)}
    (h : Exports script objects) : ofStatements script = contents objects.flatten := by
  have hobjects := filterMap_exportedMembers h.nodup h.inOrder (List.nil_subset _)
    (List.Subset.refl script)
  rw [ofStatements, foldl_addStatement, hobjects, addObject_eq_contents]
  intro member hmem
  obtain ⟨members, hmembers, hmember⟩ := List.mem_flatten.1 hmem
  exact h.keyValue members hmembers member hmember

/-! ## The object exported last -/

/-- Whether an object mentions every setting that earlier members leave something in. -/
structure Overwrites (last earlier : List Member) : Prop where
  ignore : property? "ignore" last = none → (contents earlier).ignore = []
  alwaysInclude : property? "alwaysInclude" last = none → (contents earlier).alwaysInclude = []
  onFinish : property? "onFinish" last = none → (contents earlier).onFinish = false

theorem getD_or_eq_iff {α β : Type} (f : α → β) (last earlier : Option α) (other : β) :
    ((last.or earlier).map f).getD other = (last.map f).getD other ↔
      (last = none → (earlier.map f).getD other = other) := by
  cases last <;> simp

theorem contents_append_eq_iff {earlier last : List Member} :
    contents (earlier ++ last) = contents last ↔ Overwrites last earlier := by
  have hparts : contents (earlier ++ last) = contents last ↔
      (contents (earlier ++ last)).ignore = (contents last).ignore ∧
        (contents (earlier ++ last)).alwaysInclude = (contents last).alwaysInclude ∧
        (contents (earlier ++ last)).onFinish = (contents last).onFinish := by
    rw [contents, contents, Config.mk.injEq]
  have honFinish : (contents (earlier ++ last)).onFinish = (contents last).onFinish ↔
      (property? "onFinish" last = none → (contents earlier).onFinish = false) := by
    simp only [contents, property?_append]
    cases property? "onFinish" last <;> simp
  rw [hparts, honFinish]
  simp only [contents, property?_append, getD_or_eq_iff]
  exact ⟨fun h => ⟨h.1, h.2.1, h.2.2⟩, fun h => ⟨h.ignore, h.alwaysInclude, h.onFinish⟩⟩

/--
What a script configures is what its exported objects contain one after the other, as if they
were one object.

That is the contents of the object exported last exactly when no setting is left behind by
the objects before it, and so whenever there is only one.
-/
theorem ofText_exports {text : List Char} {script : List Statement}
    {objects : List (List Member)} (hparse : Script.parse? text = some script)
    (hexports : Exports script objects) :
    ofText text = contents objects.flatten ∧
      (∀ last, objects = [last] → ofText text = contents last) ∧
      ∀ earlier last, objects = earlier ++ [last] →
        (ofText text = contents last ↔ Overwrites last earlier.flatten) := by
  have htext : ofText text = contents objects.flatten := by
    rw [ofText, hparse]
    exact ofStatements_of_exports hexports
  refine ⟨htext, ?_, ?_⟩
  · rintro last rfl
    rw [htext, List.flatten_singleton]
  · rintro earlier last rfl
    rw [htext, List.flatten_append, List.flatten_singleton]
    exact contents_append_eq_iff

/-- A variable whose repeated setting is mentioned again by the object that replaces it. -/
theorem ofText_exports_overwritten :
    let text := "const a=\x7bignore:['x'],'ignore':['y']\x7d;module.exports=a;" ++
      "module.exports=\x7bignore:[1,'z']\x7d"
    let first : List Member := [.field (some "ignore") (.array [.single (.string (some "x"))]),
      .field (some "ignore") (.array [.single (.string (some "y"))])]
    let last : List Member :=
      [.field (some "ignore") (.array [.single .other, .single (.string (some "z"))])]
    let script : List Statement :=
      [.declaration [⟨"a", .object first⟩], exportOf (.identifier "a"), exportOf (.object last)]
    Script.parse? text.toList = some script ∧ Exports script [first, last] ∧
      contents first = ⟨["y"], [], false⟩ ∧ Overwrites last first ∧
      ofText text.toList = contents last ∧ contents last = ⟨["z"], [], false⟩ := by
  intro text first last script
  have hparse : Script.parse? text.toList = some script := by decide +kernel
  have hfirst : IsKeyValue first := by simp [first, IsKeyValue]
  have hlast : IsKeyValue last := by simp [last, IsKeyValue]
  have hexports : Exports script [first, last] := by
    refine ⟨.declares ?_ (.named ?_ (.object .nil)), ?_, ?_⟩
    · simp
    · simp
    · simp [script, bindingsOf, exportOf]
    · simp [hfirst, hlast]
  have hoverwrites : Overwrites last first := ⟨nofun, fun _ => rfl, fun _ => rfl⟩
  have hconfig := (ofText_exports hparse hexports).2.2 [first] last rfl
  rw [List.flatten_singleton] at hconfig
  exact ⟨hparse, hexports, rfl, hoverwrites, hconfig.2 hoverwrites, rfl⟩

/-- An empty object that replaces another one leaves the settings of that one in force. -/
theorem ofText_not_last_export :
    let text := "module.exports=\x7bignore:['a.ts'],onFinish:1\x7d;module.exports=\x7b\x7d"
    let first : List Member :=
      [.field (some "ignore") (.array [.single (.string (some "a.ts"))]),
        .field (some "onFinish") .other]
    let script : List Statement := [exportOf (.object first), exportOf (.object [])]
    Script.parse? text.toList = some script ∧ Exports script [first, []] ∧
      contents [] = ⟨[], [], false⟩ ∧ ofText text.toList = ⟨["a.ts"], [], true⟩ := by
  intro text first script
  have hparse : Script.parse? text.toList = some script := by decide +kernel
  have hexports : Exports script [first, []] := by
    refine ⟨.object (.object .nil), ?_, ?_⟩
    · simp [script, bindingsOf, exportOf]
    · simp [first, IsKeyValue]
  have hconfig : ofText text.toList = ⟨["a.ts"], [], true⟩ := by decide +kernel
  exact ⟨hparse, hexports, rfl, hconfig⟩

end Config

end ScopedCheck
