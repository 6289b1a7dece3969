import ScopedCheck.Json.Value

/-!
# Objects by name

The view by names lists members in the order of their names, each name once.  A
value is its own view exactly when all members stand so already, and then a
member that is set leaves all the others where they are.
-/

namespace ScopedCheck

namespace Json

theorem keyedItems_eq_map (items : List Value) : keyedItems items = items.map Value.keyed := by
  induction items with
  | nil => rfl
  | cons item items ih => rw [keyedItems, ih, List.map_cons]

def Sorted (members : List (String × Value)) : Prop :=
  members.Pairwise fun a b => a.1 < b.1

theorem lt_of_not_lt_of_ne {a b : String} (hlt : ¬a < b) (hne : a ≠ b) : b < a := by
  refine Classical.byContradiction fun hge => ?_
  exact hne (String.le_antisymm (String.not_lt.1 hge) (String.not_lt.1 hlt))

theorem mem_setMember {name : String} {value : Value} {members : List (String × Value)}
    {member : String × Value} (h : member ∈ setMember name value members) :
    member = (name, value) ∨ member ∈ members := by
  induction members with
  | nil => exact .inl (List.mem_singleton.1 h)
  | cons head rest ih =>
      simp only [setMember] at h
      split at h
      · exact List.mem_cons.1 h
      · split at h
        · exact (List.mem_cons.1 h).imp_right (List.mem_cons_of_mem head)
        · rcases List.mem_cons.1 h with rfl | hmem
          · exact .inr List.mem_cons_self
          · exact (ih hmem).imp_right (List.mem_cons_of_mem head)

theorem sorted_setMember {members : List (String × Value)} (h : Sorted members) (name : String)
    (value : Value) : Sorted (setMember name value members) := by
  induction members with
  | nil => exact List.pairwise_singleton _ _
  | cons head rest ih =>
      obtain ⟨hhead, hrest⟩ := List.pairwise_cons.1 h
      simp only [setMember]
      split
      · rename_i hlt
        refine List.pairwise_cons.2 ⟨fun member hmem => ?_, h⟩
        rcases List.mem_cons.1 hmem with rfl | hlater
        · exact hlt
        · exact String.lt_trans hlt (hhead member hlater)
      · split
        · rename_i heq
          exact List.pairwise_cons.2 ⟨fun member hmem => heq ▸ hhead member hmem, hrest⟩
        · rename_i hlt hne
          refine List.pairwise_cons.2 ⟨fun member hmem => ?_, ih hrest⟩
          rcases mem_setMember hmem with rfl | hlater
          · exact lt_of_not_lt_of_ne hlt hne
          · exact hhead member hlater

/-- Setting a member to the value that it has changes nothing. -/
theorem setMember_eq_self {members : List (String × Value)} (h : Sorted members) {name : String}
    {value : Value} (hmember : member? name members = some value) :
    setMember name value members = members := by
  induction members with
  | nil => cases hmember
  | cons head rest ih =>
      obtain ⟨other, old⟩ := head
      obtain ⟨hhead, hrest⟩ := List.pairwise_cons.1 h
      by_cases hname : other = name
      · subst hname
        obtain rfl : old = value := by simpa [member?] using hmember
        rw [setMember, if_neg (String.lt_irrefl other), if_pos rfl]
      · have hlater : member? name rest = some value := by
          simpa [member?, hname] using hmember
        obtain ⟨⟨found, _⟩, hfind, _⟩ := Option.map_eq_some_iff.1 hlater
        obtain rfl : found = name := by simpa using List.find?_some hfind
        have hlt : other < found := hhead _ (List.mem_of_find?_eq_some hfind)
        simp [setMember, String.lt_asymm hlt, Ne.symm hname, ih hrest hlater]

theorem setMember_concat {members : List (String × Value)} {name : String} {value : Value}
    (h : ∀ member ∈ members, member.1 < name) :
    setMember name value members = members ++ [(name, value)] := by
  induction members with
  | nil => rfl
  | cons head rest ih =>
      have hlt : head.1 < name := h head List.mem_cons_self
      have hne : name ≠ head.1 := fun heq => String.lt_irrefl name (heq ▸ hlt)
      have hrest := ih fun member hmem => h member (List.mem_cons_of_mem head hmem)
      simp [setMember, String.lt_asymm hlt, hne, hrest]

/-! ## Objects that are their own view -/

theorem sorted_keyedMembers {sorted : List (String × Value)} (h : Sorted sorted)
    (members : List (String × Value)) : Sorted (keyedMembers sorted members) := by
  induction members generalizing sorted with
  | nil => rwa [keyedMembers]
  | cons member rest ih =>
      rw [keyedMembers]
      exact ih (sorted_setMember h _ _)

theorem keyedMembers_of_sorted {sorted members : List (String × Value)}
    (h : Sorted (sorted ++ members)) :
    keyedMembers sorted members = sorted ++ members.map fun member => (member.1, member.2.keyed) := by
  induction members generalizing sorted with
  | nil => rw [keyedMembers, List.map_nil, List.append_nil]
  | cons member rest ih =>
      obtain ⟨_, hrest, hbetween⟩ := List.pairwise_append.1 h
      have hbefore : ∀ earlier ∈ sorted, earlier.1 < member.1 :=
        fun earlier hmem => hbetween earlier hmem member List.mem_cons_self
      have hnext : Sorted ((sorted ++ [(member.1, member.2.keyed)]) ++ rest) := by
        unfold Sorted at h ⊢
        simpa [List.pairwise_append] using h
      rw [keyedMembers, setMember_concat hbefore, ih hnext]
      simp

/-- Whether every object in a value has its members in the order of their names, each once. -/
def Value.IsKeyed (value : Value) : Prop :=
  value.keyed = value

theorem isKeyed_object_iff {members : List (String × Value)} :
    (Value.object members).IsKeyed ↔
      Sorted members ∧ ∀ member ∈ members, member.2.IsKeyed := by
  unfold Value.IsKeyed
  rw [Value.keyed, Value.object.injEq]
  have hmap : Sorted members → (keyedMembers [] members = members ↔
      ∀ member ∈ members, member.2.keyed = member.2) := by
    intro hsorted
    have hkept := @List.map_inj_left _ _ members (fun member => (member.1, member.2.keyed)) id
    rw [List.map_id] at hkept
    rw [keyedMembers_of_sorted (by rwa [List.nil_append]), List.nil_append, hkept]
    exact forall₂_congr fun member _ => by simp [Prod.ext_iff]
  constructor
  · intro heq
    have hsorted : Sorted members := heq ▸ sorted_keyedMembers List.Pairwise.nil members
    exact ⟨hsorted, (hmap hsorted).1 heq⟩
  · rintro ⟨hsorted, hvalues⟩
    exact (hmap hsorted).2 hvalues

theorem isKeyed_array_iff {items : List Value} :
    (Value.array items).IsKeyed ↔ ∀ item ∈ items, item.IsKeyed := by
  have hkept := @List.map_inj_left _ _ items Value.keyed id
  rw [List.map_id] at hkept
  rw [Value.IsKeyed, Value.keyed, keyedItems_eq_map, Value.array.injEq, hkept]
  rfl

theorem isKeyed_setMember {members : List (String × Value)}
    (h : (Value.object members).IsKeyed) (name : String) {value : Value} (hvalue : value.IsKeyed) :
    (Value.object (setMember name value members)).IsKeyed := by
  obtain ⟨hsorted, hvalues⟩ := isKeyed_object_iff.1 h
  refine isKeyed_object_iff.2 ⟨sorted_setMember hsorted name value, fun member hmem => ?_⟩
  rcases mem_setMember hmem with rfl | hkept
  · exact hvalue
  · exact hvalues member hkept

end Json

end ScopedCheck
