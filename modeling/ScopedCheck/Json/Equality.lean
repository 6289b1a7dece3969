import ScopedCheck.Json.Value

/-!
# Equality of values

Values are compared as they are written, repeated names and the order of members
included.
-/

namespace ScopedCheck

namespace Json

mutual

def Value.same : Value → Value → Bool
  | .null, .null => true
  | .bool value, .bool found => value == found
  | .number value, .number found => value == found
  | .string text, .string found => text == found
  | .array items, .array found => sameItems items found
  | .object members, .object found => sameMembers members found
  | _, _ => false

def sameItems : List Value → List Value → Bool
  | [], [] => true
  | value :: items, found :: rest => value.same found && sameItems items rest
  | _, _ => false

def sameMembers : List (String × Value) → List (String × Value) → Bool
  | [], [] => true
  | (name, value) :: members, (foundName, found) :: rest =>
      name == foundName && value.same found && sameMembers members rest
  | _, _ => false

end

theorem eq_of_same :
    (∀ value found : Value, value.same found = true → value = found) ∧
      (∀ members found : List (String × Value), sameMembers members found = true →
        members = found) ∧
      ∀ items found : List Value, sameItems items found = true → items = found := by
  apply Value.same.mutual_induct_unfolding (fun value found same => same = true → value = found)
    (fun members found same => same = true → members = found)
    (fun items found same => same = true → items = found)
  case case7 | case10 | case13 =>
    intros
    contradiction
  all_goals
    intros
    simp_all only [Bool.and_eq_true, beq_iff_eq]

mutual

theorem Value.same_self : ∀ value : Value, value.same value = true
  | .null => rfl
  | .bool _ | .number _ | .string _ => beq_self_eq_true _
  | .array items => sameItems_self items
  | .object members => sameMembers_self members

theorem sameItems_self : ∀ items : List Value, sameItems items items = true
  | [] => rfl
  | value :: items => by rw [sameItems, value.same_self, sameItems_self items, Bool.and_self]

theorem sameMembers_self : ∀ members : List (String × Value), sameMembers members members = true
  | [] => rfl
  | (_, value) :: members => by
      rw [sameMembers, beq_self_eq_true, value.same_self, sameMembers_self members, Bool.and_self,
        Bool.and_self]

end

instance : DecidableEq Value := fun value found =>
  decidable_of_iff (value.same found = true)
    ⟨eq_of_same.1 value found, fun heq => heq ▸ value.same_self⟩

end Json

end ScopedCheck
