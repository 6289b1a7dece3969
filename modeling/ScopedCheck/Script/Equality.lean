import ScopedCheck.Script.Tree

/-!
# Equality of trees

Trees are compared part by part, so that what a text is read as can be checked
against a tree that is written out.
-/

namespace ScopedCheck

namespace Script

mutual

def Expr.same : Expr → Expr → Bool
  | .identifier name, .identifier found => name == found
  | .string value, .string found => value == found
  | .array items, .array found => sameItems items found
  | .object members, .object found => sameMembers members found
  | .property object name, .property found foundName => object.same found && name == foundName
  | .otherProperty, .otherProperty => true
  | .chain, .chain => true
  | .parenthesized inner, .parenthesized found => inner.same found
  | .assignment target value, .assignment found foundValue =>
      target.same found && value.same foundValue
  | .arrow, .arrow => true
  | .unary, .unary => true
  | .operation, .operation => true
  | .bareNew, .bareNew => true
  | .invalid, .invalid => true
  | .other, .other => true
  | _, _ => false

def sameItems : List Item → List Item → Bool
  | [], [] => true
  | .hole :: items, .hole :: rest => sameItems items rest
  | .single value :: items, .single found :: rest => value.same found && sameItems items rest
  | .spread value :: items, .spread found :: rest => value.same found && sameItems items rest
  | _, _ => false

def sameMembers : List Member → List Member → Bool
  | [], [] => true
  | .field name value :: members, .field foundName found :: rest =>
      name == foundName && value.same found && sameMembers members rest
  | .method name :: members, .method found :: rest => name == found && sameMembers members rest
  | .accessor :: members, .accessor :: rest => sameMembers members rest
  | .shorthand name :: members, .shorthand found :: rest =>
      name == found && sameMembers members rest
  | .spread value :: members, .spread found :: rest =>
      value.same found && sameMembers members rest
  | _, _ => false

end

theorem eq_of_same :
    (∀ expr found : Expr, expr.same found = true → expr = found) ∧
      (∀ members found : List Member, sameMembers members found = true → members = found) ∧
      ∀ items found : List Item, sameItems items found = true → items = found := by
  apply Expr.same.mutual_induct_unfolding (fun expr found same => same = true → expr = found)
    (fun members found same => same = true → members = found)
    (fun items found same => same = true → items = found)
  case case16 | case21 | case28 =>
    intros
    contradiction
  all_goals
    intros
    simp_all only [Bool.and_eq_true, beq_iff_eq]

mutual

theorem Expr.same_self : ∀ expr : Expr, expr.same expr = true
  | .identifier _ => beq_self_eq_true _
  | .string _ => beq_self_eq_true _
  | .array items => sameItems_self items
  | .object members => sameMembers_self members
  | .property object _ => by rw [Expr.same, object.same_self, beq_self_eq_true, Bool.and_self]
  | .parenthesized inner => inner.same_self
  | .assignment target value => by rw [Expr.same, target.same_self, value.same_self, Bool.and_self]
  | .otherProperty | .chain | .arrow | .unary | .operation | .bareNew | .invalid | .other => rfl

theorem sameItems_self : ∀ items : List Item, sameItems items items = true
  | [] => rfl
  | .hole :: items => sameItems_self items
  | .single value :: items | .spread value :: items => by
      rw [sameItems, value.same_self, sameItems_self items, Bool.and_self]

theorem sameMembers_self : ∀ members : List Member, sameMembers members members = true
  | [] => rfl
  | .field _ value :: members => by
      rw [sameMembers, beq_self_eq_true, value.same_self, sameMembers_self members, Bool.and_self,
        Bool.and_self]
  | .method _ :: members | .shorthand _ :: members => by
      rw [sameMembers, beq_self_eq_true, sameMembers_self members, Bool.and_self]
  | .accessor :: members => sameMembers_self members
  | .spread value :: members => by
      rw [sameMembers, value.same_self, sameMembers_self members, Bool.and_self]

end

instance : DecidableEq Expr := fun expr found =>
  decidable_of_iff (expr.same found = true)
    ⟨eq_of_same.1 expr found, fun heq => heq ▸ expr.same_self⟩

deriving instance DecidableEq for Binding
deriving instance DecidableEq for Statement

end Script

end ScopedCheck
