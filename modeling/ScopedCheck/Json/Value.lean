import ScopedCheck.Decimal.Binary64

/-!
# JSON values

Objects keep their members as written, repeated names included.  `keyed` is the
view that names decide: members sorted by name, the last one of a name winning.
-/

namespace ScopedCheck

namespace Json

/-- A number as it was read: an integer of 64 bits, or a binary64 number. -/
inductive Number where
  | int (value : Int)
  | float (value : Binary64)
  deriving DecidableEq, Repr

inductive Value where
  | null
  | bool (value : Bool)
  | number (value : Number)
  | string (text : String)
  | array (items : List Value)
  | object (members : List (String × Value))
  deriving Repr, Inhabited

/-- Sets a member of a list sorted by name, replacing the one of that name. -/
def setMember (name : String) (value : Value) :
    List (String × Value) → List (String × Value)
  | [] => [(name, value)]
  | (other, old) :: rest =>
      if name < other then (name, value) :: (other, old) :: rest
      else if name = other then (name, value) :: rest
      else (other, old) :: setMember name value rest

/-- Looks a name up among members that have it at most once. -/
def member? (name : String) (members : List (String × Value)) : Option Value :=
  (members.find? (·.1 == name)).map (·.2)

mutual

/-- The value with every object's members sorted by name, the last of a name winning. -/
def Value.keyed : Value → Value
  | .array items => .array (keyedItems items)
  | .object members => .object (keyedMembers [] members)
  | value => value

def keyedItems : List Value → List Value
  | [] => []
  | item :: rest => item.keyed :: keyedItems rest

def keyedMembers (sorted : List (String × Value)) :
    List (String × Value) → List (String × Value)
  | [] => sorted
  | (name, value) :: rest => keyedMembers (setMember name value.keyed sorted) rest

end

def Value.get? (value : Value) (name : String) : Option Value :=
  match value with
  | .object members => member? name members
  | _ => none

def Value.items? : Value → Option (List Value)
  | .array items => some items
  | _ => none

def Value.text? : Value → Option String
  | .string text => some text
  | _ => none

def Value.ofNat (n : Nat) : Value :=
  .number (.int n)

/-! ## Lookup after a change -/

theorem member?_setMember_same (name : String) (value : Value)
    (members : List (String × Value)) : member? name (setMember name value members) = some value := by
  induction members with
  | nil => simp [setMember, member?]
  | cons head rest ih =>
      obtain ⟨other, old⟩ := head
      simp only [setMember]
      split
      · simp [member?]
      · split
        · simp [member?]
        · rename_i hne
          have hb : (other == name) = false := by simpa using Ne.symm hne
          simpa [member?, hb] using ih

theorem member?_setMember_other {name asked : String} (h : name ≠ asked) (value : Value)
    (members : List (String × Value)) :
    member? asked (setMember name value members) = member? asked members := by
  induction members with
  | nil => simp [setMember, member?, h]
  | cons head rest ih =>
      obtain ⟨other, old⟩ := head
      simp only [setMember]
      split
      · simp [member?, h]
      · split
        · rename_i heq
          simp [member?, ← heq, h]
        · by_cases ho : other = asked
          · simp [member?, ho]
          · simpa [member?, ho] using ih

end Json

end ScopedCheck
