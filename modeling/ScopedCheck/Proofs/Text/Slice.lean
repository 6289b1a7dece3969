import ScopedCheck.Text.Units

/-!
# Slices by byte index

A slice between two places of a text gives what stands between them.
-/

namespace ScopedCheck

namespace Text

theorem dropBytes?_append (a b : List Char) : dropBytes? (bytes a) (a ++ b) = some b := by
  induction a with
  | nil => simp [bytes, dropBytes?]
  | cons c rest ih =>
      have hpos := c.utf8Size_pos
      obtain ⟨count, hcount⟩ : ∃ count, c.utf8Size + bytes rest = count + 1 :=
        ⟨c.utf8Size + bytes rest - 1, by omega⟩
      rw [bytes, hcount, List.cons_append, dropBytes?, if_pos (by omega)]
      rwa [show count + 1 - c.utf8Size = bytes rest by omega]

theorem takeBytes?_append (a b : List Char) : takeBytes? (bytes a) (a ++ b) = some a := by
  induction a with
  | nil => simp [bytes, takeBytes?]
  | cons c rest ih =>
      have hpos := c.utf8Size_pos
      obtain ⟨count, hcount⟩ : ∃ count, c.utf8Size + bytes rest = count + 1 :=
        ⟨c.utf8Size + bytes rest - 1, by omega⟩
      rw [bytes, hcount, List.cons_append, takeBytes?, if_pos (by omega)]
      rw [show count + 1 - c.utf8Size = bytes rest by omega, ih]
      rfl

theorem sliceBytes?_append (before content after : List Char) :
    sliceBytes? (before ++ (content ++ after)) (bytes before) (bytes before + bytes content) =
      some content := by
  rw [sliceBytes?, if_pos (Nat.le_add_right _ _), dropBytes?_append, Option.bind_some,
    Nat.add_sub_cancel_left, takeBytes?_append]

end Text

end ScopedCheck
