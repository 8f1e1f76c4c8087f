/-
Module: ClassFactory.Text.Bytes
Purpose: UTF-8 byte offsets over lists of characters: the number of bytes of a text, the part
  that begins at an offset, and the part between two offsets. An offset inside a character, or
  beyond the end, names nothing.
Main exports: byteLength, dropBytes?, takeBytes?, slice?
-/

namespace ClassFactory.Text

/-- The number of bytes of a text in UTF-8. -/
def byteLength : List Char → Nat
  | [] => 0
  | c :: cs => c.utf8Size + byteLength cs

/-- The text from byte offset `n` on; `none` if that is no character boundary. -/
def dropBytes? : Nat → List Char → Option (List Char)
  | 0, cs => some cs
  | _ + 1, [] => none
  | n + 1, c :: cs => if c.utf8Size ≤ n + 1 then dropBytes? (n + 1 - c.utf8Size) cs else none

/-- The first `n` bytes of the text; `none` if they do not end at a character boundary. -/
def takeBytes? : Nat → List Char → Option (List Char)
  | 0, _ => some []
  | _ + 1, [] => none
  | n + 1, c :: cs =>
    if c.utf8Size ≤ n + 1 then (takeBytes? (n + 1 - c.utf8Size) cs).map (c :: ·) else none

/-- The text between two byte offsets; `none` unless both are character boundaries in order. -/
def slice? (start stop : Nat) (cs : List Char) : Option (List Char) :=
  if start ≤ stop then (dropBytes? start cs).bind (takeBytes? (stop - start)) else none

theorem byteLength_append (xs ys : List Char) :
    byteLength (xs ++ ys) = byteLength xs + byteLength ys := by
  induction xs with
  | nil => simp [byteLength]
  | cons x xs ih => simp [byteLength, ih, Nat.add_assoc]

/-- A text may be cut after any of its initial parts. -/
theorem dropBytes?_append (xs ys : List Char) : dropBytes? (byteLength xs) (xs ++ ys) = some ys := by
  induction xs with
  | nil => simp [byteLength, dropBytes?]
  | cons x xs ih =>
    have hx : 0 < x.utf8Size := Char.utf8Size_pos x
    obtain ⟨k, hk⟩ : ∃ k, x.utf8Size + byteLength xs = k + 1 := ⟨_, (Nat.sub_add_cancel (by omega)).symm⟩
    have hle : x.utf8Size ≤ k + 1 := by omega
    have hsub : k + 1 - x.utf8Size = byteLength xs := by omega
    simp [byteLength, hk, dropBytes?, hle, hsub, ih]

end ClassFactory.Text
