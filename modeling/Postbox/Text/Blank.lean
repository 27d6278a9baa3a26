import Postbox.Text.Ranges

/-!
# Blanks

The characters with the property White_Space of Unicode, and texts without them at either end.
-/

namespace Postbox.Text

/-- The code points with the property White_Space. -/
def blankRanges : Ranges :=
  [(0x9, 0xD), (0x20, 0x20), (0x85, 0x85), (0xA0, 0xA0), (0x1680, 0x1680), (0x2000, 0x200A),
   (0x2028, 0x2029), (0x202F, 0x202F), (0x205F, 0x205F), (0x3000, 0x3000)]

/-- The character is a blank. -/
def isBlank (c : Char) : Bool :=
  blankRanges.contains c

/-- The text without the blanks at its ends. -/
def trim (text : String) : String :=
  String.ofList
    (((text.toList.dropWhile isBlank).reverse.dropWhile isBlank).reverse)

/-- The text with the letters A to Z made small; no other character changes. -/
def lowerAscii (text : String) : String :=
  String.ofList (text.toList.map Char.toLower)

/-- What remains of a text after a given ending, if it has that ending. -/
def dropEnd? (ending text : String) : Option String :=
  if ending.toList.isSuffixOf text.toList then
    some (String.ofList (text.toList.take (text.toList.length - ending.toList.length)))
  else none

theorem dropEnd?_eq_some_iff {ending text rest : String} :
    dropEnd? ending text = some rest ↔ text = rest ++ ending := by
  unfold dropEnd?
  split
  · rename_i h
    obtain ⟨stem, hstem⟩ := List.isSuffixOf_iff_suffix.1 h
    have htext : text = String.ofList stem ++ ending := by
      rw [← String.toList_inj]
      simp [hstem]
    subst htext
    simp
  · rename_i h
    refine ⟨fun h' => (by cases h'), fun h' => absurd ?_ h⟩
    subst h'
    simp

end Postbox.Text
