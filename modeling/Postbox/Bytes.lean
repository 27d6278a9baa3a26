/-!
# Byte strings

File contents, file names and path texts are finite sequences of bytes.  A text is stored as its
UTF-8 bytes; `Bytes.ofText` and `Bytes.text?` go back and forth, and `Bytes.pieces` cuts any byte
string into the characters it encodes and the stretches that encode nothing.
-/

namespace Postbox

/-- A finite sequence of bytes. -/
abbrev Bytes := List UInt8

namespace Bytes

/-- The UTF-8 bytes of a text. -/
def ofText (text : String) : Bytes :=
  text.toByteArray.data.toList

/-- The text whose UTF-8 bytes these are, if there is one. -/
def text? (bytes : Bytes) : Option String :=
  String.fromUTF8? ⟨bytes.toArray⟩

@[simp] theorem text?_ofText (text : String) : text? (ofText text) = some text := by
  have h : (⟨(ofText text).toArray⟩ : ByteArray) = text.toByteArray := by simp [ofText]
  rw [text?, h, String.fromUTF8?, dif_pos text.isValidUTF8]
  rfl

theorem ofText_of_text? {bytes : Bytes} {text : String} (h : text? bytes = some text) :
    ofText text = bytes := by
  simp only [text?, String.fromUTF8?] at h
  split at h
  · cases h
    rfl
  · cases h

/-- A byte string encodes a text exactly when it is that text's UTF-8 bytes. -/
theorem text?_eq_some_iff {bytes : Bytes} {text : String} :
    text? bytes = some text ↔ bytes = ofText text :=
  ⟨fun h => (ofText_of_text? h).symm, fun h => h ▸ text?_ofText text⟩

theorem ofText_injective {a b : String} (h : ofText a = ofText b) : a = b := by
  have := congrArg text? h
  simpa using this

@[simp] theorem ofText_append (a b : String) : ofText (a ++ b) = ofText a ++ ofText b := by
  simp [ofText]

/-- A stretch of a byte string: an encoded character, or bytes that encode none. -/
inductive Piece where
  | character (c : Char)
  | broken (bytes : Bytes)
deriving DecidableEq

/-- The range that the byte after the leading byte of a multi-byte character must lie in, and the
number of bytes that follow the leading one.  Surrogates, values beyond U+10FFFF and spellings
longer than needed are kept out by the narrower ranges. -/
def continuation? (lead : UInt8) : Option (UInt8 × UInt8 × Nat) :=
  if 0xC2 ≤ lead ∧ lead ≤ 0xDF then some (0x80, 0xBF, 1)
  else if lead = 0xE0 then some (0xA0, 0xBF, 2)
  else if lead = 0xED then some (0x80, 0x9F, 2)
  else if 0xE1 ≤ lead ∧ lead ≤ 0xEF then some (0x80, 0xBF, 2)
  else if lead = 0xF0 then some (0x90, 0xBF, 3)
  else if lead = 0xF4 then some (0x80, 0x8F, 3)
  else if 0xF1 ≤ lead ∧ lead ≤ 0xF3 then some (0x80, 0xBF, 3)
  else none

/-- The bytes that continue a character: the first within the given range, later ones within the
general one, at most `count` of them. -/
def following (low high : UInt8) : Nat → Bytes → Bytes
  | 0, _ => []
  | _ + 1, [] => []
  | count + 1, b :: rest =>
    if low ≤ b ∧ b ≤ high then b :: following 0x80 0xBF count rest else []

/-- The value that a leading byte and its continuation bytes spell. -/
def scalar (lead : UInt8) (tail : Bytes) : Nat :=
  let head := match tail.length with
    | 1 => lead.toNat % 0x20
    | 2 => lead.toNat % 0x10
    | _ => lead.toNat % 0x08
  tail.foldl (fun value b => value * 0x40 + b.toNat % 0x40) head

/-- The first piece of a non-empty byte string.  A character that breaks off is a broken piece as
long as the part that could have begun one. -/
def firstPiece (lead : UInt8) (rest : Bytes) : Piece × Bytes :=
  if lead < 0x80 then (.character (Char.ofNat lead.toNat), rest)
  else match continuation? lead with
    | none => (.broken [lead], rest)
    | some (low, high, count) =>
      let tail := following low high count rest
      if tail.length = count then (.character (Char.ofNat (scalar lead tail)), rest.drop count)
      else (.broken (lead :: tail), rest.drop tail.length)

theorem firstPiece_length (lead : UInt8) (rest : Bytes) :
    (firstPiece lead rest).2.length ≤ rest.length := by
  unfold firstPiece
  split
  · exact Nat.le_refl _
  · split
    · exact Nat.le_refl _
    · simp only
      split <;> simp only [List.length_drop] <;> exact Nat.sub_le _ _

/-- A byte string cut into encoded characters and broken stretches. -/
def pieces : Bytes → List Piece
  | [] => []
  | lead :: rest =>
    (firstPiece lead rest).1 :: pieces (firstPiece lead rest).2
termination_by bytes => bytes.length
decreasing_by
  have := firstPiece_length lead rest
  simp only [List.length_cons]
  omega

/-- The text of a byte string for a reader: a broken stretch shows as one replacement character. -/
def display (bytes : Bytes) : String :=
  match text? bytes with
  | some text => text
  | none => String.ofList (bytes.pieces.map fun
      | .character c => c
      | .broken _ => '\uFFFD')

@[simp] theorem display_ofText (text : String) : display (ofText text) = text := by
  simp [display]

end Bytes

end Postbox
