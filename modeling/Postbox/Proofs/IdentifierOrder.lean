import Postbox.Proofs.ByteOrder

/-!
# Identifiers and their names are one ordered set

The texts of identifiers are the strings of 24 digits, and the names of their files are these with
an ending.  Reading and writing undo each other, and it makes no difference whether one compares
identifiers, what they are made of, their texts or the names of their files.
-/

namespace Postbox

/-- The smaller byte string comes first. -/
theorem Bytes.compare_eq_lt
    {a b : Bytes} (h : a < b) :
    compare a b = .lt := by
  induction a generalizing b with
  | nil =>
      cases b with
      | nil => exact absurd h (List.not_lt_nil _)
      | cons y ys => rfl
  | cons x xs ih =>
      cases b with
      | nil => exact absurd h (List.not_lt_nil _)
      | cons y ys =>
          rw [List.compare_cons_cons]
          rcases List.cons_lt_cons_iff.mp h with hlt | ⟨rfl, hrest⟩
          · rw [Std.compare_eq_lt.mpr hlt]
            rfl
          · rw [Std.ReflOrd.compare_self, ih hrest]
            rfl

namespace MessageId

variable {a b : MessageId}

/-! ## Comparing -/

/-- A way to compare that puts the smaller identifier first is the comparison of identifiers. -/
theorem compare_eq_of_lt
    {way : MessageId → MessageId → Ordering} [Std.OrientedCmp way]
    (h : ∀ {a b : MessageId}, a.value < b.value → way a b = .lt) :
    way a b = compare a b := by
  have hvalue : compare a b = compare a.value b.value := rfl
  rw [hvalue]
  rcases Nat.lt_trichotomy a.value b.value with hlt | heq | hgt
  · rw [h hlt, Nat.compare_eq_lt.mpr hlt]
  · have hself : way b b = .eq := Std.ReflCmp.compare_self
    rw [value_injective heq, hself, Std.ReflOrd.compare_self]
  · have hswap : way a b = (way b a).swap := Std.OrientedCmp.eq_swap
    rw [hswap, h hgt, Nat.compare_eq_gt.mpr hgt]
    rfl

/-- The clock decides, and the suffix where the clock reads the same. -/
theorem compare_parts :
    compareLex (compareOn ticks) (compareOn suffix) a b = compare a b := by
  refine compare_eq_of_lt fun {a b} h => ?_
  have hsuffix := a.suffix.toNat_lt
  have hsuffix' := b.suffix.toNat_lt
  simp only [value, UInt32.size] at h
  rw [compareLex, compareOn, compareOn]
  rcases Nat.lt_or_eq_of_le (show a.ticks.toNat ≤ b.ticks.toNat by omega) with hlt | heq
  · rw [Std.compare_eq_lt.mpr (UInt64.lt_iff_toNat_lt.mpr hlt)]
    rfl
  · have hless : a.suffix < b.suffix := UInt32.lt_iff_toNat_lt.mpr (by omega)
    rw [UInt64.toNat_inj.mp heq, Std.ReflOrd.compare_self, Std.compare_eq_lt.mpr hless]
    rfl

/-- What the smaller identifier has the smaller of compares as identifiers do. -/
theorem compare_map_eq
    {α : Type} [Ord α] [Std.OrientedOrd α] (part : MessageId → α)
    (h : ∀ {a b : MessageId}, a.value < b.value → compare (part a) (part b) = .lt) :
    compare (part a) (part b) = compare a b := by
  have hway : compareOn part a b = compare a b := compare_eq_of_lt h
  exact hway

theorem compare_text :
    compare a.text b.text = compare a b :=
  compare_map_eq text fun h => Std.LawfulLTCmp.eq_lt_iff_lt.mpr (text_lt_text h)

theorem compare_ofText_text :
    compare (Bytes.ofText a.text) (Bytes.ofText b.text) = compare a b :=
  compare_map_eq (fun id => Bytes.ofText id.text) fun h =>
    Bytes.compare_eq_lt (Bytes.ofText_lt_ofText_iff.mpr (text_lt_text h))

theorem compare_ofText_fileName :
    compare (Bytes.ofText a.fileName) (Bytes.ofText b.fileName) = compare a b :=
  compare_map_eq (fun id => Bytes.ofText id.fileName) fun h =>
    Bytes.compare_eq_lt (Bytes.ofText_lt_ofText_iff.mpr (fileName_lt_fileName h))

/-! ## Texts -/

/-- The text consists of 24 digits, each 0-9 or a-f. -/
def IsSpelling (text : String) : Prop :=
  text.toList.length = 24 ∧ ∀ c ∈ text.toList, c ∈ "0123456789abcdef".toList

theorem isSpelling_text (id : MessageId) :
    IsSpelling id.text := by
  have hdigits : ∀ d < 16, Hex.digit d ∈ "0123456789abcdef".toList := by decide
  refine ⟨id.length_toList_text, fun c hc => ?_⟩
  obtain ⟨d, hd, rfl⟩ := exists_of_mem_text hc
  exact hdigits d hd

/-- An identifier can be read from a spelling, and from nothing else. -/
theorem exists_ofText?_eq_some_iff
    {text : String} :
    (∃ id, ofText? text = some id) ↔ IsSpelling text := by
  constructor
  · rintro ⟨id, h⟩
    rw [ofText?_eq_some_iff.mp h]
    exact isSpelling_text id
  · rintro ⟨hlen, hdigits⟩
    obtain ⟨n, hn⟩ := Hex.exists_foldlM_eq hdigits 0
    have hread : Hex.read? text.toList = some n := hn
    refine ⟨ofValue n, ?_⟩
    rw [ofText?, if_pos (show _ = width from hlen), hread, Option.map_some]

example : ofText? "00000000000000000000000A" = none := by decide

/-- The text of an identifier and the name of its file are read back, nothing else is read as that
identifier, and all ways to compare two identifiers agree. -/
theorem one_ordered_set (a b : MessageId) (text : String) :
    (IsSpelling a.text ∧ ofText? a.text = some a ∧ ofFileName? a.fileName = some a ∧
        ofValue (a.ticks.toNat * 2 ^ 32 + a.suffix.toNat) = a) ∧
      ((∃ id, ofText? text = some id) ↔ IsSpelling text) ∧
      (ofText? text = some a ↔ a.text = text) ∧
      (ofFileName? text = some a ↔ text = a.fileName) ∧
      compareLex (compareOn ticks) (compareOn suffix) a b = compare a b ∧
      compare a.text b.text = compare a b ∧
      compare (Bytes.ofText a.text) (Bytes.ofText b.text) = compare a b ∧
      compare (Bytes.ofText a.fileName) (Bytes.ofText b.fileName) = compare a b :=
  ⟨⟨isSpelling_text a, ofText?_text a, ofFileName?_fileName a, ofValue_value a⟩,
    exists_ofText?_eq_some_iff, ofText?_eq_some_iff.trans eq_comm, ofFileName?_eq_some_iff,
    compare_parts, compare_text, compare_ofText_text, compare_ofText_fileName⟩

end MessageId

end Postbox
