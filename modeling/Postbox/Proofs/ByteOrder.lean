import Mathlib.Data.String.Basic
import Postbox.Proofs.Names

/-!
# Texts in the order of their bytes

Where two byte strings first differ, the smaller byte decides which comes first.  Numbers written
with a fixed number of digits are in the order of their values.  This makes the names that are made
from identifiers come in the order of the identifiers, and texts come in the same order whether one
compares their characters or the bytes of their encoding.
-/

namespace Postbox

/-! ## Digits -/

/-- Numbers are compared by their higher digits first. -/
theorem div_lt_or_mod_lt
    {m n : Nat} (h : m < n) (base : Nat) :
    m / base < n / base ∨ m / base = n / base ∧ m % base < n % base := by
  rcases Nat.lt_or_eq_of_le (Nat.div_le_div_right (Nat.le_of_lt h)) with hlt | heq
  · exact .inl hlt
  · have hm := Nat.div_add_mod m base
    have hn := Nat.div_add_mod n base
    rw [heq] at hm
    exact .inr ⟨heq, by omega⟩

/-- The last `width` digits of a number, each written as its sign. -/
def digitSigns {α : Type} (base : Nat) (sign : Nat → α) : (width : Nat) → Nat → List α
  | 0, _ => []
  | width + 1, n => digitSigns base sign width (n / base) ++ [sign (n % base)]

section Digits

variable {α : Type} {base : Nat} {sign : Nat → α} {width m n : Nat}

theorem digitSigns_congr
    (h : m % base ^ width = n % base ^ width) :
    digitSigns base sign width m = digitSigns base sign width n := by
  induction width generalizing m n with
  | zero => rfl
  | succ width ih =>
      rw [Nat.pow_succ'] at h
      have hdiv := congrArg (· / base) h
      have hmod := congrArg (· % base) h
      simp only [Nat.mod_mul_right_div_self, Nat.mod_mul_right_mod] at hdiv hmod
      rw [digitSigns, digitSigns, ih hdiv, hmod]

/-- The digits of the smaller number come first, if smaller digits have smaller signs. -/
theorem digitSigns_append_lt
    [LT α] (hsign : ∀ a b, a < b → b < base → sign a < sign b) (hbase : 0 < base)
    (h : m % base ^ width < n % base ^ width) (xs ys : List α) :
    digitSigns base sign width m ++ xs < digitSigns base sign width n ++ ys := by
  induction width generalizing m n xs ys with
  | zero => simp [Nat.mod_one] at h
  | succ width ih =>
      rw [Nat.pow_succ'] at h
      have hcases := div_lt_or_mod_lt h base
      simp only [Nat.mod_mul_right_div_self, Nat.mod_mul_right_mod] at hcases
      rw [digitSigns, digitSigns, List.append_assoc, List.append_assoc]
      rcases hcases with hdiv | ⟨hdiv, hmod⟩
      · exact ih hdiv _ _
      · rw [digitSigns_congr hdiv]
        apply List.append_left_lt
        exact List.cons_lt_cons_iff.mpr (.inl (hsign _ _ hmod (Nat.mod_lt n hbase)))

end Digits

namespace Bytes

/-! ## Encoded characters -/

/-- A byte that continues a character. -/
def continuation (sextet : Nat) : UInt8 :=
  UInt8.ofNat (sextet + 0x80)

theorem ofNat_lt_ofNat
    {m n : Nat} (h : m < n) (hn : n < 0x100) :
    UInt8.ofNat m < UInt8.ofNat n := by
  rw [UInt8.lt_iff_toNat_lt, UInt8.toNat_ofNat_of_lt' (Nat.lt_trans h hn),
    UInt8.toNat_ofNat_of_lt' hn]
  exact h

/-- The encoding of a character is a leading byte, which tells how many bytes follow, and six bits
in each of these. -/
theorem exists_utf8EncodeChar_eq (c : Char) :
    ∃ lead count, String.utf8EncodeChar c =
        UInt8.ofNat lead :: digitSigns 64 continuation count c.toNat ∧
      (count = 0 ∧ c.toNat < 0x80 ∧ lead = c.toNat ∨
        count = 1 ∧ 0x80 ≤ c.toNat ∧ c.toNat < 0x800 ∧ lead = c.toNat / 64 + 0xC0 ∨
        count = 2 ∧ 0x800 ≤ c.toNat ∧ c.toNat < 0x10000 ∧ lead = c.toNat / 64 ^ 2 + 0xE0 ∨
        count = 3 ∧ 0x10000 ≤ c.toNat ∧ c.toNat < 0x110000 ∧ lead = c.toNat / 64 ^ 3 + 0xF0) := by
  have hmax : c.toNat < 0x110000 := by
    rcases c.valid with h | ⟨-, h⟩
    · exact Nat.lt_trans h (by decide)
    · exact h
  have hval : c.val.toNat = c.toNat := rfl
  rw [String.utf8EncodeChar.eq_def, hval]
  simp only
  split
  · exact ⟨_, 0, rfl, .inl ⟨rfl, by omega, rfl⟩⟩
  · split
    · refine ⟨_, 1, ?_, .inr (.inl ⟨rfl, by omega, by omega, rfl⟩)⟩
      rw [Nat.mod_eq_of_lt (by omega : c.toNat / 64 < 32)]
      rfl
    · split
      · refine ⟨_, 2, ?_, .inr (.inr (.inl ⟨rfl, by omega, by omega, rfl⟩))⟩
        rw [Nat.mod_eq_of_lt (by omega : c.toNat / 4096 < 16)]
        rfl
      · refine ⟨_, 3, ?_, .inr (.inr (.inr ⟨rfl, by omega, by omega, rfl⟩))⟩
        rw [Nat.mod_eq_of_lt (by omega : c.toNat / 262144 < 8),
          show 4096 = 64 * 64 from rfl, ← Nat.div_div_eq_div_mul]
        rfl

/-- The encoding of the smaller character comes first. -/
theorem utf8EncodeChar_append_lt
    {c d : Char} (h : c < d) (xs ys : Bytes) :
    String.utf8EncodeChar c ++ xs < String.utf8EncodeChar d ++ ys := by
  have hlt : c.toNat < d.toNat := h
  obtain ⟨lead, count, hc, hlead⟩ := exists_utf8EncodeChar_eq c
  obtain ⟨lead', count', hd, hlead'⟩ := exists_utf8EncodeChar_eq d
  -- Either the leading bytes decide, or they are the same and the last digits do.
  have hcases : lead < lead' ∨ lead = lead' ∧ count = count' ∧
      c.toNat % 64 ^ count < d.toNat % 64 ^ count := by
    rcases hlead with ⟨rfl, _, rfl⟩ | ⟨rfl, _, _, rfl⟩ | ⟨rfl, _, _, rfl⟩ | ⟨rfl, _, _, rfl⟩ <;>
      rcases hlead' with ⟨rfl, _, rfl⟩ | ⟨rfl, _, _, rfl⟩ | ⟨rfl, _, _, rfl⟩ | ⟨rfl, _, _, rfl⟩ <;>
      omega
  have hbyte : lead' < 0x100 := by omega
  rw [hc, hd, List.cons_append, List.cons_append, List.cons_lt_cons_iff]
  rcases hcases with hless | ⟨rfl, rfl, hmod⟩
  · exact .inl (ofNat_lt_ofNat hless hbyte)
  · refine .inr ⟨rfl, digitSigns_append_lt (fun a b hab hb => ?_) (by decide) hmod xs ys⟩
    exact ofNat_lt_ofNat (by omega) (by omega)

/-! ## Texts -/

theorem utf8_flatMap_lt
    {cs ds : List Char} (h : cs < ds) :
    cs.flatMap String.utf8EncodeChar < ds.flatMap String.utf8EncodeChar := by
  induction cs generalizing ds with
  | nil =>
      cases ds with
      | nil => exact absurd h (List.not_lt_nil _)
      | cons d ds =>
          obtain ⟨lead, _, hd, -⟩ := exists_utf8EncodeChar_eq d
          rw [List.flatMap_cons, hd]
          exact List.nil_lt_cons _ _
  | cons c cs ih =>
      cases ds with
      | nil => exact absurd h (List.not_lt_nil _)
      | cons d ds =>
          rw [List.flatMap_cons, List.flatMap_cons]
          rcases List.cons_lt_cons_iff.mp h with hlt | ⟨rfl, hrest⟩
          · exact utf8EncodeChar_append_lt hlt _ _
          · exact List.append_left_lt (ih hrest)

/-- Texts and their bytes are in the same order. -/
theorem ofText_lt_ofText_iff
    {a b : String} :
    ofText a < ofText b ↔ a < b := by
  have hmono : ∀ {a b : String}, a < b → ofText a < ofText b := by
    intro a b h
    rw [ofText_eq_flatMap, ofText_eq_flatMap]
    exact utf8_flatMap_lt (String.lt_iff.mp h)
  refine ⟨fun h => ?_, hmono⟩
  rcases lt_trichotomy a b with hlt | rfl | hgt
  · exact hlt
  · exact absurd h (List.lt_irrefl _)
  · exact absurd (hmono hgt) (List.lt_asymm h)

end Bytes

/-! ## Names made from identifiers -/

theorem Hex.digits_eq_digitSigns (width n : Nat) :
    Hex.digits width n = digitSigns 16 Hex.digit width n := by
  induction width generalizing n with
  | zero => rfl
  | succ width ih => rw [Hex.digits, digitSigns, ih]

theorem Hex.digit_lt_digit
    {a b : Nat} (hab : a < b) (hb : b < 16) :
    Hex.digit a < Hex.digit b := by
  have hall : ∀ b < 16, ∀ a < b, Hex.digit a < Hex.digit b := by decide
  exact hall b hb a hab

namespace MessageId

/-- Identifiers and their texts are in the same order, whatever follows. -/
theorem toList_text_append_lt
    {a b : MessageId} (h : a.value < b.value) (xs ys : List Char) :
    a.text.toList ++ xs < b.text.toList ++ ys := by
  have hmod : a.value % 16 ^ width < b.value % 16 ^ width := by
    rwa [Nat.mod_eq_of_lt a.value_lt, Nat.mod_eq_of_lt b.value_lt]
  rw [text, text, String.toList_ofList, String.toList_ofList, Hex.digits_eq_digitSigns,
    Hex.digits_eq_digitSigns]
  exact digitSigns_append_lt (fun _ _ => Hex.digit_lt_digit) (by decide) hmod xs ys

theorem text_lt_text
    {a b : MessageId} (h : a.value < b.value) :
    a.text < b.text := by
  rw [String.lt_iff]
  simpa using toList_text_append_lt h [] []

/-- Identifiers and the names made from them are in the same order. -/
theorem fileName_lt_fileName
    {a b : MessageId} (h : a.value < b.value) :
    a.fileName < b.fileName := by
  rw [String.lt_iff, fileName, fileName, String.toList_append, String.toList_append]
  exact toList_text_append_lt h _ _

end MessageId

end Postbox
