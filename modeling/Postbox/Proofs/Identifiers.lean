import Mathlib.Algebra.Group.Nat.Defs
import Mathlib.Data.List.Induction
import Postbox.Message.Id

/-!
# Texts of identifiers

Hexadecimal digits of fixed width spell a number, so an identifier is read back from its text and
from the name of its message file, and from no other text or name.
-/

namespace Postbox

namespace Hex

theorem value?_digit
    {d : Nat} (h : d < 16) :
    value? (digit d) = some d := by
  have hall : ∀ d < 16, value? (digit d) = some d := by decide
  exact hall d h

theorem digit_ne
    {d : Nat} (h : d < 16) :
    digit d ≠ '.' ∧ digit d ≠ '/' ∧ digit d ≠ '\x00' := by
  have hall : ∀ d < 16, digit d ≠ '.' ∧ digit d ≠ '/' ∧ digit d ≠ '\x00' := by decide
  exact hall d h

theorem exists_of_mem_digits
    {w n : Nat} {c : Char} (h : c ∈ digits w n) :
    ∃ d < 16, c = digit d := by
  induction w generalizing n with
  | zero => simp [digits] at h
  | succ w ih =>
      rw [digits, List.mem_append, List.mem_singleton] at h
      rcases h with h | rfl
      · exact ih h
      · exact ⟨n % 16, Nat.mod_lt _ (by decide), rfl⟩

theorem foldlM_digits
    {w n : Nat} (h : n < 16 ^ w) (start : Nat) :
    (digits w n).foldlM (fun n c => (value? c).map (n * 16 + ·)) start =
      some (start * 16 ^ w + n) := by
  induction w generalizing n start with
  | zero =>
      obtain rfl : n = 0 := by simpa using h
      simp [digits]
  | succ w ih =>
      have hdiv : n / 16 < 16 ^ w := by
        rw [Nat.div_lt_iff_lt_mul (by decide)]
        simpa [Nat.pow_succ] using h
      rw [digits, List.foldlM_append, ih hdiv]
      have hdigit := value?_digit (Nat.mod_lt n (by decide : 0 < 16))
      simp only [List.foldlM_cons, List.foldlM_nil, hdigit,
        Option.map_some, Option.bind_eq_bind, Option.bind_some, Option.pure_def, Nat.pow_succ]
      congr 1
      rw [Nat.add_mul, Nat.mul_assoc, Nat.add_assoc, Nat.div_add_mod']

/-- The last digits of a number that needs no more spell it. -/
theorem read?_digits
    {w n : Nat} (h : n < 16 ^ w) :
    read? (digits w n) = some n := by
  rw [read?, foldlM_digits h 0, Nat.zero_mul, Nat.zero_add]

theorem digit_of_value?
    {c : Char} {d : Nat} (h : value? c = some d) :
    d < 16 ∧ digit d = c := by
  have hall : ∀ n < 0x67, ∀ d ∈ value? (Char.ofNat n), d < 16 ∧ digit d = Char.ofNat n := by decide
  have hlt : c.toNat < 0x67 := by
    rw [value?] at h
    split at h
    · rename_i hdigit
      exact Nat.lt_of_le_of_lt hdigit.2 (by decide)
    · split at h
      · rename_i hletter
        exact Nat.lt_of_le_of_lt hletter.2 (by decide)
      · cases h
  rw [← Char.ofNat_toNat c] at h ⊢
  exact hall _ hlt d h

/-- A number has one spelling in digits. -/
theorem digits_of_read?
    {cs : List Char} {n : Nat} (h : read? cs = some n) :
    digits cs.length n = cs ∧ n < 16 ^ cs.length := by
  induction cs using List.reverseRecOn generalizing n with
  | nil =>
      obtain rfl : 0 = n := by simpa [read?] using h
      exact ⟨rfl, Nat.one_pos⟩
  | append_singleton front c ih =>
      simp only [read?, List.foldlM_append, List.foldlM_cons, List.foldlM_nil,
        Option.bind_eq_bind, Option.pure_def, Option.bind_eq_some_iff, Option.map_eq_some_iff,
        Option.some.injEq] at h
      obtain ⟨m, hm, _, ⟨d, hd, rfl⟩, rfl⟩ := h
      obtain ⟨hfront, hlt⟩ := ih hm
      obtain ⟨hd16, hdigit⟩ := digit_of_value? hd
      have hdiv : (m * 16 + d) / 16 = m := by omega
      have hmod : (m * 16 + d) % 16 = d := by omega
      constructor
      · rw [List.length_append, List.length_singleton, digits, hdiv, hmod, hfront, hdigit]
      · rw [List.length_append, List.length_singleton, Nat.pow_succ]
        omega

/-- Every run of digits spells a number. -/
theorem exists_foldlM_eq
    {cs : List Char} (h : ∀ c ∈ cs, c ∈ "0123456789abcdef".toList) (start : Nat) :
    ∃ n, cs.foldlM (fun n c => (value? c).map (n * 16 + ·)) start = some n := by
  induction cs generalizing start with
  | nil => exact ⟨start, rfl⟩
  | cons c cs ih =>
      have hdigits : "0123456789abcdef".toList.all (fun c => (value? c).isSome) = true := by decide
      have hsome := List.all_eq_true.mp hdigits c (h c List.mem_cons_self)
      obtain ⟨d, hd⟩ := Option.isSome_iff_exists.mp hsome
      obtain ⟨n, hn⟩ := ih (fun c hc => h c (List.mem_cons_of_mem _ hc)) (start * 16 + d)
      refine ⟨n, ?_⟩
      rw [List.foldlM_cons, hd]
      exact hn

end Hex

namespace MessageId

theorem value_lt (id : MessageId) :
    id.value < 16 ^ width := by
  have hticks := id.ticks.toNat_lt
  have hsuffix := id.suffix.toNat_lt
  unfold value width UInt32.size
  omega

theorem ofValue_value (id : MessageId) :
    ofValue id.value = id := by
  have hsuffix := id.suffix.toNat_lt
  have hdiv : id.value / UInt32.size = id.ticks.toNat := by
    unfold value UInt32.size
    omega
  have hmod : id.value % UInt32.size = id.suffix.toNat := by
    unfold value UInt32.size
    omega
  rw [ofValue, hdiv, hmod]
  simp

theorem value_injective :
    Function.Injective value := by
  intro a b h
  rw [← ofValue_value a, ← ofValue_value b, h]

@[simp] theorem length_toList_text (id : MessageId) :
    id.text.toList.length = width := by
  simp [text]

@[simp] theorem ofText?_text (id : MessageId) :
    ofText? id.text = some id := by
  have hread : Hex.read? (Hex.digits width id.value) = some id.value :=
    Hex.read?_digits id.value_lt
  rw [ofText?, if_pos id.length_toList_text, text, String.toList_ofList, hread, Option.map_some,
    ofValue_value]

@[simp] theorem ofFileName?_fileName (id : MessageId) :
    ofFileName? id.fileName = some id := by
  have h : Text.dropEnd? ending id.fileName = some id.text := by
    rw [Text.dropEnd?_eq_some_iff, fileName]
  rw [ofFileName?, h, Option.bind_some, ofText?_text]

theorem fileName_injective :
    Function.Injective fileName := by
  intro a b h
  have := congrArg ofFileName? h
  simpa using this

theorem stagingName_injective :
    Function.Injective stagingName := by
  intro a b h
  have h' := congrArg String.toList h
  simp only [stagingName, String.toList_append, List.append_cancel_left_eq,
    String.toList_inj] at h'
  exact fileName_injective h'

theorem value_ofValue
    {n : Nat} (h : n < 16 ^ width) :
    (ofValue n).value = n := by
  have hpow : 16 ^ width = UInt64.size * UInt32.size := rfl
  have hticks : n / UInt32.size < UInt64.size := by
    rw [Nat.div_lt_iff_lt_mul (by decide)]
    omega
  have hsuffix : n % UInt32.size < UInt32.size := Nat.mod_lt _ (by decide)
  rw [value, ofValue, UInt64.toNat_ofNat_of_lt' hticks, UInt32.toNat_ofNat_of_lt' hsuffix]
  exact Nat.div_add_mod' n UInt32.size

theorem ofText?_eq_some_iff
    {text : String} {id : MessageId} :
    ofText? text = some id ↔ text = id.text := by
  constructor
  · intro h
    rw [ofText?] at h
    split at h
    · rename_i hlen
      obtain ⟨n, hread, rfl⟩ := Option.map_eq_some_iff.mp h
      obtain ⟨hdigits, hlt⟩ := Hex.digits_of_read? hread
      rw [hlen] at hdigits hlt
      rw [MessageId.text, value_ofValue hlt, hdigits, String.ofList_toList]
    · cases h
  · rintro rfl
    exact ofText?_text id

theorem ofFileName?_eq_some_iff
    {name : String} {id : MessageId} :
    ofFileName? name = some id ↔ name = id.fileName := by
  rw [ofFileName?, Option.bind_eq_some_iff]
  simp only [Text.dropEnd?_eq_some_iff, ofText?_eq_some_iff]
  rw [fileName]
  constructor
  · rintro ⟨stem, rfl, rfl⟩
    rfl
  · rintro rfl
    exact ⟨id.text, rfl, rfl⟩

/-- The text of an identifier is made of digits. -/
theorem exists_of_mem_text
    {id : MessageId} {c : Char} (h : c ∈ id.text.toList) :
    ∃ d < 16, c = Hex.digit d := by
  rw [text, String.toList_ofList] at h
  exact Hex.exists_of_mem_digits h

end MessageId

end Postbox
