import Postbox.Message.Name
import Postbox.Path
import Postbox.Proofs.Identifiers

/-!
# Names of entries

Which bytes can name an entry of a directory, and how the three families of mailbox names are kept
apart: a visible name does not begin with a dot, a claim name ends in `.claimed`, and a staging name
does neither.
-/

namespace Postbox

/-! ## Plain names -/

/-- The bytes can name an entry of a directory. -/
structure Name.IsPlain (name : Name) : Prop where
  ne_nil : name ≠ []
  ne_dot : name ≠ [Path.dot]
  ne_dotdot : name ≠ Path.dotdot
  slash_notMem : Path.slash ∉ name
  zero_notMem : (0 : UInt8) ∉ name

instance (name : Name) : Decidable (Name.IsPlain name) :=
  decidable_of_iff
    (name ≠ [] ∧ name ≠ [Path.dot] ∧ name ≠ Path.dotdot ∧ Path.slash ∉ name ∧ (0 : UInt8) ∉ name)
    ⟨fun ⟨h₁, h₂, h₃, h₄, h₅⟩ => ⟨h₁, h₂, h₃, h₄, h₅⟩,
      fun h => ⟨h.ne_nil, h.ne_dot, h.ne_dotdot, h.slash_notMem, h.zero_notMem⟩⟩

namespace Bytes

/-- The bytes of a text are those of its characters. -/
theorem ofText_eq_flatMap (text : String) :
    ofText text = text.toList.flatMap String.utf8EncodeChar := by
  rw [ofText, ← String.utf8Encode_toList]
  simp [List.utf8Encode]

/-- A byte below 0x80 stands for itself only. -/
theorem eq_of_mem_utf8EncodeChar
    {c : Char} {b : UInt8} (hb : b.toNat < 0x80)
    (h : b ∈ String.utf8EncodeChar c) :
    c.toNat = b.toNat := by
  rw [String.utf8EncodeChar.eq_def] at h
  have hc : c.toNat = c.val.toNat := rfl
  simp only at h
  split at h
  · simp only [List.mem_singleton] at h
    subst h
    simp only [UInt8.toNat_ofNat', Nat.reducePow]
    omega
  · exfalso
    split at h
    · simp only [List.mem_cons, List.not_mem_nil, or_false] at h
      rcases h with rfl | rfl <;>
        simp only [UInt8.toNat_ofNat', Nat.reducePow] at hb <;> omega
    · split at h
      · simp only [List.mem_cons, List.not_mem_nil, or_false] at h
        rcases h with rfl | rfl | rfl <;>
          simp only [UInt8.toNat_ofNat', Nat.reducePow] at hb <;> omega
      · simp only [List.mem_cons, List.not_mem_nil, or_false] at h
        rcases h with rfl | rfl | rfl | rfl <;>
          simp only [UInt8.toNat_ofNat', Nat.reducePow] at hb <;> omega

theorem exists_mem_of_mem_ofText
    {text : String} {b : UInt8} (hb : b.toNat < 0x80)
    (h : b ∈ ofText text) :
    ∃ c ∈ text.toList, c.toNat = b.toNat := by
  rw [ofText_eq_flatMap, List.mem_flatMap] at h
  obtain ⟨c, hc, hmem⟩ := h
  exact ⟨c, hc, eq_of_mem_utf8EncodeChar hb hmem⟩

end Bytes

/-! ## The three families -/

namespace MessageName

theorem isVisible_iff
    {name : String} :
    isVisible name = true ↔
      name.toList.head? ≠ some '.' ∧ ∃ stem, name = stem ++ MessageId.ending := by
  simp only [isVisible, Bool.and_eq_true, bne_iff_ne, Option.isSome_iff_exists,
    Text.dropEnd?_eq_some_iff]

theorem toList_claim (name : String) :
    (claim name).toList = '.' :: (name.toList ++ claimEnding.toList) := by
  simp [claim]

theorem claim_injective :
    Function.Injective claim := by
  intro a b h
  have := congrArg String.toList h
  simpa [toList_claim, String.toList_inj] using this

/-- Claimed names are recognised, and nothing else is. -/
theorem claimed?_eq_some_iff
    {claimed name : String} :
    claimed? claimed = some name ↔ isVisible name = true ∧ claimed = claim name := by
  unfold claimed?
  split
  · rename_i rest hrest
    rw [Option.filter_eq_some_iff, Text.dropEnd?_eq_some_iff, ← String.toList_inj,
      ← @String.toList_inj claimed, toList_claim, hrest]
    simp [and_comm]
  · rename_i hrest
    constructor
    · intro h
      cases h
    · rintro ⟨-, rfl⟩
      exact absurd (toList_claim name) (hrest _)

theorem claimed?_claim
    {name : String} (h : isVisible name = true) :
    claimed? (claim name) = some name :=
  claimed?_eq_some_iff.mpr ⟨h, rfl⟩

/-- A name that begins with a dot is not visible. -/
theorem isVisible_of_head?_eq
    {name : String} (h : name.toList.head? = some '.') :
    isVisible name = false := by
  simp [isVisible, h]

theorem isVisible_claim (name : String) :
    isVisible (claim name) = false :=
  isVisible_of_head?_eq (by simp [toList_claim])

theorem ne_claim
    {name : String} (hvisible : isVisible name = true) (other : String) :
    name ≠ claim other := by
  rintro rfl
  rw [isVisible_claim] at hvisible
  cases hvisible

theorem isVisible_stagingName (id : MessageId) :
    isVisible id.stagingName = false :=
  isVisible_of_head?_eq (by simp [MessageId.stagingName])

theorem isVisible_fileName (id : MessageId) :
    isVisible id.fileName = true := by
  refine isVisible_iff.mpr ⟨?_, id.text, by rw [MessageId.fileName]⟩
  cases hid : id.text.toList with
  | nil =>
      have hlen := id.length_toList_text
      simp [hid, MessageId.width] at hlen
  | cons c rest =>
      intro hdot
      obtain rfl : c = '.' := by simpa [MessageId.fileName, hid] using hdot
      obtain ⟨d, hd, hchar⟩ := MessageId.exists_of_mem_text (by rw [hid]; exact List.mem_cons_self)
      exact (Hex.digit_ne hd).1 hchar.symm

/-- A staging name ends in `l` and a claim name in `d`. -/
theorem claim_ne_stagingName (name : String) (id : MessageId) :
    claim name ≠ id.stagingName := by
  intro h
  have hlast := congrArg (fun text : String => text.toList.getLast?) h
  simp only [toList_claim, claimEnding, MessageId.stagingName, MessageId.fileName,
    MessageId.ending, String.toList_append, ← List.cons_append, ← List.append_assoc,
    List.getLast?_append] at hlast
  revert hlast
  simp

theorem claimed?_stagingName (id : MessageId) :
    claimed? id.stagingName = none := by
  cases h : claimed? id.stagingName with
  | none => rfl
  | some name => exact absurd (claimed?_eq_some_iff.mp h).2.symm (claim_ne_stagingName name id)

end MessageName

/-! ## Mailbox names are plain -/

theorem Name.isPlain_of_length
    {name : Name} (hlen : 2 < name.length)
    (hslash : Path.slash ∉ name) (hzero : (0 : UInt8) ∉ name) :
    Name.IsPlain name where
  ne_nil h := by simp [h] at hlen
  ne_dot h := by simp [h] at hlen
  ne_dotdot h := by simp [h, Path.dotdot] at hlen
  slash_notMem := hslash
  zero_notMem := hzero

namespace MessageName

theorem ofText_claim (name : String) :
    Bytes.ofText (claim name) = Path.dot :: (Bytes.ofText name ++ Bytes.ofText claimEnding) := by
  have hdot : Bytes.ofText "." = [Path.dot] := by decide
  simp [claim, hdot]

theorem length_ofText_claim (name : String) :
    (Bytes.ofText (claim name)).length = (Bytes.ofText name).length + 9 := by
  have hending : (Bytes.ofText claimEnding).length = 8 := by decide
  simp [ofText_claim, hending]

theorem isPlain_claim
    {name : String} (h : Name.IsPlain (Bytes.ofText name)) :
    Name.IsPlain (Bytes.ofText (claim name)) := by
  have hslash : Path.slash ∉ Bytes.ofText claimEnding := by decide
  have hzero : (0 : UInt8) ∉ Bytes.ofText claimEnding := by decide
  refine Name.isPlain_of_length (by rw [length_ofText_claim]; omega) ?_ ?_
  · simp only [ofText_claim, List.mem_cons, List.mem_append, not_or]
    exact ⟨by decide, h.slash_notMem, hslash⟩
  · simp only [ofText_claim, List.mem_cons, List.mem_append, not_or]
    exact ⟨by decide, h.zero_notMem, hzero⟩

/-- What a plain claim name claims is plain. -/
theorem isPlain_of_isPlain_claim
    {name : String} (hvisible : isVisible name = true)
    (h : Name.IsPlain (Bytes.ofText (claim name))) :
    Name.IsPlain (Bytes.ofText name) := by
  have hending : (Bytes.ofText MessageId.ending).length = 4 := by decide
  obtain ⟨-, stem, rfl⟩ := isVisible_iff.mp hvisible
  refine Name.isPlain_of_length ?_ ?_ ?_
  · rw [Bytes.ofText_append, List.length_append, hending]
    omega
  · intro hmem
    exact h.slash_notMem (by
      rw [ofText_claim]
      exact List.mem_cons_of_mem _ (List.mem_append_left _ hmem))
  · intro hmem
    exact h.zero_notMem (by
      rw [ofText_claim]
      exact List.mem_cons_of_mem _ (List.mem_append_left _ hmem))

end MessageName

namespace MessageId

theorem notMem_ofText_fileName
    {id : MessageId} {b : UInt8} (hb : b = Path.slash ∨ b = 0) :
    b ∉ Bytes.ofText id.fileName := by
  have hending : b ∉ Bytes.ofText ending := by
    rcases hb with rfl | rfl <;> decide
  rw [fileName, Bytes.ofText_append, List.mem_append, not_or]
  refine ⟨?_, hending⟩
  intro hmem
  have hascii : b.toNat < 0x80 := by rcases hb with rfl | rfl <;> decide
  obtain ⟨c, hc, hval⟩ := Bytes.exists_mem_of_mem_ofText hascii hmem
  obtain ⟨d, hd, rfl⟩ := exists_of_mem_text hc
  obtain ⟨-, hslash, hzero⟩ := Hex.digit_ne hd
  rcases hb with rfl | rfl
  · exact hslash (Char.toNat_inj.mp hval)
  · exact hzero (Char.toNat_inj.mp hval)

theorem length_ofText_text (id : MessageId) :
    (Bytes.ofText id.text).length = width := by
  have hbyte : ∀ d < 16, (String.utf8EncodeChar (Hex.digit d)).length = 1 := by decide
  have hall : ∀ c ∈ id.text.toList, (String.utf8EncodeChar c).length = 1 := by
    intro c hc
    obtain ⟨d, hd, rfl⟩ := exists_of_mem_text hc
    exact hbyte d hd
  rw [Bytes.ofText_eq_flatMap, List.length_flatMap, List.map_congr_left hall, List.map_const',
    List.sum_replicate_nat, id.length_toList_text, Nat.mul_one]

theorem length_ofText_fileName (id : MessageId) :
    (Bytes.ofText id.fileName).length = 28 := by
  have hending : (Bytes.ofText ending).length = 4 := by decide
  rw [fileName, Bytes.ofText_append, List.length_append, length_ofText_text, hending, width]

theorem ofText_stagingName (id : MessageId) :
    Bytes.ofText id.stagingName = Path.dot :: Bytes.ofText id.fileName := by
  have hdot : Bytes.ofText "." = [Path.dot] := by decide
  simp [stagingName, hdot]

theorem length_ofText_stagingName (id : MessageId) :
    (Bytes.ofText id.stagingName).length = 29 := by
  rw [ofText_stagingName, List.length_cons, length_ofText_fileName]

theorem isPlain_fileName (id : MessageId) :
    Name.IsPlain (Bytes.ofText id.fileName) :=
  Name.isPlain_of_length (by rw [length_ofText_fileName]; decide)
    (notMem_ofText_fileName (.inl rfl)) (notMem_ofText_fileName (.inr rfl))

theorem isPlain_stagingName (id : MessageId) :
    Name.IsPlain (Bytes.ofText id.stagingName) := by
  refine Name.isPlain_of_length (by rw [length_ofText_stagingName]; decide) ?_ ?_
  · rw [ofText_stagingName, List.mem_cons, not_or]
    exact ⟨by decide, notMem_ofText_fileName (.inl rfl)⟩
  · rw [ofText_stagingName, List.mem_cons, not_or]
    exact ⟨by decide, notMem_ofText_fileName (.inr rfl)⟩

end MessageId

end Postbox
