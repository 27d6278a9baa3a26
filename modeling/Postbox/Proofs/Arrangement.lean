import Postbox.Proofs.ByteOrder
import Postbox.Proofs.Listings

/-!
# What is announced, oldest first

Oldest first, the messages named by an identifier come before all others, in the order of their
identifiers; the others follow in the order of the bytes of their names.  No two names are on a par,
so there is one such arrangement of the messages that wait, and it does not depend on how the
directory is listed.
-/

namespace Postbox

/-! ## Names made from identifiers -/

/-- The name consists of 24 digits, each 0-9 or a-f, and the ending of message files. -/
def MessageName.IsNumbered (name : String) : Prop :=
  ∃ digits : List Char, digits.length = 24 ∧ (∀ c ∈ digits, c ∈ "0123456789abcdef".toList) ∧
    name = String.ofList digits ++ ".eml"

namespace MessageName

theorem isNumbered_fileName (id : MessageId) :
    IsNumbered id.fileName := by
  have hdigits : ∀ d < 16, Hex.digit d ∈ "0123456789abcdef".toList := by decide
  refine ⟨id.text.toList, id.length_toList_text, fun c hc => ?_, ?_⟩
  · obtain ⟨d, hd, rfl⟩ := MessageId.exists_of_mem_text hc
    exact hdigits d hd
  · rw [String.ofList_toList]
    rfl

/-- The numbered names are those made from identifiers. -/
theorem isNumbered_iff
    {name : String} :
    IsNumbered name ↔ ∃ id : MessageId, name = id.fileName := by
  constructor
  · rintro ⟨digits, hlen, hdigits, rfl⟩
    obtain ⟨n, hn⟩ := Hex.exists_foldlM_eq hdigits 0
    have hread : Hex.read? digits = some n := hn
    have htext : MessageId.ofText? (String.ofList digits) = some (.ofValue n) := by
      rw [MessageId.ofText?, String.toList_ofList, if_pos (show _ = MessageId.width from hlen),
        hread, Option.map_some]
    refine ⟨.ofValue n, ?_⟩
    rw [MessageId.ofText?_eq_some_iff.mp htext]
    rfl
  · rintro ⟨id, rfl⟩
    exact isNumbered_fileName id

theorem ofFileName?_eq_none_iff
    {name : String} :
    MessageId.ofFileName? name = none ↔ ¬IsNumbered name := by
  rw [isNumbered_iff, Option.eq_none_iff_forall_ne_some]
  simp only [ne_eq, MessageId.ofFileName?_eq_some_iff, not_exists]

/-! ## The arrangement -/

/-- An arrangement with the oldest first: the identifiers of messages named by one, and the names of
the others. -/
structure OldestFirst (ids : List MessageId) (others : List String) : Prop where
  ids_increase : ids.Pairwise fun a b => a.value < b.value
  others_increase : others.Pairwise fun a b => Bytes.ofText a < Bytes.ofText b
  not_isNumbered : ∀ name ∈ others, ¬IsNumbered name

/-- The names in an arrangement. -/
def arranged (ids : List MessageId) (others : List String) : List String :=
  ids.map MessageId.fileName ++ others

theorem isUpTo_of_not_isNumbered
    {a b : String} (ha : ¬IsNumbered a) (hb : ¬IsNumbered b) :
    isUpTo a b = decide (a ≤ b) := by
  rw [isUpTo, ofFileName?_eq_none_iff.mpr ha, ofFileName?_eq_none_iff.mpr hb]

theorem isUpTo_fileName_of_not_isNumbered
    {name : String} (h : ¬IsNumbered name) (id : MessageId) :
    isUpTo id.fileName name = true ∧ isUpTo name id.fileName = false := by
  rw [isUpTo, isUpTo, MessageId.ofFileName?_fileName, ofFileName?_eq_none_iff.mpr h]
  exact ⟨rfl, rfl⟩

section Arrangements

variable {ids : List MessageId} {others names : List String}

/-- The names made from the identifiers increase as well. -/
theorem OldestFirst.fileNames_increase
    (h : OldestFirst ids others) :
    ids.Pairwise fun a b => Bytes.ofText a.fileName < Bytes.ofText b.fileName :=
  h.ids_increase.imp fun hlt => Bytes.ofText_lt_ofText_iff.mpr (MessageId.fileName_lt_fileName hlt)

theorem OldestFirst.pairwise_isUpTo
    (h : OldestFirst ids others) :
    (arranged ids others).Pairwise fun a b => isUpTo a b = true := by
  refine List.pairwise_append.mpr ⟨?_, ?_, ?_⟩
  · rw [List.pairwise_map]
    refine h.ids_increase.imp fun hlt => ?_
    rw [isUpTo_fileName]
    exact decide_eq_true (Nat.le_of_lt hlt)
  · refine h.others_increase.imp_of_mem fun {a b} ha hb hlt => ?_
    rw [isUpTo_of_not_isNumbered (h.not_isNumbered a ha) (h.not_isNumbered b hb)]
    exact decide_eq_true (le_of_lt (Bytes.ofText_lt_ofText_iff.mp hlt))
  · intro a ha b hb
    obtain ⟨id, -, rfl⟩ := List.mem_map.mp ha
    exact (isUpTo_fileName_of_not_isNumbered (h.not_isNumbered b hb) id).1

theorem OldestFirst.nodup
    (h : OldestFirst ids others) :
    (arranged ids others).Nodup := by
  refine List.nodup_append.mpr ⟨?_, ?_, ?_⟩
  · refine List.Nodup.map MessageId.fileName_injective (h.ids_increase.imp fun hlt heq => ?_)
    rw [heq] at hlt
    exact Nat.lt_irrefl _ hlt
  · refine h.others_increase.imp fun hlt heq => ?_
    rw [heq] at hlt
    exact List.lt_irrefl _ hlt
  · rintro a ha b hb rfl
    obtain ⟨id, -, rfl⟩ := List.mem_map.mp ha
    exact h.not_isNumbered _ hb (isNumbered_fileName id)

/-- Names sorted oldest first, none of them twice, are in the arrangement. -/
theorem exists_oldestFirst
    (hsorted : names.Pairwise fun a b => isUpTo a b = true) (hnodup : names.Nodup) :
    ∃ ids others, names = arranged ids others ∧ OldestFirst ids others := by
  induction names with
  | nil => exact ⟨[], [], rfl, .nil, .nil, fun _ hmem => absurd hmem List.not_mem_nil⟩
  | cons name rest ih =>
      obtain ⟨hfirst, hrest⟩ := List.pairwise_cons.mp hsorted
      obtain ⟨hnew, hnodup⟩ := List.nodup_cons.mp hnodup
      obtain ⟨ids, others, rfl, horder⟩ := ih hrest hnodup
      by_cases hnumbered : IsNumbered name
      · obtain ⟨id, rfl⟩ := isNumbered_iff.mp hnumbered
        refine ⟨id :: ids, others, rfl, ?_, horder.others_increase, horder.not_isNumbered⟩
        refine List.pairwise_cons.mpr ⟨fun other hother => ?_, horder.ids_increase⟩
        have hmem : other.fileName ∈ arranged ids others :=
          List.mem_append_left _ (List.mem_map_of_mem hother)
        have hle := hfirst _ hmem
        rw [isUpTo_fileName, decide_eq_true_eq] at hle
        refine Nat.lt_of_le_of_ne hle fun heq => hnew ?_
        rwa [MessageId.value_injective heq]
      · -- No identifier can come after a name that is not made from one.
        cases ids with
        | cons id ids =>
            have hafter := hfirst id.fileName (List.mem_cons_self)
            rw [(isUpTo_fileName_of_not_isNumbered hnumbered id).2] at hafter
            cases hafter
        | nil =>
            refine ⟨[], name :: others, rfl, .nil, ?_, ?_⟩
            · refine List.pairwise_cons.mpr ⟨fun other hother => ?_, horder.others_increase⟩
              have hle := hfirst other hother
              rw [isUpTo_of_not_isNumbered hnumbered (horder.not_isNumbered other hother),
                decide_eq_true_eq] at hle
              refine Bytes.ofText_lt_ofText_iff.mpr (lt_of_le_of_ne hle ?_)
              rintro rfl
              exact hnew hother
            · exact List.forall_mem_cons.mpr ⟨hnumbered, horder.not_isNumbered⟩

/-- The identifiers can be read off the names. -/
theorem OldestFirst.filterMap_arranged
    (h : OldestFirst ids others) :
    (arranged ids others).filterMap MessageId.ofFileName? = ids := by
  have hids : MessageId.ofFileName? ∘ MessageId.fileName = some := by
    funext id
    rw [Function.comp_apply, MessageId.ofFileName?_fileName]
  have hothers : others.filterMap MessageId.ofFileName? = [] :=
    List.filterMap_eq_nil_iff.mpr fun name hname =>
      ofFileName?_eq_none_iff.mpr (h.not_isNumbered name hname)
  rw [arranged, List.filterMap_append, List.filterMap_map, hids, List.filterMap_some, hothers,
    List.append_nil]

/-- The same names cannot be arranged in another way. -/
theorem OldestFirst.unique
    {ids' : List MessageId} {others' : List String} (h : OldestFirst ids others)
    (h' : OldestFirst ids' others')
    (hsame : ∀ name, name ∈ arranged ids' others' ↔ name ∈ arranged ids others) :
    ids' = ids ∧ others' = others := by
  have hperm : (arranged ids' others').Perm (arranged ids others) :=
    (List.perm_ext_iff_of_nodup h'.nodup h.nodup).mpr hsame
  have heq : arranged ids' others' = arranged ids others :=
    List.Perm.eq_of_pairwise (fun _ _ _ _ => isUpTo_antisymm) h'.pairwise_isUpTo
      h.pairwise_isUpTo hperm
  have hids : ids' = ids := by
    rw [← h'.filterMap_arranged, heq, h.filterMap_arranged]
  rw [hids] at heq
  exact ⟨hids, List.append_cancel_left heq⟩

end Arrangements

end MessageName

/-! ## What a mailbox announces -/

namespace Mailbox

open MessageName (arranged OldestFirst)

/-- What a mailbox announces, in whatever order its directory is listed. -/
structure Announces (mailbox : Mailbox) (world : World) (home : Location) (ids : List MessageId)
    (others : List String) : Prop where
  oldestFirst : OldestFirst ids others
  fileNames_increase : ids.Pairwise fun a b => Bytes.ofText a.fileName < Bytes.ofText b.fileName
  /-- The messages are the regular files with visible names.  One whose path is too long is not
  seen. -/
  mem_iff : ∀ name, name ∈ arranged ids others ↔ MessageName.isVisible name = true ∧
    (∃ content, world.tree.child? home name = some (.file content)) ∧ Fits (mailbox.entry name)
  unique : ∀ {ids' others'}, OldestFirst ids' others' →
    (∀ name, name ∈ arranged ids' others' ↔ name ∈ arranged ids others) →
      ids' = ids ∧ others' = others
  nodup : ((arranged ids others).map mailbox.entry).Nodup
  pending_oldest_eq : ∀ scan, Action.outcome (mailbox.pending .oldest) { world with scan } =
    (.ok ((arranged ids others).map mailbox.entry), { world with scan })
  pending_listing_perm : ∀ scan, ∃ paths,
    Action.outcome (mailbox.pending .listing) { world with scan } =
        (.ok paths, { world with scan }) ∧
      paths.Perm ((arranged ids others).map mailbox.entry)

section Announcement

variable {mailbox : Mailbox} {world : World} {home : Location}

/-- Whatever the order, the same messages are announced. -/
theorem Opens.candidates_perm
    (h : mailbox.Opens world home) (hsound : world.tree.Sound) (scan : Scan)
    (order : ReceiveOrder) :
    (mailbox.candidates { world with scan } home order).Perm
      (mailbox.candidates world home .oldest) := by
  have hscan : mailbox.Opens { world with scan } home := h.of_sameDirectories rfl (.refl _)
  refine (List.perm_ext_iff_of_nodup (nodup_candidates ..) (nodup_candidates ..)).mpr fun name => ?_
  rw [hscan.mem_candidates_iff hsound, h.mem_candidates_iff hsound]

/-- There is one list of messages with the oldest first, and all listings give the same messages. -/
theorem pending_is_canonical
    (hsound : world.tree.Sound) (hopens : mailbox.Opens world home) :
    ∃ ids others, mailbox.Announces world home ids others := by
  obtain ⟨ids, others, hnames, horder⟩ := MessageName.exists_oldestFirst
    (pairwise_candidates_oldest mailbox world home) (nodup_candidates mailbox world home .oldest)
  refine ⟨ids, others, horder, horder.fileNames_increase, fun name => ?_, horder.unique, ?_,
    fun scan => ?_, fun scan => ?_⟩
  · rw [← hnames, hopens.mem_candidates_iff hsound]
    simp only [Tree.message?_eq_some_iff, exists_and_left, and_assoc]
  · rw [← hnames]
    exact hopens.nodup_paths hsound .oldest
  · have hscan : mailbox.Opens { world with scan } home := hopens.of_sameDirectories rfl (.refl _)
    rw [hscan.outcome_pending, hscan.candidates_oldest_congr hsound hopens hsound fun _ => rfl,
      hnames]
  · have hscan : mailbox.Opens { world with scan } home := hopens.of_sameDirectories rfl (.refl _)
    refine ⟨_, hscan.outcome_pending .listing, ?_⟩
    rw [← hnames]
    exact (hopens.candidates_perm hsound scan .listing).map mailbox.entry

/-- A message named by an identifier comes before one that is not. -/
theorem pending_is_canonical_of_two :
    let before := World.blank.withTree ((Tree.empty.write [] "0.eml" []).write []
      (MessageId.fileName ⟨1, 2⟩) [])
    before.tree.Sound ∧ here.Opens before [] ∧ here.Announces before [] [⟨1, 2⟩] ["0.eml"] := by
  intro before
  have hne : MessageId.fileName ⟨1, 2⟩ ≠ "0.eml" := by decide
  have hsound : ((Tree.empty.write [] "0.eml" []).write [] (MessageId.fileName ⟨1, 2⟩) []).Sound :=
    (Tree.sound_empty.write rfl (by decide) (by decide) (by simp)).write rfl
      (MessageId.isPlain_fileName _) (by rw [MessageId.length_ofText_fileName]; decide)
      (by rw [Tree.child?_write, if_neg hne, Tree.child?_empty]; simp)
  have hopens : here.Opens before [] := opens_here rfl
  obtain ⟨ids, others, h⟩ := pending_is_canonical hsound hopens
  have horder : OldestFirst [⟨1, 2⟩] ["0.eml"] :=
    ⟨List.pairwise_singleton _ _, List.pairwise_singleton _ _, fun name hname => by
      rw [List.mem_singleton.mp hname, ← MessageName.ofFileName?_eq_none_iff]
      decide⟩
  have hsame : ∀ name, name ∈ arranged [⟨1, 2⟩] ["0.eml"] ↔ name ∈ arranged ids others := by
    intro name
    have hentry : before.tree.child? [] name = if name = MessageId.fileName ⟨1, 2⟩ then
        some (.file []) else if name = "0.eml" then some (.file []) else none := by
      rw [World.tree_withTree, Tree.child?_write, Tree.child?_write, Tree.child?_empty]
    rw [h.mem_iff, hentry]
    simp only [arranged, List.map_singleton, List.singleton_append, List.mem_cons,
      List.not_mem_nil, or_false]
    constructor
    · rintro (rfl | rfl)
      · exact ⟨MessageName.isVisible_fileName _, ⟨[], if_pos rfl⟩,
          fits_of_length (MessageId.isPlain_fileName _)
            (by rw [MessageId.length_ofText_fileName]; decide)⟩
      · exact ⟨by decide, ⟨[], rfl⟩, by decide⟩
    · rintro ⟨-, ⟨content, hfile⟩, -⟩
      by_contra hother
      rw [not_or] at hother
      rw [if_neg hother.1, if_neg hother.2] at hfile
      cases hfile
  obtain ⟨rfl, rfl⟩ := h.unique horder hsame
  exact ⟨hsound, hopens, h⟩

/-- A file with a visible name is not announced if its path is too long. -/
theorem long_path_not_announced :
    let world := World.blank.withTree ((Tree.lone 0x62).write [[0x62]] "m.eml" (Bytes.ofText "hi"))
    let mailbox : Mailbox := ⟨Path.stretched 4089 0x62⟩
    world.tree.Sound ∧ mailbox.Opens world [[0x62]] ∧
      world.tree.child? [[0x62]] "m.eml" = some (.file (Bytes.ofText "hi")) ∧
      MessageName.isVisible "m.eml" = true ∧
      Action.outcome (mailbox.pending .oldest) world = (.ok [], world) := by
  intro world mailbox
  have hb : Name.IsPlain [0x62] := by decide
  have hplain : Name.IsPlain (Bytes.ofText "m.eml") := by decide
  have hvisible : MessageName.isVisible "m.eml" = true := by decide
  have hhome : world.tree.get? [[0x62]] = some .directory :=
    (Tree.sameDirectories_write (by simp) [[0x62]]).mp (Tree.get?_lone 0x62)
  have hsound : world.tree.Sound :=
    (Tree.sound_lone hb).write (Tree.get?_lone 0x62) hplain (by decide) (by simp)
  have hopens : mailbox.Opens world [[0x62]] := opens_stretched hb (by decide) rfl hhome
  have hfile : world.tree.child? [[0x62]] "m.eml" = some (.file (Bytes.ofText "hi")) := by
    simp [world]
  have hlong : ¬Fits (mailbox.entry "m.eml") :=
    not_fits_of_length hplain (by rw [Path.length_stretched]; decide)
  have hnone : mailbox.candidates world [[0x62]] .oldest = [] := by
    refine List.eq_nil_iff_forall_not_mem.mpr fun name hmem => ?_
    obtain ⟨⟨content, hmessage⟩, hfits⟩ := (hopens.mem_candidates_iff hsound).mp hmem
    rw [World.tree_withTree, Tree.message?_write hvisible, Tree.message?_lone] at hmessage
    split at hmessage
    · rename_i heq
      rw [heq] at hfits
      exact hlong hfits
    · cases hmessage
  refine ⟨hsound, hopens, hfile, hvisible, ?_⟩
  rw [hopens.outcome_pending, hnone]
  rfl

end Announcement

end Mailbox

end Postbox
