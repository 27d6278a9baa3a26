import Postbox.Proofs.LongPaths
import Postbox.Proofs.Neighbours

/-!
# The mailbox of a recipient is a sibling

However the path of a directory is written, the path that is made for a recipient names the entry of
that name in the directory around it, and nothing else.  The one thing that can go wrong is that the
system refuses a path for its length.
-/

namespace Postbox

namespace Path

/-- A byte of a path other than a slash stands in one of its stretches. -/
theorem exists_mem_segments
    {bytes : Bytes} {b : UInt8} (hb : b ≠ slash) (h : b ∈ bytes) :
    ∃ segment ∈ segments bytes, b ∈ segment := by
  induction hlen : bytes.length using Nat.strongRecOn generalizing bytes with
  | ind n ih =>
      by_cases hslash : slash ∈ bytes
      · obtain ⟨front, back, rfl, hfront⟩ := List.eq_append_cons_of_mem hslash
        rw [segments_append_slash, segments_of_notMem hfront, List.singleton_append]
        rcases List.mem_append.mp h with hmem | hmem
        · exact ⟨front, List.mem_cons_self, hmem⟩
        · have hback := (List.mem_cons.mp hmem).resolve_left hb
          obtain ⟨segment, hsegment, hbyte⟩ := ih back.length (by simp [← hlen]; omega) hback rfl
          exact ⟨segment, List.mem_cons_of_mem _ hsegment, hbyte⟩
      · exact ⟨bytes, by rw [segments_of_notMem hslash]; exact List.mem_singleton_self _, h⟩

end Path

namespace Tree

variable {tree : Tree} {cwd place found home : Location} {path : Path}

/-- Components that lead somewhere are names of entries or `..`, and hold no zero byte. -/
theorem Sound.zero_notMem_of_reach
    (h : tree.Sound) {segments : List Bytes}
    (hsegments : ∀ segment ∈ segments, Path.IsComponent segment)
    (hreach : tree.reach place segments = .ok found) :
    ∀ segment ∈ segments, (0 : UInt8) ∉ segment := by
  induction segments using List.reverseRecOn generalizing found with
  | nil => exact fun segment hmem => absurd hmem List.not_mem_nil
  | append_singleton front last ih =>
      obtain ⟨middle, hfront, hmove, hfound⟩ := reach_concat_eq_ok_iff.mp hreach
      intro segment hmem
      rcases List.mem_append.mp hmem with hmem | hmem
      · exact ih (fun other hother => hsegments other (List.mem_append_left _ hother)) hfront
          segment hmem
      · obtain rfl := List.mem_singleton.mp hmem
        rcases move_cases (hsegments segment (List.mem_append_right _ hmem)) hmove with
          ⟨rfl, -⟩ | ⟨-, rfl⟩
        · decide
        · have hsome : tree.get? (middle ++ [segment]) ≠ none := by simp [hfound]
          exact (h.plain hsome (List.mem_append_right _ hmem)).zero_notMem

theorem Sound.zero_notMem_of_enter
    (h : tree.Sound) (henter : tree.enter cwd path = .ok home) :
    (0 : UInt8) ∉ path.bytes := by
  intro hzero
  obtain ⟨segment, hmem, hbyte⟩ := Path.exists_mem_segments (by decide) hzero
  have hidle : Path.isIdle segment = false := by
    cases hsegment : Path.isIdle segment with
    | false => rfl
    | true =>
        simp only [Path.isIdle, Bool.or_eq_true, beq_iff_eq] at hsegment
        rcases hsegment with rfl | rfl
        · exact absurd hbyte List.not_mem_nil
        · exact absurd hbyte (by decide)
  rw [enter_eq_reach] at henter
  exact h.zero_notMem_of_reach (fun _ => Path.isComponent_of_mem_significant) henter segment
    (List.mem_filter.mpr ⟨hmem, by simp [hidle]⟩) hbyte

/-- The path names that place, and whoever follows it gets there if something is there, and nowhere
if not. -/
structure LeadsTo (tree : Tree) (cwd : Location) (path : Path) (place : Location) : Prop where
  target_eq : tree.target cwd path = .ok place
  locate_eq_ok_iff : ∀ found, tree.locate cwd path = .ok found ↔
    found = place ∧ tree.get? place ≠ none

theorem Sound.leadsTo
    (h : tree.Sound) (htarget : tree.target cwd path = .ok place) :
    tree.LeadsTo cwd path place := by
  obtain ⟨hfault, moves, dir, name, hmoves, hfollow, hdir, rfl⟩ := exists_of_target_eq_ok htarget
  refine ⟨htarget, fun found => ?_⟩
  have hlocate : tree.locate cwd path = tree.follow dir [.down name] := by
    rw [locate, hfault, hmoves, follow_append, hfollow]
    rfl
  rw [hlocate, follow_cons_eq_ok_iff]
  simp only [move_eq_ok_iff, follow, Except.ok.injEq]
  constructor
  · rintro ⟨next, ⟨-, -, hsome, rfl⟩, rfl⟩
    exact ⟨rfl, hsome⟩
  · rintro ⟨rfl, hsome⟩
    exact ⟨_, ⟨hdir, h.short hsome (List.mem_append_right _ List.mem_cons_self), hsome, rfl⟩, rfl⟩

end Tree

namespace Mailbox

variable {base : Path} {recipient : String} {mailbox : Mailbox}

/-- The name cannot be that of a directory. -/
def IsUnfit (recipient : String) : Prop :=
  recipient = "" ∨ recipient = "." ∨ recipient = ".." ∨ '/' ∈ recipient.toList ∨
    '\x00' ∈ recipient.toList

theorem isValidRecipient_eq_false_iff :
    isValidRecipient recipient = false ↔ IsUnfit recipient := by
  simp only [isValidRecipient, IsUnfit, Bool.and_eq_false_iff, bne_eq_false_iff_eq,
    Bool.not_eq_false', List.contains_eq_mem, decide_eq_true_eq, or_assoc]

/-- The path made for a recipient can be too long, and nothing else is wrong with it. -/
theorem fault?_ofRecipient
    (hbase : (0 : UInt8) ∉ base.bytes) (hmailbox : ofRecipient base recipient = .ok mailbox) :
    mailbox.dir.fault? =
      if Path.maxLength < mailbox.dir.bytes.length then some .nameTooLong else none := by
  obtain ⟨hvalid, rfl⟩ := ofRecipient_eq_ok_iff.mp hmailbox
  exact Path.fault?_child (directoryAround_spec hbase).1 (isPlain_of_isValidRecipient hvalid)

/-- The path for a recipient beside a directory names the entry of that name in the directory around
it, whatever the tree and however the directory's path is written; but a path that is too long is
refused.  There is no path for a name that no directory can have. -/
theorem recipient_is_sibling (base : Path) (recipient : String) :
    (ofRecipient base recipient = .error (.invalidRecipient recipient) ↔ IsUnfit recipient) ∧
      ((∃ mailbox, ofRecipient base recipient = .ok mailbox) ↔ ¬IsUnfit recipient) ∧
      ∀ mailbox, ofRecipient base recipient = .ok mailbox →
        ∀ (tree : Tree) (cwd home : Location), tree.Sound → tree.enter cwd base = .ok home →
          if mailbox.dir.bytes.length ≤ Path.maxLength then
            tree.LeadsTo cwd mailbox.dir (home.dropLast ++ [Bytes.ofText recipient])
          else
            tree.target cwd mailbox.dir = .error .nameTooLong ∧
              tree.locate cwd mailbox.dir = .error .nameTooLong := by
  refine ⟨?_, ?_, fun mailbox hmailbox tree cwd home hsound hbase => ?_⟩
  · rw [← isValidRecipient_eq_false_iff, ofRecipient]
    cases isValidRecipient recipient <;> simp
  · rw [← isValidRecipient_eq_false_iff, ofRecipient]
    cases isValidRecipient recipient <;> simp
  · have hfault := fault?_ofRecipient (hsound.zero_notMem_of_enter hbase) hmailbox
    split
    · rename_i hshort
      rw [if_neg (Nat.not_lt.mpr hshort)] at hfault
      obtain ⟨hvalid, rfl⟩ := ofRecipient_eq_ok_iff.mp hmailbox
      exact hsound.leadsTo (Tree.target_child (hsound.enter_directoryAround hbase)
        (isPlain_of_isValidRecipient hvalid) hfault)
    · rename_i hlong
      rw [if_pos (Nat.lt_of_not_le hlong)] at hfault
      exact ⟨by rw [Tree.target, hfault], by rw [Tree.locate, hfault]⟩

/-- The root is the directory around itself. -/
theorem recipient_is_sibling_of_root :
    let base := Path.ofText "d/.."
    let mailbox : Mailbox := ⟨.ofText "d/../../d"⟩
    let tree := Tree.lone 0x64
    ofRecipient base "d" = .ok mailbox ∧ tree.Sound ∧ tree.enter [] base = .ok [] ∧
      tree.LeadsTo [] mailbox.dir [[0x64]] := by
  intro base mailbox tree
  have hmailbox : ofRecipient base "d" = .ok mailbox := by decide +kernel
  have hsound : tree.Sound := Tree.sound_lone (by decide)
  have hbase : tree.enter [] base = .ok [] := by decide +kernel
  have hleads := (recipient_is_sibling base "d").2.2 mailbox hmailbox tree [] [] hsound hbase
  have hplace : List.dropLast [] ++ [Bytes.ofText "d"] = [[0x64]] := by decide
  rw [if_pos (by decide), hplace] at hleads
  exact ⟨hmailbox, hsound, hbase, hleads⟩

/-- With slashes behind a single name the directory around it is left to the system. -/
theorem directoryAround_trailed
    {n : Nat} {b : UInt8} (hb : Name.IsPlain [b]) (hdot : b ≠ Path.dot) :
    directoryAround (Path.trailed n b) = (Path.trailed n b).child Path.dotdot := by
  rw [directoryAround, Path.parent?_trailed hb hdot]
  split
  · rename_i parent name heq _
    rw [← Option.some.inj heq, if_pos rfl]
    rfl
  · rfl

/-- A directory is its own neighbour, and the path made for that is too long. -/
theorem long_sibling_path_refused :
    let base := Path.trailed 4091 0x64
    let tree := Tree.lone 0x64
    tree.Sound ∧ tree.locate [] base = .ok [[0x64]] ∧ tree.get? [[0x64]] = some .directory ∧
      ∃ mailbox, ofRecipient base "d" = .ok mailbox ∧
        tree.locate [] mailbox.dir = .error .nameTooLong := by
  intro base tree
  have hd : Name.IsPlain [0x64] := by decide
  have htext : Bytes.ofText "d" = [0x64] := by decide
  have hsound : tree.Sound := Tree.sound_lone hd
  have hopens : Opens ⟨base⟩ (World.blank.withTree tree) [[0x64]] :=
    opens_trailed hd (by decide) rfl (Tree.get?_lone 0x64)
  have hmailbox : ofRecipient base "d" = .ok ⟨(base.child Path.dotdot).child [0x64]⟩ :=
    ofRecipient_eq_ok_iff.mpr ⟨by decide, by rw [directoryAround_trailed hd (by decide), htext]⟩
  have hzero : (0 : UInt8) ∉ base.bytes := hsound.zero_notMem_of_enter hopens.enter_eq
  have hfault := fault?_ofRecipient hzero hmailbox
  have hlong : Path.maxLength < ((base.child Path.dotdot).child [0x64]).bytes.length := by
    have hup : base.bytes.length + 2 ≤ (base.child Path.dotdot).bytes.length := by
      rw [Path.child, Path.join, if_neg (by decide)]
      split <;> simp [Path.dotdot]
    have hdown := (base.child Path.dotdot).le_length_child hd
    have hlen : base.bytes.length = 4093 := Path.length_trailed 4091 0x64
    rw [hlen] at hup
    exact Nat.lt_of_lt_of_le (by rw [Path.maxLength, List.length_singleton]; omega) hdown
  rw [if_pos hlong] at hfault
  exact ⟨hsound, hopens.locate_eq, Tree.get?_lone 0x64, _, hmailbox, by rw [Tree.locate, hfault]⟩

end Mailbox

end Postbox
