import Postbox.Proofs.Ascents
import Postbox.Proofs.Receipts

/-!
# Paths that are long for no reason

Slashes can be repeated, so a directory has paths of any length.  Where they stand decides which of
the paths that a mailbox makes are as long.
-/

namespace Postbox

namespace Path

/-- A path with many slashes before its last component. -/
def stretched (n : Nat) (b : UInt8) : Path :=
  ⟨(dot :: List.replicate (n + 1) slash) ++ [b]⟩

/-- A path with many slashes at its end. -/
def trailed (n : Nat) (b : UInt8) : Path :=
  ⟨b :: List.replicate (n + 1) slash⟩

section Slashes

variable {n : Nat} {b : UInt8}

theorem significant_append_replicate (bytes : Bytes) (n : Nat) :
    significant (bytes ++ List.replicate n slash) = significant bytes := by
  induction n with
  | zero => simp
  | succ n ih =>
      rw [List.replicate_succ', ← List.append_assoc, significant_append_slash, ih,
        significant_nil, List.append_nil]

theorem sameWay_stretched
    (hb : Name.IsPlain [b]) :
    SameWay (stretched n b) ⟨[b]⟩ where
  isAbsolute_eq := hb.isAbsolute_eq ▸ rfl
  significant_eq := by
    rw [stretched, List.replicate_succ', ← List.cons_append, List.append_assoc,
      List.singleton_append, significant_append_slash]
    have hfront := significant_append_replicate [dot] n
    rw [List.singleton_append, significant_dot] at hfront
    rw [hfront, List.nil_append]

theorem sameWay_trailed :
    SameWay (trailed n b) ⟨[b]⟩ where
  isAbsolute_eq := rfl
  significant_eq := significant_append_replicate [b] (n + 1)

/-- Slashes before the last component are part of the parent of an entry. -/
theorem parent?_child_stretched
    (hb : Name.IsPlain [b]) {name : Name} (hname : Name.IsPlain name) :
    ((stretched n b).child name).parent? = some (stretched n b) := by
  obtain ⟨parent, hparent, hway, hpre⟩ := (stretched n b).parent?_child hname
  have hsignificant := hway.significant_eq.trans (sameWay_stretched hb).significant_eq
  rw [stretched, List.prefix_concat_iff] at hpre
  rcases hpre with heq | hpre
  · rw [hparent, show parent = stretched n b from congrArg Path.mk heq]
  · exfalso
    have hnil : significant parent.bytes = [] := by
      rcases List.prefix_cons_iff.mp hpre with hnil | ⟨rest, hparentBytes, hrest⟩
      · rw [hnil, significant_nil]
      · rw [hparentBytes, (List.prefix_replicate_iff.mp hrest).2, ← List.singleton_append,
          significant_append_replicate, significant_dot]
    rw [hnil, (isComponent_of_isPlain hb).significant_eq] at hsignificant
    cases hsignificant

theorem withFileName_child_stretched
    (hb : Name.IsPlain [b]) {name : Name} (hname : Name.IsPlain name) (other : Name) :
    ((stretched n b).child name).withFileName other = (stretched n b).child other := by
  rw [withFileName, (stretched n b).fileName?_child hname, parent?_child_stretched hb hname]

theorem trimBody_append_replicate
    (hb : Name.IsPlain [b]) (n : Nat) :
    trimBody (b :: List.replicate n slash) = [b] := by
  induction n with
  | zero =>
      apply trimBody_of_not_isIdle
      rw [List.replicate_zero, lastSegment_of_notMem hb.slash_notMem, hb.isIdle_eq]
  | succ n ih =>
      rw [List.replicate_succ', ← List.cons_append, trimBody, dif_neg (by simp),
        lastSegment_append_slash _ List.not_mem_nil, if_pos (show isIdle [] = true from rfl),
        beforeLast_append_slash _ List.not_mem_nil, ih]

/-- Above a single name is the empty path, whatever slashes stand behind the name. -/
theorem parent?_trailed
    (hb : Name.IsPlain [b]) (hdot : b ≠ dot) :
    (trailed n b).parent? = some ⟨[]⟩ := by
  have hslash : b ≠ slash := fun heq => hb.slash_notMem (heq ▸ List.mem_singleton_self b)
  have hlead : (trailed n b).lead = [] := by
    simp [lead, isAbsolute, trailed, hslash, hdot.symm]
  have htrim : trimBody (trailed n b).body = [b] := by
    rw [body, hlead, List.length_nil, List.drop_zero, trailed, trimBody_append_replicate hb]
  have hnil : trimBody (beforeLast [b]) = [] := by
    rw [beforeLast_of_notMem hb.slash_notMem, trimBody, dif_pos rfl]
  simp [parent?, htrim, hlead, hnil]

/-- A path that ends in a slash needs no other one before the name of an entry. -/
theorem child_trailed
    {name : Name} (hname : Name.IsPlain name) :
    (trailed n b).child name = ⟨(trailed n b).bytes ++ name⟩ := by
  have hlast : (b :: List.replicate (n + 1) slash).getLast? = some slash := by
    rw [List.replicate_succ', ← List.cons_append, List.getLast?_concat]
  rw [child, join, hname.isAbsolute_eq, if_neg Bool.false_ne_true, trailed, if_pos (.inr hlast)]

/-- Slashes at the end are not part of the parent of an entry. -/
theorem withFileName_child_trailed
    (hb : Name.IsPlain [b]) (hdot : b ≠ dot) {name : Name} (hname : Name.IsPlain name)
    (other : Name) :
    ((trailed n b).child name).withFileName other = Path.child ⟨[b]⟩ other := by
  have hchild : (trailed n b).child name = ⟨b :: List.replicate n slash ++ slash :: name⟩ := by
    rw [child_trailed hname, trailed, List.replicate_succ', ← List.cons_append, List.append_assoc,
      List.singleton_append]
  have hb' : b ≠ slash := fun heq => hb.slash_notMem (heq ▸ List.mem_singleton_self b)
  have hlead : ((trailed n b).child name).lead = [] := by
    rw [hchild, lead, isAbsolute]
    simp [hb', hdot.symm]
  have hbody : ((trailed n b).child name).body = b :: List.replicate n slash ++ slash :: name := by
    rw [body, hlead, hchild]
    rfl
  have hparent : ((trailed n b).child name).parent? = some ⟨[b]⟩ := by
    have htrim := ((trailed n b).trimBody_child hname).1
    rw [parent?, htrim, hbody, beforeLast_append_slash _ hname.slash_notMem,
      trimBody_append_replicate hb, hlead]
    simp
  rw [withFileName, (trailed n b).fileName?_child hname, hparent]

theorem length_stretched (n : Nat) (b : UInt8) :
    (stretched n b).bytes.length = n + 3 := by
  simp [stretched]

theorem length_trailed (n : Nat) (b : UInt8) :
    (trailed n b).bytes.length = n + 2 := by
  simp [trailed]

theorem fault?_stretched
    (hb : Name.IsPlain [b]) (hlen : n + 3 ≤ maxLength) :
    (stretched n b).fault? = none := by
  have hzero : b ≠ 0 := fun heq => hb.zero_notMem (heq ▸ List.mem_singleton_self b)
  have hnotMem : (0 : UInt8) ∉ (stretched n b).bytes := by
    simp [stretched, List.mem_replicate, hzero.symm, show (0 : UInt8) ≠ dot by decide,
      show (0 : UInt8) ≠ slash by decide]
  have hshort : ¬maxLength < (stretched n b).bytes.length := by
    rw [length_stretched]
    omega
  rw [fault?, if_neg (by simpa using hnotMem), if_neg (by simp [stretched]), if_neg hshort]

theorem fault?_trailed
    (hb : Name.IsPlain [b]) (hlen : n + 2 ≤ maxLength) :
    (trailed n b).fault? = none := by
  have hzero : b ≠ 0 := fun heq => hb.zero_notMem (heq ▸ List.mem_singleton_self b)
  have hnotMem : (0 : UInt8) ∉ (trailed n b).bytes := by
    simp [trailed, List.mem_replicate, hzero.symm, show (0 : UInt8) ≠ slash by decide]
  have hshort : ¬maxLength < (trailed n b).bytes.length := by
    rw [length_trailed]
    omega
  rw [fault?, if_neg (by simpa using hnotMem), if_neg (by simp [trailed]), if_neg hshort]

end Slashes

end Path

namespace Tree

/-- The tree that has one directory with a name of one byte, and nothing in it. -/
def lone (b : UInt8) : Tree :=
  empty.put [[b]] .directory

section Lone

variable {b : UInt8}

theorem get?_lone (b : UInt8) :
    (lone b).get? [[b]] = some .directory := by
  rw [lone, get?_put _ _ _ (by simp), if_pos rfl]

theorem sound_lone
    (hb : Name.IsPlain [b]) :
    (lone b).Sound := by
  have hfree : empty.get? ([] ++ [[b]]) ≠ some .directory := by simp [get?, empty]
  exact sound_empty.put .directory rfl hb (by simp [Path.maxName]) hfree

@[simp] theorem child?_lone (b : UInt8) (name : String) :
    (lone b).child? [[b]] name = none := by
  rw [lone, child?, get?_put _ _ _ (by simp), if_neg (by simp)]
  simp [get?, empty]

@[simp] theorem message?_lone (b : UInt8) (name : String) :
    (lone b).message? [[b]] name = none := by
  simp [message?]

theorem names_write_lone (b : UInt8) (name : String) (content : Bytes) :
    ((lone b).write [[b]] name content).names [[b]] = [Bytes.ofText name] := by
  refine List.perm_singleton.mp ((List.perm_ext_iff_of_nodup (nodup_names ..)
    (List.nodup_singleton _)).mpr fun other => ?_)
  rw [mem_names, write, lone, get?_put _ _ _ place_ne_nil, get?_put _ _ _ (by simp),
    List.mem_singleton]
  by_cases heq : other = Bytes.ofText name
  · simp [heq]
  · simp [heq, get?, empty]

/-- The tree that has one directory with a name of one byte, an empty directory in it, and nothing
else. -/
def nested (b : UInt8) (name : String) : Tree :=
  (lone b).put ([[b]] ++ [Bytes.ofText name]) .directory

section Nested

variable {name : String}

theorem get?_nested (b : UInt8) (name : String) :
    (nested b name).get? [[b]] = some .directory := by
  rw [nested, get?_put _ _ _ place_ne_nil, if_neg (by simp), get?_lone]

theorem child?_nested (b : UInt8) (name : String) :
    (nested b name).child? [[b]] name = some .directory := by
  rw [nested, child?, get?_put _ _ _ place_ne_nil, if_pos rfl]

theorem child?_nested_of_ne
    {other : String} (hne : other ≠ name) :
    (nested b name).child? [[b]] other = none := by
  rw [nested, child?, get?_put _ _ _ place_ne_nil, if_neg (mt place_inj.mp hne)]
  exact child?_lone b other

theorem names_nested (b : UInt8) (name : String) :
    (nested b name).names ([[b]] ++ [Bytes.ofText name]) = [] := by
  apply List.eq_nil_iff_forall_not_mem.mpr
  intro other
  rw [mem_names, not_not, nested, get?_put _ _ _ place_ne_nil, if_neg (by simp), lone,
    get?_put _ _ _ (by simp), if_neg (by simp)]
  simp [get?, empty]

theorem sound_nested
    (hb : Name.IsPlain [b]) (hname : Name.IsPlain (Bytes.ofText name))
    (hlen : (Bytes.ofText name).length ≤ Path.maxName) :
    (nested b name).Sound := by
  have hfree : (lone b).get? ([[b]] ++ [Bytes.ofText name]) ≠ some .directory := by
    rw [show (lone b).get? ([[b]] ++ [Bytes.ofText name]) = none from child?_lone b name]
    simp
  exact (sound_lone hb).put .directory (get?_lone b) hname hlen hfree

end Nested

end Lone

end Tree

namespace Mailbox

section Opening

variable {mailbox : Mailbox} {world : World} {home : Location} {b : UInt8}

theorem opens_name
    {name : Name} (hname : Name.IsPlain name) (hlen : name.length ≤ Path.maxName)
    (hcwd : world.tree.get? world.cwd = some .directory)
    (hhome : world.tree.get? (world.cwd ++ [name]) = some .directory) :
    Opens ⟨⟨name⟩⟩ world (world.cwd ++ [name]) := by
  refine ⟨?_, hhome⟩
  have hfault : (⟨name⟩ : Path).fault? = none := by
    have hshort : ¬Path.maxLength < name.length :=
      Nat.not_lt.mpr (Nat.le_trans hlen (by decide))
    rw [Path.fault?, if_neg (by simpa using hname.zero_notMem), if_neg hname.ne_nil,
      if_neg hshort]
  have hstart : Tree.start world.cwd ⟨name⟩ = world.cwd := by
    rw [Tree.start, hname.isAbsolute_eq, if_neg Bool.false_ne_true]
  have hmoves : (⟨name⟩ : Path).moves = [.down name] := by
    rw [Path.moves, Path.segments_of_notMem hname.slash_notMem, List.map_singleton,
      hname.ofSegment_eq]
  rw [Tree.locate, hfault, hstart, hmoves]
  simp only [Tree.follow_down hcwd hlen, hhome]
  rfl

theorem Opens.of_sameWay
    {other : Path} (h : Opens ⟨other⟩ world home) (hway : mailbox.dir.SameWay other)
    (hfault : mailbox.dir.fault? = none) :
    mailbox.Opens world home :=
  opens_of_enter hfault (Tree.enter_of_sameWay hway h.enter_eq)

theorem opens_stretched
    {n : Nat} (hb : Name.IsPlain [b]) (hn : n + 3 ≤ Path.maxLength)
    (hcwd : world.cwd = []) (hhome : world.tree.get? [[b]] = some .directory) :
    Opens ⟨Path.stretched n b⟩ world [[b]] := by
  have hshort : Opens ⟨⟨[b]⟩⟩ world (world.cwd ++ [[b]]) :=
    opens_name hb (by simp [Path.maxName]) (by rw [hcwd]; rfl) (by rw [hcwd]; exact hhome)
  rw [hcwd] at hshort
  exact hshort.of_sameWay (Path.sameWay_stretched hb) (Path.fault?_stretched hb hn)

theorem opens_trailed
    {n : Nat} (hb : Name.IsPlain [b]) (hn : n + 2 ≤ Path.maxLength)
    (hcwd : world.cwd = []) (hhome : world.tree.get? [[b]] = some .directory) :
    Opens ⟨Path.trailed n b⟩ world [[b]] := by
  have hshort : Opens ⟨⟨[b]⟩⟩ world (world.cwd ++ [[b]]) :=
    opens_name hb (by simp [Path.maxName]) (by rw [hcwd]; rfl) (by rw [hcwd]; exact hhome)
  rw [hcwd] at hshort
  exact hshort.of_sameWay Path.sameWay_trailed (Path.fault?_trailed hb hn)

/-- A path is too long when that of the directory and the name are, together. -/
theorem not_fits_of_length
    {name : String} (hname : Name.IsPlain (Bytes.ofText name))
    (hlen : Path.maxLength < mailbox.dir.bytes.length + (Bytes.ofText name).length) :
    ¬Fits (mailbox.entry name) :=
  Nat.not_le.mpr (Nat.lt_of_lt_of_le hlen (Path.le_length_child _ hname))

/-- The path of a directory in a mailbox is that of a mailbox too. -/
theorem Opens.opens_entry
    (h : mailbox.Opens world home) {name : String} (hname : mailbox.Admits name)
    (hdir : world.tree.child? home name = some .directory) :
    Opens ⟨mailbox.entry name⟩ world (home ++ [Bytes.ofText name]) :=
  ⟨(h.designates hname).locate_of_some hdir, hdir⟩

/-- The neighbours of a directory have paths that are as long. -/
theorem ofRecipient_entry_stretched
    {n : Nat} (hb : Name.IsPlain [b]) {name recipient : String}
    (hname : Name.IsPlain (Bytes.ofText name)) (hvalid : isValidRecipient recipient = true) :
    ofRecipient ((Path.stretched n b).child (Bytes.ofText name)) recipient =
      .ok ⟨(Path.stretched n b).child (Bytes.ofText recipient)⟩ := by
  have hne : (Path.stretched n b).bytes ≠ [] := by simp [Path.stretched]
  rw [ofRecipient, if_pos hvalid, directoryAround, Path.parent?_child_stretched hb hname,
    (Path.stretched n b).fileName?_child hname]
  simp only [if_neg hne]

end Opening

end Mailbox

end Postbox
