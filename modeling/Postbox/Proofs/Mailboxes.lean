import Postbox.Mailbox.Receipt
import Postbox.Proofs.Locations
import Postbox.World

/-!
# The directory of a mailbox

What a mailbox holds, seen by the names of its entries, and where the paths lead that a mailbox
makes for them.  All that can go wrong with such a path is that it is too long.
-/

namespace Postbox

namespace Tree

/-- The entry of a directory with a given name. -/
def child? (tree : Tree) (home : Location) (name : String) : Option Entry :=
  tree.get? (home ++ [Bytes.ofText name])

/-- The tree after a file has been written into a directory. -/
def write (tree : Tree) (home : Location) (name : String) (content : Bytes) : Tree :=
  tree.put (home ++ [Bytes.ofText name]) (.file content)

/-- The tree after an entry of a directory has been removed. -/
def unlink (tree : Tree) (home : Location) (name : String) : Tree :=
  tree.erase (home ++ [Bytes.ofText name])

/-- The content of the visible message with a given name. -/
def message? (tree : Tree) (home : Location) (name : String) : Option Bytes :=
  match MessageName.isVisible name, tree.child? home name with
  | true, some (.file content) => some content
  | _, _ => none

/-- The content of the message that is held under the claim on a given name. -/
def claimed? (tree : Tree) (home : Location) (name : String) : Option Bytes :=
  match MessageName.isVisible name, tree.child? home (MessageName.claim name) with
  | true, some (.file content) => some content
  | _, _ => none

section Views

variable {tree : Tree} {home : Location} {name : String} {content : Bytes}

theorem message?_eq_some_iff :
    tree.message? home name = some content ↔
      MessageName.isVisible name = true ∧ tree.child? home name = some (.file content) := by
  unfold message?
  split
  · simp_all
  · simp only [reduceCtorEq, false_iff, not_and]
    intro hvisible hentry
    simp_all

theorem claimed?_eq_some_iff :
    tree.claimed? home name = some content ↔
      MessageName.isVisible name = true ∧
        tree.child? home (MessageName.claim name) = some (.file content) := by
  unfold claimed?
  split
  · simp_all
  · simp only [reduceCtorEq, false_iff, not_and]
    intro hvisible hentry
    simp_all

theorem place_inj
    {a b : String} :
    home ++ [Bytes.ofText a] = home ++ [Bytes.ofText b] ↔ a = b := by
  constructor
  · intro h
    exact Bytes.ofText_injective (by simpa using h)
  · rintro rfl
    rfl

theorem place_eq_iff
    {place : Location} {a b : String} :
    place ++ [Bytes.ofText a] = home ++ [Bytes.ofText b] ↔ place = home ∧ a = b := by
  constructor
  · intro h
    obtain rfl := List.append_inj_left' h rfl
    exact ⟨rfl, place_inj.mp h⟩
  · rintro ⟨rfl, rfl⟩
    rfl

theorem place_ne_nil
    {name : Name} :
    home ++ [name] ≠ [] := by
  simp

@[simp] theorem child?_write (tree : Tree) (home : Location) (target : String) (content : Bytes)
    (name : String) :
    (tree.write home target content).child? home name =
      if name = target then some (.file content) else tree.child? home name := by
  rw [write, child?, get?_put _ _ _ place_ne_nil]
  simp only [place_inj, child?]

/-- Writing a file makes no directory. -/
theorem get?_of_write
    {tree : Tree} {home location : Location} {name : String} {content : Bytes}
    (h : (tree.write home name content).get? location = some .directory) :
    tree.get? location = some .directory := by
  rw [write, get?_put _ _ _ place_ne_nil] at h
  split at h
  · cases h
  · exact h

@[simp] theorem child?_unlink (tree : Tree) (home : Location) (target name : String) :
    (tree.unlink home target).child? home name =
      if name = target then none else tree.child? home name := by
  rw [unlink, child?, get?_erase _ _ place_ne_nil]
  simp only [place_inj, child?]

@[simp] theorem child?_empty (home : Location) (name : String) :
    empty.child? home name = none := by
  unfold child?
  rw [get?, if_neg place_ne_nil]
  simp [empty]

/-- Writing where no directory is leaves the directories as they are. -/
theorem sameDirectories_write
    (hold : tree.child? home name ≠ some .directory) :
    SameDirectories tree (tree.write home name content) := by
  intro other
  rw [write, get?_put _ _ _ place_ne_nil]
  split
  · rename_i heq
    subst heq
    simp [show tree.get? (home ++ [Bytes.ofText name]) ≠ some .directory from hold]
  · rfl

theorem sameDirectories_unlink
    (hold : tree.child? home name ≠ some .directory) :
    SameDirectories tree (tree.unlink home name) := by
  intro other
  rw [unlink, get?_erase _ _ place_ne_nil]
  split
  · rename_i heq
    subst heq
    simp [show tree.get? (home ++ [Bytes.ofText name]) ≠ some .directory from hold]
  · rfl

@[simp] theorem write_write (tree : Tree) (home : Location) (name : String)
    (first second : Bytes) :
    (tree.write home name first).write home name second = tree.write home name second := by
  apply Tree.ext
  intro other
  simp only [write, get?_put _ _ _ place_ne_nil]
  split <;> rfl

@[simp] theorem unlink_write (tree : Tree) (home : Location) (name : String) (content : Bytes) :
    (tree.write home name content).unlink home name = tree.unlink home name := by
  apply Tree.ext
  intro other
  simp only [unlink, write, get?_erase _ _ place_ne_nil, get?_put _ _ _ place_ne_nil]
  split <;> rfl

@[simp] theorem write_unlink (tree : Tree) (home : Location) (name : String) (content : Bytes) :
    (tree.unlink home name).write home name content = tree.write home name content := by
  apply Tree.ext
  intro other
  simp only [unlink, write, get?_erase _ _ place_ne_nil, get?_put _ _ _ place_ne_nil]
  split <;> rfl

theorem unlink_comm (tree : Tree) (home : Location) (a b : String) :
    (tree.unlink home a).unlink home b = (tree.unlink home b).unlink home a := by
  apply Tree.ext
  intro other
  simp only [unlink, get?_erase _ _ place_ne_nil]
  split <;> split <;> rfl

theorem unlink_eq_self
    (hfree : tree.child? home name = none) :
    tree.unlink home name = tree := by
  apply Tree.ext
  intro other
  rw [unlink, get?_erase _ _ place_ne_nil]
  split
  · rename_i heq
    rw [heq]
    exact hfree.symm
  · rfl

theorem write_eq_self
    (hfile : tree.child? home name = some (.file content)) :
    tree.write home name content = tree := by
  apply Tree.ext
  intro other
  rw [write, get?_put _ _ _ place_ne_nil]
  split
  · rename_i heq
    rw [heq]
    exact hfile.symm
  · rfl

theorem Sound.write
    (h : tree.Sound) (hdir : tree.get? home = some .directory)
    (hname : Name.IsPlain (Bytes.ofText name)) (hlen : (Bytes.ofText name).length ≤ Path.maxName)
    (hold : tree.child? home name ≠ some .directory) :
    (tree.write home name content).Sound :=
  h.put (.file content) hdir hname hlen hold

/-- Two files in the root make a sound tree. -/
theorem sound_write_write
    {first second : String} (hfirst : Name.IsPlain (Bytes.ofText first))
    (hfirstLen : (Bytes.ofText first).length ≤ Path.maxName)
    (hsecond : Name.IsPlain (Bytes.ofText second))
    (hsecondLen : (Bytes.ofText second).length ≤ Path.maxName) (content other : Bytes) :
    ((empty.write [] first content).write [] second other).Sound := by
  have hone : (empty.write [] first content).Sound :=
    sound_empty.write (get?_root _) hfirst hfirstLen (by simp)
  apply hone.write (get?_root _) hsecond hsecondLen
  rw [child?_write, child?_empty]
  split <;> simp

theorem Sound.unlink
    (h : tree.Sound) (hold : tree.child? home name ≠ some .directory) :
    (tree.unlink home name).Sound := by
  cases hentry : tree.child? home name with
  | none =>
      rw [unlink_eq_self hentry]
      exact h
  | some entry =>
      cases entry with
      | file content => exact h.erase place_ne_nil (h.get?_below_file hentry)
      | directory => exact absurd hentry hold

theorem Sound.isPlain_of_child?
    (h : tree.Sound) (hentry : tree.child? home name ≠ none) :
    Name.IsPlain (Bytes.ofText name) ∧ (Bytes.ofText name).length ≤ Path.maxName :=
  ⟨h.plain hentry (by simp), h.short hentry (by simp)⟩

/-! What writing and removing do to the messages. -/

@[simp] theorem message?_unlink (tree : Tree) (home : Location) (target name : String) :
    (tree.unlink home target).message? home name =
      if name = target then none else tree.message? home name := by
  unfold message?
  rw [child?_unlink]
  by_cases heq : name = target
  · rw [if_pos heq, if_pos heq]
    split <;> simp_all
  · rw [if_neg heq, if_neg heq]

theorem message?_write
    {target : String} (htarget : MessageName.isVisible target = true) (name : String) :
    (tree.write home target content).message? home name =
      if name = target then some content else tree.message? home name := by
  unfold message?
  rw [child?_write]
  by_cases heq : name = target
  · rw [if_pos heq, if_pos heq, heq, htarget]
  · rw [if_neg heq, if_neg heq]

/-- Entries without a visible name do not matter to the messages. -/
theorem message?_of_hidden
    (hhidden : MessageName.isVisible name = false) :
    tree.message? home name = none := by
  unfold message?
  rw [hhidden]

@[simp] theorem message?_write_of_hidden
    {target : String} (htarget : MessageName.isVisible target = false) (name : String) :
    (tree.write home target content).message? home name = tree.message? home name := by
  by_cases heq : name = target
  · rw [heq, message?_of_hidden htarget, message?_of_hidden htarget]
  · unfold message?
    rw [child?_write, if_neg heq]

@[simp] theorem message?_unlink_of_hidden
    {target : String} (htarget : MessageName.isVisible target = false) (name : String) :
    (tree.unlink home target).message? home name = tree.message? home name := by
  rw [message?_unlink]
  split
  · rename_i heq
    rw [heq, message?_of_hidden htarget]
  · rfl

/-! What writing and removing do to the claims. -/

theorem claimed?_write_of_visible
    {target : String} (htarget : MessageName.isVisible target = true) (name : String) :
    (tree.write home target content).claimed? home name = tree.claimed? home name := by
  unfold claimed?
  rw [child?_write, if_neg (MessageName.ne_claim htarget name).symm]

theorem claimed?_unlink_of_visible
    {target : String} (htarget : MessageName.isVisible target = true) (name : String) :
    (tree.unlink home target).claimed? home name = tree.claimed? home name := by
  unfold claimed?
  rw [child?_unlink, if_neg (MessageName.ne_claim htarget name).symm]

theorem claimed?_write_claim
    {target : String} (htarget : MessageName.isVisible target = true) (name : String) :
    (tree.write home (MessageName.claim target) content).claimed? home name =
      if name = target then some content else tree.claimed? home name := by
  unfold claimed?
  rw [child?_write]
  by_cases heq : name = target
  · rw [if_pos heq, if_pos (congrArg _ heq), heq, htarget]
  · rw [if_neg heq, if_neg fun hclaim => heq (MessageName.claim_injective hclaim)]

theorem claimed?_unlink_claim (tree : Tree) (home : Location) (target name : String) :
    (tree.unlink home (MessageName.claim target)).claimed? home name =
      if name = target then none else tree.claimed? home name := by
  unfold claimed?
  rw [child?_unlink]
  by_cases heq : name = target
  · rw [if_pos heq, if_pos (congrArg _ heq)]
    split <;> simp_all
  · rw [if_neg heq, if_neg fun hclaim => heq (MessageName.claim_injective hclaim)]

end Views

end Tree

/-! ## Worlds with another tree -/

namespace World

/-- The world with another tree. -/
def withTree (world : World) (tree : Tree) : World :=
  { world with tree }

/-- The world after an event has been reported. -/
def recorded (world : World) (event : Event) : World :=
  { world with log := world.log ++ [event] }

section Simplification

variable (world : World) (tree other : Tree) (event : Event)

@[simp] theorem tree_withTree : (world.withTree tree).tree = tree := rfl

@[simp] theorem cwd_withTree : (world.withTree tree).cwd = world.cwd := rfl

@[simp] theorem scan_withTree : (world.withTree tree).scan = world.scan := rfl

@[simp] theorem withTree_tree : world.withTree world.tree = world := rfl

@[simp] theorem withTree_withTree :
    (world.withTree tree).withTree other = world.withTree other := rfl

@[simp] theorem tree_recorded : (world.recorded event).tree = world.tree := rfl

@[simp] theorem cwd_recorded : (world.recorded event).cwd = world.cwd := rfl

@[simp] theorem answer_report :
    world.answer (.report event) = ((), world.recorded event) := rfl

end Simplification

end World

theorem World.cwd_change (world : World) (result : Except Fault Tree) :
    (world.change result).2.cwd = world.cwd := by
  cases result <;> rfl

/-- No request goes elsewhere. -/
theorem World.cwd_answer
    {α : Type} (world : World) (request : Request α) :
    (world.answer request).2.cwd = world.cwd := by
  cases request with
  | create path => exact world.cwd_change _
  | append path content => exact world.cwd_change _
  | rename source target => exact world.cwd_change _
  | remove path => exact world.cwd_change _
  | _ => rfl

theorem Procedure.cwd_run
    {α : Type} (procedure : Procedure α) (world : World) :
    (procedure.run world).2.cwd = world.cwd := by
  induction procedure generalizing world with
  | done result => rfl
  | ask request next ih => exact (ih _ _).trans (world.cwd_answer request)

/-! ## Answers at a place -/

section Answers

variable {world : World} {path : Path} {home : Location} {name : String} {content : Bytes}

theorem Tree.Designates.answer_create
    (h : world.tree.Designates world.cwd path (home ++ [Bytes.ofText name])) :
    world.answer (.create path) =
      if (world.tree.child? home name).isNone then
        (.ok (), world.withTree (world.tree.write home name []))
      else (.error .alreadyExists, world) := by
  rw [World.answer, h.create_eq, child?]
  split <;> rfl

theorem Tree.Designates.answer_append
    (h : world.tree.Designates world.cwd path (home ++ [Bytes.ofText name]))
    (hfile : world.tree.child? home name = some (.file content)) (bytes : Bytes) :
    world.answer (.append path bytes) =
      (.ok (), world.withTree (world.tree.write home name (content ++ bytes))) := by
  rw [World.answer, h.append_eq hfile]
  rfl

theorem Tree.Designates.answer_flush
    (h : world.tree.Designates world.cwd path (home ++ [Bytes.ofText name]))
    (hfile : world.tree.child? home name = some (.file content)) :
    world.answer (.flush path) = (.ok (), world) := by
  rw [World.answer, h.flush_eq hfile]

theorem Tree.Designates.answer_read
    (h : world.tree.Designates world.cwd path (home ++ [Bytes.ofText name]))
    (hfile : world.tree.child? home name = some (.file content)) :
    world.answer (.read path) = (.ok content, world) := by
  rw [World.answer, h.read_eq hfile]

theorem Tree.Designates.answer_remove
    (h : world.tree.Designates world.cwd path (home ++ [Bytes.ofText name]))
    (hfile : world.tree.child? home name = some (.file content)) :
    world.answer (.remove path) = (.ok (), world.withTree (world.tree.unlink home name)) := by
  rw [World.answer, h.remove_eq hfile]
  rfl

theorem Tree.Designates.answer_rename
    (h : world.tree.Designates world.cwd path (home ++ [Bytes.ofText name]))
    (hfile : world.tree.child? home name = some (.file content)) {other : Path} {target : String}
    (htarget : world.tree.target world.cwd other = .ok (home ++ [Bytes.ofText target])) :
    world.answer (.rename path other) =
      if Path.maxName < (Bytes.ofText target).length then (.error .nameTooLong, world)
      else if world.tree.child? home target = some .directory then (.error .isDirectory, world)
      else (.ok (), world.withTree ((world.tree.unlink home name).write home target content)) := by
  rw [World.answer, h.rename_eq htarget]
  split
  · rename_i hlong
    have hcheck : Tree.checkName (home ++ [Bytes.ofText target]) = .error .nameTooLong := by
      simp [Tree.checkName, hlong]
    rw [Tree.moveEntry, show world.tree.get? (home ++ [Bytes.ofText name]) = _ from hfile]
    simp only [hcheck, bind, Except.bind]
    rfl
  · rename_i hlong
    have hcheck : Tree.checkName (home ++ [Bytes.ofText target]) = .ok () :=
      Tree.checkName_concat.mpr (Nat.not_lt.mp hlong)
    split
    · rename_i hdir
      rw [Tree.moveEntry, show world.tree.get? (home ++ [Bytes.ofText name]) = _ from hfile]
      simp only [hcheck, show world.tree.get? (home ++ [Bytes.ofText target]) = _ from hdir, bind,
        Except.bind]
      rfl
    · rename_i hdir
      rw [Tree.moveEntry_file hfile hdir hcheck]
      rfl

end Answers

namespace Mailbox

/-! ## Paths that a mailbox makes -/

/-- The path of the mailbox leads to the directory `home`. -/
structure Opens (mailbox : Mailbox) (world : World) (home : Location) : Prop where
  locate_eq : world.tree.locate world.cwd mailbox.dir = .ok home
  get?_eq : world.tree.get? home = some .directory

/-- The paths of entries lead into the directory `home`.  So it is if the path of the mailbox leads
there, but also if that path is empty: its entries are then those of the working directory. -/
structure Enters (mailbox : Mailbox) (world : World) (home : Location) : Prop where
  enter_eq : world.tree.enter world.cwd mailbox.dir = .ok home
  zero_notMem : (0 : UInt8) ∉ mailbox.dir.bytes

/-- The path of an entry is not too long. -/
def Fits (path : Path) : Prop :=
  path.bytes.length ≤ Path.maxLength

instance (path : Path) : Decidable (Fits path) :=
  inferInstanceAs (Decidable (_ ≤ _))

/-- An entry of the mailbox can have the name. -/
structure Admits (mailbox : Mailbox) (name : String) : Prop where
  plain : Name.IsPlain (Bytes.ofText name)
  short : (Bytes.ofText name).length ≤ Path.maxName
  fits : Fits (mailbox.entry name)

section Paths

variable {mailbox : Mailbox} {world : World} {home : Location} {name : String}

theorem Opens.fault?_eq
    (h : mailbox.Opens world home) :
    mailbox.dir.fault? = none := by
  have hlocate := h.locate_eq
  rw [Tree.locate] at hlocate
  split at hlocate
  · cases hlocate
  · assumption

theorem Opens.zero_notMem
    (h : mailbox.Opens world home) :
    (0 : UInt8) ∉ mailbox.dir.bytes :=
  Path.zero_notMem_of_fault? h.fault?_eq

theorem Opens.enter_eq
    (h : mailbox.Opens world home) :
    world.tree.enter world.cwd mailbox.dir = .ok home := by
  have hlocate := h.locate_eq
  rw [Tree.locate, h.fault?_eq] at hlocate
  exact Tree.enter_eq_ok_iff.mpr ⟨hlocate, h.get?_eq⟩

theorem Opens.enters
    (h : mailbox.Opens world home) :
    mailbox.Enters world home :=
  ⟨h.enter_eq, h.zero_notMem⟩

theorem Enters.get?_eq
    (h : mailbox.Enters world home) :
    world.tree.get? home = some .directory :=
  (Tree.enter_eq_ok_iff.mp h.enter_eq).2

theorem opens_of_enter
    (hfault : mailbox.dir.fault? = none)
    (henter : world.tree.enter world.cwd mailbox.dir = .ok home) :
    mailbox.Opens world home := by
  obtain ⟨hfollow, hhome⟩ := Tree.enter_eq_ok_iff.mp henter
  refine ⟨?_, hhome⟩
  rw [Tree.locate, hfault]
  exact hfollow

theorem Opens.list_eq
    (h : mailbox.Opens world home) :
    world.tree.list world.cwd mailbox.dir = .ok (world.tree.names home) := by
  rw [Tree.list, h.locate_eq]
  simp only [bind, Except.bind, Tree.inDirectory_eq_ok_iff.mpr h.get?_eq]
  rfl

/-- Only what opens can be listed. -/
theorem exists_opens_of_list_eq_ok
    {names : List Name} (h : world.tree.list world.cwd mailbox.dir = .ok names) :
    ∃ home, mailbox.Opens world home := by
  rw [Tree.list] at h
  cases hlocate : world.tree.locate world.cwd mailbox.dir with
  | error fault =>
      rw [hlocate] at h
      cases h
  | ok home =>
      cases hdir : world.tree.inDirectory home with
      | error fault =>
          simp only [hlocate, hdir, bind, Except.bind] at h
          cases h
      | ok _ => exact ⟨home, hlocate, Tree.inDirectory_eq_ok_iff.mp hdir⟩

/-- Only an unfit path keeps the directory from being brought onto the disk. -/
theorem Enters.flush_eq
    (h : mailbox.Enters world home) :
    world.tree.flush world.cwd mailbox.dir =
      match mailbox.dir.fault? with
      | some fault => .error fault
      | none => .ok () := by
  rw [Tree.flush, Tree.locate]
  cases mailbox.dir.fault? with
  | some fault => rfl
  | none =>
      simp only [(Tree.enter_eq_ok_iff.mp h.enter_eq).1]
      rfl

theorem Opens.flush_eq
    (h : mailbox.Opens world home) :
    world.tree.flush world.cwd mailbox.dir = .ok () := by
  rw [h.enters.flush_eq, h.fault?_eq]

/-- A mailbox stays open in every world with the same directories. -/
theorem Opens.of_sameDirectories
    {after : World} (h : mailbox.Opens world home) (hcwd : after.cwd = world.cwd)
    (hsame : world.tree.SameDirectories after.tree) :
    mailbox.Opens after home :=
  opens_of_enter h.fault?_eq (hcwd ▸ Tree.enter_of_sameDirectories hsame h.enter_eq)

theorem Opens.withTree
    (h : mailbox.Opens world home) {tree : Tree} (hsame : world.tree.SameDirectories tree) :
    mailbox.Opens (world.withTree tree) home :=
  h.of_sameDirectories rfl hsame

theorem Enters.withTree
    (h : mailbox.Enters world home) {tree : Tree} (hsame : world.tree.SameDirectories tree) :
    mailbox.Enters (world.withTree tree) home :=
  ⟨Tree.enter_of_sameDirectories hsame h.enter_eq, h.zero_notMem⟩

/-- The path of an entry that the mailbox has room for designates its place. -/
theorem Enters.designates
    (h : mailbox.Enters world home) (hname : mailbox.Admits name) :
    world.tree.Designates world.cwd (mailbox.entry name) (home ++ [Bytes.ofText name]) := by
  refine ⟨Tree.target_child h.enter_eq hname.plain ?_, Tree.checkName_concat.mpr hname.short⟩
  rw [Path.fault?_child h.zero_notMem hname.plain]
  exact if_neg (Nat.not_lt.mpr hname.fits)

theorem Opens.designates
    (h : mailbox.Opens world home) (hname : mailbox.Admits name) :
    world.tree.Designates world.cwd (mailbox.entry name) (home ++ [Bytes.ofText name]) :=
  h.enters.designates hname

/-- Nothing is found under a path that is too long. -/
theorem Enters.fault?_entry
    (h : mailbox.Enters world home) (hname : Name.IsPlain (Bytes.ofText name))
    (hfits : ¬Fits (mailbox.entry name)) :
    (mailbox.entry name).fault? = some .nameTooLong := by
  rw [entry, Path.fault?_child h.zero_notMem hname]
  exact if_pos (Nat.lt_of_not_le hfits)

theorem Opens.fault?_entry
    (h : mailbox.Opens world home) (hname : Name.IsPlain (Bytes.ofText name))
    (hfits : ¬Fits (mailbox.entry name)) :
    (mailbox.entry name).fault? = some .nameTooLong :=
  h.enters.fault?_entry hname hfits

/-- The path of a claim names the place for it in the mailbox, unless it is too long. -/
theorem Opens.target_claimPath
    (h : mailbox.Opens world home) (hname : Name.IsPlain (Bytes.ofText name)) :
    world.tree.target world.cwd (claimPath (mailbox.entry name) name) =
      if Fits (claimPath (mailbox.entry name) name) then
        .ok (home ++ [Bytes.ofText (MessageName.claim name)])
      else .error .nameTooLong := by
  have hclaim := MessageName.isPlain_claim hname
  obtain ⟨parent, hpath, hway, hpre⟩ :=
    mailbox.dir.withFileName_child (Bytes.ofText (MessageName.claim name)) hname
  have hzero : (0 : UInt8) ∉ parent.bytes := fun hmem => h.zero_notMem (hpre.subset hmem)
  have hparent := Tree.enter_of_sameWay hway h.enter_eq
  rw [claimPath, entry, hpath]
  have hfault := Path.fault?_child hzero hclaim
  split
  · rename_i hfits
    rw [if_neg (Nat.not_lt.mpr hfits)] at hfault
    exact Tree.target_child hparent hclaim hfault
  · rename_i hfits
    rw [if_pos (Nat.lt_of_not_le hfits)] at hfault
    rw [Tree.target, hfault]

theorem fits_of_length
    (hname : Name.IsPlain (Bytes.ofText name))
    (hlen : mailbox.dir.bytes.length + 1 + (Bytes.ofText name).length ≤ Path.maxLength) :
    Fits (mailbox.entry name) :=
  Nat.le_trans (Path.length_child_le _ hname) hlen

/-- The mailbox in the working directory. -/
def here : Mailbox :=
  ⟨⟨[Path.dot]⟩⟩

theorem opens_here
    (h : world.tree.get? world.cwd = some .directory) :
    here.Opens world world.cwd := by
  refine ⟨?_, h⟩
  have hmoves : here.dir.moves = [.stay] := rfl
  have hstart : Tree.start world.cwd here.dir = world.cwd := rfl
  rw [Tree.locate, show here.dir.fault? = none from rfl, hmoves, hstart]
  simp only [Tree.follow, Tree.move_stay h]
  rfl

/-- No two names have one path in the working directory, whatever is in them. -/
theorem entry_here_injective :
    Function.Injective here.entry := by
  have hentry : ∀ name, (here.entry name).bytes =
      if (Bytes.ofText name).head? = some Path.slash then Bytes.ofText name
      else Path.dot :: Path.slash :: Bytes.ofText name := by
    intro name
    rw [entry, Path.child, Path.join, Path.isAbsolute]
    simp only [beq_iff_eq]
    split <;> rfl
  intro a b h
  have hbytes := congrArg Path.bytes h
  rw [hentry, hentry] at hbytes
  apply Bytes.ofText_injective
  split at hbytes <;> split at hbytes
  · exact hbytes
  · rename_i ha _
    rw [hbytes] at ha
    cases ha
  · rename_i _ hb
    rw [← hbytes] at hb
    cases hb
  · exact (List.cons.inj (List.cons.inj hbytes).2).2

end Paths

end Mailbox

/-- A world in which nothing has happened yet: no file, and everything else as it is at first. -/
def World.blank : World :=
  { tree := .empty, cwd := [] }

end Postbox
