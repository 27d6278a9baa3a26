import Mathlib.Data.List.TakeWhile
import Postbox.Files.Walk
import Postbox.Path.Ancestors
import Postbox.Proofs.Names

/-!
# Paths of entries

Where the path of an entry of a directory leads.  Only the stretches of a path that mean something
count: two paths that start alike and have the same ones lead to the same directory.  A path with
its file name replaced therefore names an entry of the same directory, although its text may have
lost slashes and dots.
-/

namespace Postbox

namespace Path

/-! ## Cutting a path at its last slash -/

theorem segments_append_slash (a b : Bytes) :
    segments (a ++ slash :: b) = segments a ++ segments b :=
  List.splitOn_append_cons_self a b

theorem segments_of_notMem
    {bytes : Bytes} (h : slash ∉ bytes) :
    segments bytes = [bytes] :=
  List.splitOn_eq_singleton h

theorem lastSegment_append_slash
    (bytes : Bytes) {name : Name} (h : slash ∉ name) :
    lastSegment (bytes ++ slash :: name) = name := by
  have hall : ∀ b ∈ name.reverse, (b != slash) = true := by
    intro b hb
    rw [bne_iff_ne]
    rintro rfl
    exact h (List.mem_reverse.mp hb)
  rw [lastSegment, List.reverse_append, List.reverse_cons, List.append_assoc,
    List.takeWhile_append_of_pos hall]
  simp

theorem lastSegment_of_notMem
    {name : Name} (h : slash ∉ name) :
    lastSegment name = name := by
  have hall : ∀ b ∈ name.reverse, (b != slash) = true := by
    intro b hb
    rw [bne_iff_ne]
    rintro rfl
    exact h (List.mem_reverse.mp hb)
  rw [lastSegment, List.takeWhile_eq_self_iff.mpr hall, List.reverse_reverse]

theorem beforeLast_append_slash
    (bytes : Bytes) {name : Name} (h : slash ∉ name) :
    beforeLast (bytes ++ slash :: name) = bytes := by
  have hlen : (bytes ++ slash :: name).length - name.length - 1 = bytes.length := by
    simp only [List.length_append, List.length_cons]
    omega
  rw [beforeLast, lastSegment_append_slash bytes h, hlen, List.take_left]

theorem beforeLast_of_notMem
    {name : Name} (h : slash ∉ name) :
    beforeLast name = [] := by
  rw [beforeLast, lastSegment_of_notMem h, Nat.sub_self, Nat.zero_sub, List.take_zero]

/-- A path text is one stretch, or a stretch behind a slash. -/
theorem eq_beforeLast_append (bytes : Bytes) :
    (slash ∉ bytes ∧ lastSegment bytes = bytes ∧ beforeLast bytes = []) ∨
      bytes = beforeLast bytes ++ slash :: lastSegment bytes := by
  by_cases h : slash ∈ bytes
  · right
    obtain ⟨front, back, hsplit, hfront⟩ :=
      List.eq_append_cons_of_mem (List.mem_reverse.mpr h)
    have hbytes : bytes = back.reverse ++ slash :: front.reverse := by
      rw [← List.reverse_reverse bytes, hsplit]
      simp
    have hlast : slash ∉ front.reverse := by simpa using hfront
    rw [hbytes, beforeLast_append_slash _ hlast, lastSegment_append_slash _ hlast]
  · exact .inl ⟨h, lastSegment_of_notMem h, beforeLast_of_notMem h⟩

/-! ## The stretches that mean something -/

/-- The stretches that are neither empty nor a dot. -/
def significant (bytes : Bytes) : List Bytes :=
  (segments bytes).filter (fun segment => !isIdle segment)

@[simp] theorem significant_nil :
    significant [] = [] := by
  decide

@[simp] theorem significant_dot :
    significant [dot] = [] := by
  decide

theorem significant_append_slash (a b : Bytes) :
    significant (a ++ slash :: b) = significant a ++ significant b := by
  rw [significant, segments_append_slash, List.filter_append, significant, significant]

theorem significant_slash (bytes : Bytes) :
    significant (slash :: bytes) = significant bytes := by
  simpa using significant_append_slash [] bytes

theorem significant_of_isIdle
    {bytes : Bytes} (hidle : isIdle bytes = true) :
    significant bytes = [] := by
  simp only [isIdle, Bool.or_eq_true, beq_iff_eq] at hidle
  rcases hidle with rfl | rfl
  · exact significant_nil
  · exact significant_dot

theorem significant_trimBody (bytes : Bytes) :
    significant (trimBody bytes) = significant bytes := by
  fun_induction trimBody bytes with
  | case1 => rfl
  | case2 bytes hne hidle ih =>
      rw [ih]
      rcases eq_beforeLast_append bytes with ⟨-, hlast, hbefore⟩ | hsplit
      · rw [hbefore, significant_nil]
        rw [hlast] at hidle
        exact (significant_of_isIdle hidle).symm
      · calc
          significant (beforeLast bytes) =
              significant (beforeLast bytes ++ slash :: lastSegment bytes) := by
            rw [significant_append_slash, significant_of_isIdle hidle, List.append_nil]
          _ = significant bytes := by rw [← hsplit]
  | case3 => rfl

theorem trimBody_isPrefix (bytes : Bytes) :
    trimBody bytes <+: bytes := by
  fun_induction trimBody bytes with
  | case1 => exact List.nil_prefix
  | case2 bytes hne hidle ih => exact ih.trans (List.take_prefix _ _)
  | case3 => exact List.prefix_refl _

theorem trimBody_of_not_isIdle
    {bytes : Bytes} (h : isIdle (lastSegment bytes) = false) :
    trimBody bytes = bytes := by
  rw [trimBody]
  split
  · rename_i hnil
    exact hnil.symm
  · simp [h]

end Path

namespace Name.IsPlain

theorem isIdle_eq
    {name : Name} (h : Name.IsPlain name) :
    Path.isIdle name = false := by
  simp [Path.isIdle, h.ne_nil, h.ne_dot]

theorem ofSegment_eq
    {name : Name} (h : Name.IsPlain name) :
    Path.Move.ofSegment name = .down name := by
  simp [Path.Move.ofSegment, h.ne_nil, h.ne_dot, h.ne_dotdot]

theorem isAbsolute_eq
    {name : Name} (h : Name.IsPlain name) :
    Path.isAbsolute ⟨name⟩ = false := by
  cases name with
  | nil => exact absurd rfl h.ne_nil
  | cons b rest =>
      have hb : b ≠ Path.slash := by
        rintro rfl
        exact h.slash_notMem List.mem_cons_self
      simp [Path.isAbsolute, hb]

end Name.IsPlain

namespace Path

/-! ## The path of an entry -/

/-- The path of an entry is the path of its directory, a slash if there is none yet, and the
name. -/
theorem child_bytes
    (dir : Path) {name : Name} (h : Name.IsPlain name) :
    (dir.child name).bytes = name ∧ dir.bytes = [] ∨
      ∃ front, (dir.child name).bytes = front ++ slash :: name ∧
        (dir.bytes = front ∧ front ≠ [] ∨ dir.bytes = front ++ [slash]) := by
  unfold child join
  rw [h.isAbsolute_eq]
  simp only [Bool.false_eq_true, if_false]
  split
  · rename_i hend
    rcases hend with hnil | hlast
    · exact .inl ⟨by simp [hnil], hnil⟩
    · obtain ⟨front, hfront⟩ := List.getLast?_eq_some_iff.mp hlast
      exact .inr ⟨front, by simp [hfront], .inr hfront⟩
  · rename_i hend
    rw [not_or] at hend
    exact .inr ⟨dir.bytes, rfl, .inl ⟨rfl, hend.1⟩⟩

theorem length_child_le
    (dir : Path) {name : Name} (h : Name.IsPlain name) :
    (dir.child name).bytes.length ≤ dir.bytes.length + 1 + name.length := by
  rcases dir.child_bytes h with ⟨hchild, hdir⟩ | ⟨front, hchild, hdir | hdir⟩
  · simp [hchild, hdir]
  · simp only [hchild, hdir.1, List.length_append, List.length_cons]
    omega
  · simp only [hchild, hdir, List.length_append, List.length_cons, List.length_nil]
    omega

theorem le_length_child
    (dir : Path) {name : Name} (h : Name.IsPlain name) :
    dir.bytes.length + name.length ≤ (dir.child name).bytes.length := by
  rcases dir.child_bytes h with ⟨hchild, hdir⟩ | ⟨front, hchild, hdir | hdir⟩
  · simp [hchild, hdir]
  · simp only [hchild, hdir.1, List.length_append, List.length_cons]
    omega
  · simp only [hchild, hdir, List.length_append, List.length_cons, List.length_nil]
    omega

theorem length_child_mono
    (dir : Path) {name other : Name} (h : Name.IsPlain name) (hother : Name.IsPlain other)
    (hle : name.length ≤ other.length) :
    (dir.child name).bytes.length ≤ (dir.child other).bytes.length := by
  unfold child join
  rw [h.isAbsolute_eq, hother.isAbsolute_eq]
  simp only [Bool.false_eq_true, if_false]
  by_cases hend : dir.bytes = [] ∨ dir.bytes.getLast? = some slash
  · simpa [if_pos hend] using hle
  · simpa [if_neg hend] using hle

theorem isAbsolute_child
    (dir : Path) {name : Name} (h : Name.IsPlain name) :
    (dir.child name).isAbsolute = dir.isAbsolute := by
  rcases dir.child_bytes h with ⟨hchild, hdir⟩ | ⟨front, hchild, hdir⟩
  · have := h.isAbsolute_eq
    simp only [isAbsolute] at this ⊢
    rw [hchild, this, hdir]
    rfl
  · cases front with
    | nil =>
        rcases hdir with ⟨-, hne⟩ | hdir
        · exact absurd rfl hne
        · simp [isAbsolute, hchild, hdir]
    | cons b rest =>
        rcases hdir with ⟨hdir, -⟩ | hdir <;> simp [isAbsolute, hchild, hdir]

/-- The moves of the path of an entry end with the move down to it.  Before that come the moves of
the directory, but for one that only asks for a directory. -/
theorem moves_child
    (dir : Path) {name : Name} (h : Name.IsPlain name) :
    ∃ moves, (dir.child name).moves = moves ++ [.down name] ∧
      (dir.moves = moves ∨ dir.moves = moves ++ [.stay]) := by
  have hname : (segments name).map Move.ofSegment = [.down name] := by
    rw [segments_of_notMem h.slash_notMem, List.map_singleton, h.ofSegment_eq]
  rcases dir.child_bytes h with ⟨hchild, hdir⟩ | ⟨front, hchild, hdir⟩
  · refine ⟨[], ?_, .inr ?_⟩
    · rw [moves, hchild, hname, List.nil_append]
    · rw [moves, hdir]
      rfl
  · refine ⟨(segments front).map Move.ofSegment, ?_, ?_⟩
    · rw [moves, hchild, segments_append_slash, List.map_append, hname]
    · rcases hdir with ⟨hdir, -⟩ | hdir
      · exact .inl (by rw [moves, hdir])
      · right
        rw [moves, hdir, segments_append_slash, List.map_append]
        rfl

/-! ## The path with another file name -/

theorem lead_append_body (path : Path) :
    path.lead ++ path.body = path.bytes := by
  have hpre : path.lead <+: path.bytes := by
    unfold lead isAbsolute
    split
    · rename_i habs
      obtain ⟨rest, hrest⟩ := List.head?_eq_some_iff.mp (beq_iff_eq.mp habs)
      exact ⟨rest, by rw [hrest]; rfl⟩
    · split
      · rename_i hdot
        rcases hdot with hdot | hdot
        · exact ⟨[], by rw [hdot]; rfl⟩
        · obtain ⟨rest, hrest⟩ := List.isPrefixOf_iff_prefix.mp hdot
          exact ⟨slash :: rest, by rw [← hrest]; rfl⟩
      · exact List.nil_prefix
  obtain ⟨rest, hrest⟩ := hpre
  rw [body, ← hrest, List.drop_left]

/-- Behind a leading dot there is nothing or a slash. -/
theorem body_of_lead_eq_dot
    {path : Path} (h : path.lead = [dot]) :
    path.body = [] ∨ ∃ rest, path.body = slash :: rest := by
  have hbody := path.lead_append_body
  rw [h] at hbody
  by_cases habs : path.isAbsolute = true
  · simp [lead, habs, slash, dot] at h
  · by_cases hdot : path.bytes = [dot] ∨ [dot, slash].isPrefixOf path.bytes = true
    · rcases hdot with hdot | hdot
      · rw [hdot] at hbody
        exact .inl (by simpa using hbody)
      · obtain ⟨rest, hrest⟩ := List.isPrefixOf_iff_prefix.mp hdot
        rw [← hrest] at hbody
        exact .inr ⟨rest, by simpa using hbody⟩
    · rw [lead, if_neg habs, if_neg hdot] at h
      cases h

theorem lead_cases (path : Path) :
    path.lead = [slash] ∧ path.isAbsolute = true ∨
      path.lead = [dot] ∧ path.isAbsolute = false ∨
        path.lead = [] ∧ path.isAbsolute = false := by
  unfold lead
  cases path.isAbsolute <;> simp only [Bool.false_eq_true, if_true, if_false] <;> try split
  all_goals simp

/-- The lead of a path means nothing beside its being absolute. -/
theorem significant_lead_append
    {path : Path} {rest : Bytes} (h : rest <+: path.body) :
    significant (path.lead ++ rest) = significant rest := by
  rcases path.lead_cases with ⟨hlead, -⟩ | ⟨hlead, -⟩ | ⟨hlead, -⟩
  · rw [hlead, List.singleton_append, significant_slash]
  · rw [hlead]
    cases rest with
    | nil => simp
    | cons b rest =>
        rcases body_of_lead_eq_dot hlead with hbody | ⟨tail, hbody⟩
        · rw [hbody] at h
          exact absurd (List.prefix_nil.mp h) (List.cons_ne_nil _ _)
        · rw [hbody, List.cons_prefix_cons] at h
          obtain ⟨rfl, -⟩ := h
          rw [significant_append_slash, significant_dot, List.nil_append, significant_slash]
  · rw [hlead, List.nil_append]

theorem isAbsolute_lead_append
    {path : Path} {rest : Bytes} (h : rest <+: path.body) :
    isAbsolute ⟨path.lead ++ rest⟩ = path.isAbsolute := by
  rcases path.lead_cases with ⟨hlead, habs⟩ | ⟨hlead, habs⟩ | ⟨hlead, habs⟩
  · rw [hlead, habs]
    rfl
  · rw [hlead, habs]
    rfl
  · rw [hlead, habs, List.nil_append]
    cases rest with
    | nil => rfl
    | cons b rest =>
        have hbytes := path.lead_append_body
        rw [hlead, List.nil_append] at hbytes
        obtain ⟨tail, htail⟩ := h
        have hhead : path.bytes.head? = some b := by
          rw [← hbytes, ← htail]
          rfl
        rw [isAbsolute, hhead] at habs
        rw [isAbsolute, List.head?_cons, habs]

/-- What stands before the name in the path of an entry is the path of its directory, but for a
slash. -/
theorem body_child
    (dir : Path) {name : Name} (h : Name.IsPlain name) :
    (dir.child name).body = name ∧ dir.bytes = (dir.child name).lead ∨
      ∃ inner, (dir.child name).body = inner ++ slash :: name ∧
        (dir.bytes = (dir.child name).lead ++ inner ∨
          dir.bytes = (dir.child name).lead ++ inner ++ [slash]) := by
  have hbytes := (dir.child name).lead_append_body
  rcases dir.child_bytes h with ⟨hchild, hdir⟩ | ⟨front, hchild, hdir⟩
  · rw [hchild] at hbytes
    rcases (dir.child name).lead_cases with ⟨hlead, -⟩ | ⟨hlead, -⟩ | ⟨hlead, -⟩
    · rw [hlead] at hbytes
      exact absurd (hbytes ▸ List.mem_cons_self) h.slash_notMem
    · exfalso
      rw [hlead] at hbytes
      rcases body_of_lead_eq_dot hlead with hbody | ⟨rest, hbody⟩
      · exact h.ne_dot (by rw [← hbytes, hbody]; rfl)
      · exact h.slash_notMem (by rw [← hbytes, hbody]; simp)
    · exact .inl ⟨by simpa [hlead] using hbytes, by rw [hlead, hdir]⟩
  · rw [hchild] at hbytes
    rcases (dir.child name).lead_cases with ⟨hlead, -⟩ | ⟨hlead, -⟩ | ⟨hlead, -⟩
    · rw [hlead] at hbytes ⊢
      cases front with
      | nil =>
          rcases hdir with ⟨-, hne⟩ | hdir
          · exact absurd rfl hne
          · exact .inl ⟨by simpa using hbytes, hdir⟩
      | cons b rest =>
          obtain ⟨rfl, hbody⟩ : slash = b ∧ (dir.child name).body = rest ++ slash :: name := by
            simpa using hbytes
          exact .inr ⟨rest, hbody, hdir.imp And.left id⟩
    · rw [hlead] at hbytes ⊢
      cases front with
      | nil => simp [dot, slash] at hbytes
      | cons b rest =>
          obtain ⟨rfl, hbody⟩ : dot = b ∧ (dir.child name).body = rest ++ slash :: name := by
            simpa using hbytes
          exact .inr ⟨rest, hbody, hdir.imp And.left id⟩
    · rw [hlead] at hbytes ⊢
      exact .inr ⟨front, hbytes, hdir.imp And.left id⟩

theorem trimBody_child
    (dir : Path) {name : Name} (h : Name.IsPlain name) :
    trimBody (dir.child name).body = (dir.child name).body ∧
      lastSegment (dir.child name).body = name := by
  have hlast : lastSegment (dir.child name).body = name := by
    rcases dir.body_child h with ⟨hbody, -⟩ | ⟨inner, hbody, -⟩
    · rw [hbody, lastSegment_of_notMem h.slash_notMem]
    · rw [hbody, lastSegment_append_slash _ h.slash_notMem]
  exact ⟨trimBody_of_not_isIdle (by rw [hlast, h.isIdle_eq]), hlast⟩

theorem body_child_ne_nil
    (dir : Path) {name : Name} (h : Name.IsPlain name) :
    (dir.child name).body ≠ [] := by
  rcases dir.body_child h with ⟨hbody, -⟩ | ⟨inner, hbody, -⟩
  · rw [hbody]
    exact h.ne_nil
  · rw [hbody]
    simp

theorem fileName?_child
    (dir : Path) {name : Name} (h : Name.IsPlain name) :
    (dir.child name).fileName? = some name := by
  obtain ⟨htrim, hlast⟩ := dir.trimBody_child h
  have hne := dir.body_child_ne_nil h
  simp [fileName?, htrim, hlast, hne, h.ne_dotdot]

/-- Two paths that start alike and have the same meaningful stretches. -/
structure SameWay (a b : Path) : Prop where
  isAbsolute_eq : a.isAbsolute = b.isAbsolute
  significant_eq : significant a.bytes = significant b.bytes

/-- The parent of the path of an entry leads the same way as the path of its directory, and is part
of it. -/
theorem parent?_child
    (dir : Path) {name : Name} (h : Name.IsPlain name) :
    ∃ parent, (dir.child name).parent? = some parent ∧ SameWay parent dir ∧
      parent.bytes <+: dir.bytes := by
  obtain ⟨htrim, -⟩ := dir.trimBody_child h
  have hne := dir.body_child_ne_nil h
  have habs := dir.isAbsolute_child h
  have hparent : (dir.child name).parent? =
      some ⟨(dir.child name).lead ++ trimBody (beforeLast (dir.child name).body)⟩ := by
    simp [parent?, htrim, hne]
  refine ⟨_, hparent, ?_⟩
  rcases dir.body_child h with ⟨hbody, hdir⟩ | ⟨inner, hbody, hdir⟩
  · rw [hbody, beforeLast_of_notMem h.slash_notMem, trimBody, dif_pos rfl, List.append_nil, ← hdir]
    exact ⟨⟨rfl, rfl⟩, List.prefix_refl _⟩
  · rw [hbody, beforeLast_append_slash _ h.slash_notMem]
    have hinner : inner <+: (dir.child name).body := by
      rw [hbody]
      exact List.prefix_append _ _
    have htrimmed : trimBody inner <+: (dir.child name).body :=
      (trimBody_isPrefix inner).trans hinner
    have hsignificant : significant dir.bytes = significant inner := by
      rcases hdir with hdir | hdir
      · rw [hdir, significant_lead_append hinner]
      · rw [hdir, significant_append_slash, significant_nil, List.append_nil,
          significant_lead_append hinner]
    refine ⟨⟨?_, ?_⟩, ?_⟩
    · rw [isAbsolute_lead_append htrimmed, habs]
    · rw [significant_lead_append htrimmed, significant_trimBody, hsignificant]
    · have hfront : (dir.child name).lead ++ trimBody inner <+: (dir.child name).lead ++ inner :=
        (List.prefix_append_right_inj _).mpr (trimBody_isPrefix inner)
      rcases hdir with hdir | hdir
      · rw [hdir]
        exact hfront
      · rw [hdir]
        exact hfront.trans (List.prefix_append _ _)

/-- Replacing the file name in the path of an entry gives the path of another entry of a directory
that lies the same way. -/
theorem withFileName_child
    (dir : Path) {name : Name} (other : Name) (h : Name.IsPlain name) :
    ∃ parent, (dir.child name).withFileName other = Path.child parent other ∧
      SameWay parent dir ∧ parent.bytes <+: dir.bytes := by
  obtain ⟨parent, hparent, hway⟩ := dir.parent?_child h
  exact ⟨parent, by simp [withFileName, dir.fileName?_child h, hparent], hway⟩

end Path

namespace Tree

/-! ## Following moves -/

@[simp] theorem inDirectory_eq_ok_iff
    {tree : Tree} {place : Location} :
    tree.inDirectory place = .ok () ↔ tree.get? place = some .directory := by
  unfold inDirectory
  split <;> simp_all

theorem follow_cons_eq_ok_iff
    {tree : Tree} {place found : Location} {step : Path.Move} {rest : List Path.Move} :
    tree.follow place (step :: rest) = .ok found ↔
      ∃ next, tree.move place step = .ok next ∧ tree.follow next rest = .ok found := by
  rw [follow]
  cases tree.move place step with
  | error fault => simp [bind, Except.bind]
  | ok next => simp [bind, Except.bind]

theorem follow_append (tree : Tree) (place : Location) (front back : List Path.Move) :
    tree.follow place (front ++ back) = tree.follow place front >>= (tree.follow · back) := by
  induction front generalizing place with
  | nil => rfl
  | cons step rest ih =>
      rw [List.cons_append, follow, follow]
      cases tree.move place step with
      | error fault => rfl
      | ok next => exact ih next

theorem get?_of_move_eq_ok
    {tree : Tree} {place next : Location} {step : Path.Move}
    (h : tree.move place step = .ok next) :
    tree.get? place = some .directory := by
  rw [move.eq_def] at h
  cases hplace : tree.inDirectory place with
  | error fault => simp [hplace, bind, Except.bind] at h
  | ok _ => exact inDirectory_eq_ok_iff.mp hplace

theorem move_stay
    {tree : Tree} {place : Location} (h : tree.get? place = some .directory) :
    tree.move place .stay = .ok place := by
  rw [move.eq_def, inDirectory_eq_ok_iff.mpr h]
  rfl

/-- Whoever arrives in a directory has started in one. -/
theorem get?_of_follow_eq_ok
    {tree : Tree} {place found : Location} {moves : List Path.Move}
    (hfound : tree.get? found = some .directory)
    (h : tree.follow place moves = .ok found) :
    tree.get? place = some .directory := by
  cases moves with
  | nil =>
      obtain rfl : place = found := by simpa [follow] using h
      exact hfound
  | cons step rest =>
      obtain ⟨next, hnext, -⟩ := follow_cons_eq_ok_iff.mp h
      exact get?_of_move_eq_ok hnext

/-- On the way from one directory to another, staying where one is makes no difference. -/
theorem follow_filter_eq_ok_iff
    {tree : Tree} {place found : Location} {moves : List Path.Move}
    (hplace : tree.get? place = some .directory)
    (hfound : tree.get? found = some .directory) :
    tree.follow place (moves.filter (· != .stay)) = .ok found ↔
      tree.follow place moves = .ok found := by
  induction moves generalizing place with
  | nil => rfl
  | cons step rest ih =>
      by_cases hstay : step = .stay
      · subst hstay
        rw [List.filter_cons_of_neg (by simp), ih hplace, follow_cons_eq_ok_iff, move_stay hplace]
        simp
      · rw [List.filter_cons_of_pos (by simpa using hstay), follow_cons_eq_ok_iff,
          follow_cons_eq_ok_iff]
        constructor
        · rintro ⟨next, hnext, hrest⟩
          exact ⟨next, hnext, (ih (get?_of_follow_eq_ok hfound hrest)).mp hrest⟩
        · rintro ⟨next, hnext, hrest⟩
          exact ⟨next, hnext, (ih (get?_of_follow_eq_ok hfound hrest)).mpr hrest⟩

/-- The directory that the moves of a path lead to. -/
def enter (tree : Tree) (cwd : Location) (path : Path) : Except Fault Location := do
  let place ← tree.follow (start cwd path) path.moves
  tree.inDirectory place
  return place

theorem enter_eq_ok_iff
    {tree : Tree} {cwd : Location} {path : Path} {home : Location} :
    tree.enter cwd path = .ok home ↔
      tree.follow (start cwd path) path.moves = .ok home ∧ tree.get? home = some .directory := by
  rw [enter]
  cases tree.follow (start cwd path) path.moves with
  | error fault => simp [bind, Except.bind]
  | ok place =>
      simp only [bind, Except.bind, pure, Except.pure, Except.ok.injEq]
      cases hplace : tree.inDirectory place with
      | error fault =>
          simp only [reduceCtorEq, false_iff, not_and]
          rintro rfl hdir
          rw [inDirectory_eq_ok_iff.mpr hdir] at hplace
          cases hplace
      | ok _ =>
          simp only [Except.ok.injEq, iff_self_and]
          rintro rfl
          exact inDirectory_eq_ok_iff.mp hplace

theorem moves_filter_eq (path : Path) :
    path.moves.filter (· != .stay) =
      (Path.significant path.bytes).map Path.Move.ofSegment := by
  have hidle : ∀ segment : Bytes,
      ((Path.Move.ofSegment segment) != .stay) = !Path.isIdle segment := by
    intro segment
    unfold Path.Move.ofSegment Path.isIdle
    split
    · rename_i h
      rcases h with rfl | rfl <;> rfl
    · rename_i h
      rw [not_or] at h
      rw [beq_eq_false_iff_ne.mpr h.1, beq_eq_false_iff_ne.mpr h.2]
      split <;> rfl
  rw [Path.moves, List.filter_map, Path.significant]
  congr 2
  funext segment
  exact hidle segment

theorem enter_of_sameWay
    {tree : Tree} {cwd home : Location} {a b : Path} (hway : a.SameWay b)
    (h : tree.enter cwd b = .ok home) :
    tree.enter cwd a = .ok home := by
  rw [enter_eq_ok_iff] at h ⊢
  obtain ⟨hfollow, hhome⟩ := h
  have hstart := get?_of_follow_eq_ok hhome hfollow
  have hsame : start cwd a = start cwd b := by
    rw [start, start, hway.isAbsolute_eq]
  rw [hsame, ← follow_filter_eq_ok_iff hstart hhome, moves_filter_eq, hway.significant_eq,
    ← moves_filter_eq, follow_filter_eq_ok_iff hstart hhome]
  exact ⟨hfollow, hhome⟩

/-- The path of an entry names the place for it in the directory. -/
theorem target_child
    {tree : Tree} {cwd home : Location} {dir : Path} {name : Name}
    (hdir : tree.enter cwd dir = .ok home) (hname : Name.IsPlain name)
    (hfault : (dir.child name).fault? = none) :
    tree.target cwd (dir.child name) = .ok (home ++ [name]) := by
  obtain ⟨moves, hmoves, hdirMoves⟩ := dir.moves_child hname
  obtain ⟨hfollow, hhome⟩ := enter_eq_ok_iff.mp hdir
  have hstart : start cwd (dir.child name) = start cwd dir := by
    rw [start, start, dir.isAbsolute_child hname]
  have hfront : tree.follow (start cwd dir) moves = .ok home := by
    rcases hdirMoves with hdirMoves | hdirMoves
    · rwa [hdirMoves] at hfollow
    · have hplace := get?_of_follow_eq_ok hhome hfollow
      rw [← follow_filter_eq_ok_iff hplace hhome] at hfollow ⊢
      simpa [hdirMoves] using hfollow
  rw [target, hfault, hmoves, List.dropLast_concat, List.getLast?_concat, hstart]
  simp only [hfront, bind, Except.bind, inDirectory_eq_ok_iff.mpr hhome]
  rfl

end Tree

end Postbox
