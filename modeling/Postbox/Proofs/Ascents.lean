import Postbox.Proofs.Locations
import Postbox.World

/-!
# Directories above a path

The text of a path is shortened component by component, while the directories it leads through are
left one by one.  The two go together: where a component is a name, its loss is a step to the parent
directory, and where it is `..`, a step back to a child.
-/

namespace Postbox

namespace Path

/-! ## Components -/

/-- The bytes can be a component that means something. -/
structure IsComponent (segment : Bytes) : Prop where
  not_idle : isIdle segment = false
  slash_notMem : slash ∉ segment

theorem isComponent_of_isPlain
    {name : Name} (h : Name.IsPlain name) :
    IsComponent name :=
  ⟨h.isIdle_eq, h.slash_notMem⟩

theorem isComponent_dotdot :
    IsComponent dotdot :=
  ⟨by decide, by decide⟩

/-- A stretch between slashes is part of the text and has no slash. -/
theorem of_mem_segments
    {bytes segment : Bytes} (h : segment ∈ segments bytes) :
    slash ∉ segment ∧ segment ⊆ bytes := by
  induction hlen : bytes.length using Nat.strongRecOn generalizing bytes with
  | ind n ih =>
      by_cases hslash : slash ∈ bytes
      · obtain ⟨front, back, rfl, hfront⟩ := List.eq_append_cons_of_mem hslash
        rw [segments_append_slash, segments_of_notMem hfront, List.singleton_append,
          List.mem_cons] at h
        rcases h with rfl | h
        · exact ⟨hfront, List.subset_append_left _ _⟩
        · obtain ⟨hnotMem, hsubset⟩ := ih back.length (by simp [← hlen]; omega) h rfl
          exact ⟨hnotMem, fun b hb =>
            List.mem_append_right _ (List.mem_cons_of_mem _ (hsubset hb))⟩
      · rw [segments_of_notMem hslash, List.mem_singleton] at h
        subst h
        exact ⟨hslash, fun _ => id⟩

theorem isComponent_of_mem_significant
    {bytes segment : Bytes} (h : segment ∈ significant bytes) :
    IsComponent segment := by
  obtain ⟨hmem, hidle⟩ := List.mem_filter.mp h
  exact ⟨by simpa using hidle, (of_mem_segments hmem).1⟩

theorem zero_notMem_of_mem_significant
    {bytes segment : Bytes} (hzero : (0 : UInt8) ∉ bytes) (h : segment ∈ significant bytes) :
    (0 : UInt8) ∉ segment :=
  fun hmem => hzero ((of_mem_segments (List.mem_filter.mp h).1).2 hmem)

namespace IsComponent

variable {segment : Bytes}

theorem ne_nil
    (h : IsComponent segment) :
    segment ≠ [] := by
  rintro rfl
  cases h.not_idle

theorem significant_eq
    (h : IsComponent segment) :
    significant segment = [segment] := by
  rw [significant, segments_of_notMem h.slash_notMem]
  simp [h.not_idle]

theorem isAbsolute_eq
    (h : IsComponent segment) :
    isAbsolute ⟨segment⟩ = false := by
  cases segment with
  | nil => rfl
  | cons b rest =>
      have hb : b ≠ slash := by
        rintro rfl
        exact h.slash_notMem List.mem_cons_self
      simp [isAbsolute, hb]

end IsComponent

/-- A component of an absolute path stands behind what the path is without it. -/
theorem significant_child
    (dir : Path) {segment : Bytes} (h : IsComponent segment) :
    significant (dir.child segment).bytes = significant dir.bytes ++ [segment] := by
  rw [child, join, h.isAbsolute_eq, if_neg Bool.false_ne_true]
  split
  · rename_i hend
    rcases hend with hnil | hlast
    · simp [hnil, h.significant_eq]
    · obtain ⟨front, hfront⟩ := List.getLast?_eq_some_iff.mp hlast
      rw [hfront, List.append_assoc, List.singleton_append, significant_append_slash,
        significant_append_slash, significant_nil, List.append_nil, h.significant_eq]
  · rw [significant_append_slash, h.significant_eq]

theorem isAbsolute_child_of_isComponent
    (dir : Path) {segment : Bytes} (h : IsComponent segment) :
    (dir.child segment).isAbsolute = dir.isAbsolute := by
  rw [child, join, h.isAbsolute_eq, if_neg Bool.false_ne_true]
  cases hdir : dir.bytes with
  | nil =>
      have hsegment := h.isAbsolute_eq
      simpa [isAbsolute, hdir] using hsegment
  | cons b rest => split <;> simp [isAbsolute, hdir]

theorem zero_notMem_child
    {dir : Path} (hdir : (0 : UInt8) ∉ dir.bytes) {segment : Bytes} (h : IsComponent segment)
    (hzero : (0 : UInt8) ∉ segment) :
    (0 : UInt8) ∉ (dir.child segment).bytes := by
  have hslash : (0 : UInt8) ≠ slash := by decide
  rw [child, join, h.isAbsolute_eq, if_neg Bool.false_ne_true]
  split <;> simp [hdir, hzero, hslash]

theorem length_child_le_of_isComponent
    (dir : Path) {segment : Bytes} (h : IsComponent segment) :
    (dir.child segment).bytes.length ≤ dir.bytes.length + (segment.length + 1) := by
  rw [child, join, h.isAbsolute_eq, if_neg Bool.false_ne_true]
  split
  · rw [List.length_append]
    exact Nat.add_le_add_left (Nat.le_succ _) _
  · rw [List.length_append, List.length_cons]

/-- How much room components take, each with a slash. -/
def extent : List Bytes → Nat
  | [] => 0
  | segment :: rest => segment.length + 1 + extent rest

/-- An absolute path with some components behind it. -/
theorem foldl_child
    {dir : Path} (hdir : dir.isAbsolute = true) (hzero : (0 : UInt8) ∉ dir.bytes)
    {segments : List Bytes} (h : ∀ segment ∈ segments, IsComponent segment)
    (hzeros : ∀ segment ∈ segments, (0 : UInt8) ∉ segment) :
    (segments.foldl child dir).isAbsolute = true ∧ (0 : UInt8) ∉ (segments.foldl child dir).bytes ∧
      significant (segments.foldl child dir).bytes = significant dir.bytes ++ segments ∧
        (segments.foldl child dir).bytes.length ≤ dir.bytes.length + extent segments := by
  induction segments generalizing dir with
  | nil => simp [hdir, hzero, extent]
  | cons segment rest ih =>
      have hsegment := h segment List.mem_cons_self
      obtain ⟨habs, hnotMem, hsignificant, hlen⟩ :=
        ih ((isAbsolute_child_of_isComponent dir hsegment).trans hdir)
          (zero_notMem_child hzero hsegment (hzeros segment List.mem_cons_self))
          (fun other hmem => h other (List.mem_cons_of_mem _ hmem))
          fun other hmem => hzeros other (List.mem_cons_of_mem _ hmem)
      refine ⟨habs, hnotMem, ?_, ?_⟩
      · rw [List.foldl_cons, hsignificant, significant_child dir hsegment, List.append_assoc,
          List.singleton_append]
      · have hchild := length_child_le_of_isComponent dir hsegment
        rw [List.foldl_cons]
        rw [extent]
        omega

/-- Components have their room in the text of a path, and the first slash is one more. -/
theorem extent_segments (bytes : Bytes) :
    extent (segments bytes) = bytes.length + 1 := by
  induction hlen : bytes.length using Nat.strongRecOn generalizing bytes with
  | ind n ih =>
      by_cases hslash : slash ∈ bytes
      · obtain ⟨front, back, rfl, hfront⟩ := List.eq_append_cons_of_mem hslash
        have hback := ih back.length (by simp [← hlen]; omega) back rfl
        rw [segments_append_slash, segments_of_notMem hfront, List.singleton_append, ← hlen]
        rw [extent, hback, List.length_append, List.length_cons]
        omega
      · simp [segments_of_notMem hslash, extent, hlen]

theorem extent_append (front back : List Bytes) :
    extent (front ++ back) = extent front + extent back := by
  induction front with
  | nil => simp [extent]
  | cons segment rest ih => rw [List.cons_append, extent, extent, ih, Nat.add_assoc _ (extent rest)]

theorem extent_dropLast_le (segments : List Bytes) :
    extent segments.dropLast ≤ extent segments := by
  rcases segments.eq_nil_or_concat' with rfl | ⟨front, last, rfl⟩
  · exact Nat.le_refl _
  · rw [List.dropLast_concat, extent_append]
    exact Nat.le_add_right _ _

theorem extent_filter_le (keeps : Bytes → Bool) (segments : List Bytes) :
    extent (segments.filter keeps) ≤ extent segments := by
  induction segments with
  | nil => exact Nat.le_refl _
  | cons segment rest ih =>
      rw [List.filter_cons]
      split
      · exact Nat.add_le_add_left ih _
      · exact Nat.le_trans ih (Nat.le_add_left _ _)

theorem extent_significant_le
    {path : Path} (h : path.isAbsolute = true) :
    extent (significant path.bytes) ≤ path.bytes.length := by
  obtain ⟨rest, hrest⟩ := List.head?_eq_some_iff.mp (beq_iff_eq.mp h)
  have hfilter : extent (significant rest) ≤ extent (segments rest) := extent_filter_le _ _
  rw [extent_segments] at hfilter
  rw [hrest, significant_slash]
  exact hfilter

/-! ## The parent of a path -/

theorem slash_notMem_lastSegment (bytes : Bytes) :
    slash ∉ lastSegment bytes := by
  rw [lastSegment, List.mem_reverse]
  intro hmem
  simpa using List.mem_takeWhile_imp hmem

/-- A trimmed body ends in a component. -/
theorem isComponent_lastSegment_trimBody
    {bytes : Bytes} (h : trimBody bytes ≠ []) :
    IsComponent (lastSegment (trimBody bytes)) := by
  refine ⟨?_, slash_notMem_lastSegment _⟩
  fun_induction trimBody bytes with
  | case1 => exact absurd rfl h
  | case2 bytes hne hidle ih => exact ih h
  | case3 bytes hne hidle => simpa using hidle

theorem significant_eq_beforeLast_append
    {bytes : Bytes} (h : IsComponent (lastSegment bytes)) :
    significant bytes = significant (beforeLast bytes) ++ [lastSegment bytes] := by
  rcases eq_beforeLast_append bytes with ⟨-, hlast, hbefore⟩ | hsplit
  · rw [hlast] at h
    rw [hbefore, hlast, h.significant_eq]
    rfl
  · conv_lhs => rw [hsplit]
    rw [significant_append_slash, h.significant_eq]

/-- The path is its parent with one component more. -/
structure Extends (path parent : Path) (last : Bytes) : Prop where
  isAbsolute_eq : parent.isAbsolute = path.isAbsolute
  significant_eq : significant path.bytes = significant parent.bytes ++ [last]
  isPrefix : parent.bytes <+: path.bytes
  isComponent : IsComponent last
  fileName?_eq : path.fileName? = if last = dotdot then none else some last

theorem significant_body (path : Path) :
    significant path.bytes = significant path.body := by
  rw [← significant_lead_append (List.prefix_refl path.body), path.lead_append_body]

/-- A path without a parent has no component. -/
theorem significant_of_parent?_eq_none
    {path : Path} (h : path.parent? = none) :
    significant path.bytes = [] := by
  rw [significant_body, ← significant_trimBody]
  by_cases htrim : trimBody path.body = []
  · rw [htrim, significant_nil]
  · simp [parent?, htrim] at h

/-- A path with a parent extends it, or is a dot. -/
theorem extends_of_parent?_eq_some
    {path parent : Path} (h : path.parent? = some parent) :
    (∃ last, path.Extends parent last) ∨
      path.lead = [dot] ∧ path.fileName? = none ∧ significant path.bytes = [] ∧
        parent = ⟨[]⟩ := by
  have hbody := (significant_trimBody path.body).trans path.significant_body.symm
  by_cases htrim : trimBody path.body = []
  · right
    have hdot : path.lead = [dot] := by
      by_contra hlead
      simp [parent?, htrim, hlead] at h
    refine ⟨hdot, by simp [fileName?, htrim], ?_, ?_⟩
    · rw [← hbody, htrim, significant_nil]
    · simpa [parent?, htrim, hdot] using h.symm
  · left
    have hlast := isComponent_lastSegment_trimBody htrim
    have hparent : parent = ⟨path.lead ++ trimBody (beforeLast (trimBody path.body))⟩ := by
      simpa [parent?, htrim] using h.symm
    have hbefore : trimBody (beforeLast (trimBody path.body)) <+: path.body :=
      (trimBody_isPrefix _).trans ((List.take_prefix _ _).trans (trimBody_isPrefix _))
    refine ⟨lastSegment (trimBody path.body), ?_, ?_, ?_, hlast, ?_⟩
    · rw [hparent, isAbsolute_lead_append hbefore]
    · rw [hparent, significant_lead_append hbefore, significant_trimBody, ← hbody,
        ← significant_eq_beforeLast_append hlast]
    · rw [hparent, ← path.lead_append_body]
      exact (List.prefix_append_right_inj _).mpr hbefore
    · simp [fileName?, htrim]

/-- Above an absolute path are absolute paths. -/
theorem exists_extends_of_isAbsolute
    {path parent : Path} (habs : path.isAbsolute = true) (h : path.parent? = some parent) :
    ∃ last, path.Extends parent last := by
  rcases extends_of_parent?_eq_some h with hextends | ⟨hlead, -⟩
  · exact hextends
  · simp [lead, habs, slash, dot] at hlead

theorem ancestors_of_parent?_eq_some
    {path parent : Path} (h : path.parent? = some parent) :
    path.ancestors = path :: parent.ancestors := by
  rw [ancestors]
  split
  · rename_i other hother
    rw [Option.some.inj (h.symm.trans hother)]
  · rename_i hnone
    rw [hnone] at h
    cases h

theorem ancestors_of_parent?_eq_none
    {path : Path} (h : path.parent? = none) :
    path.ancestors = [path] := by
  rw [ancestors]
  split
  · rename_i other hother
    rw [hother] at h
    cases h
  · rfl

/-- Induction from an absolute path to those above it. -/
theorem ascend
    {motive : (path : Path) → path.isAbsolute = true → Prop}
    (root : ∀ (path : Path) (habs : path.isAbsolute = true), path.parent? = none →
      motive path habs)
    (step : ∀ (path parent : Path) (last : Bytes) (habs : path.isAbsolute = true)
      (hparentAbs : parent.isAbsolute = true), path.parent? = some parent →
        path.Extends parent last → motive parent hparentAbs → motive path habs)
    (path : Path) (habs : path.isAbsolute = true) :
    motive path habs := by
  induction hlen : path.bytes.length using Nat.strongRecOn generalizing path with
  | ind n ih =>
      cases hparent : path.parent? with
      | none => exact root path habs hparent
      | some parent =>
          obtain ⟨last, hextends⟩ := exists_extends_of_isAbsolute habs hparent
          have hparentAbs := hextends.isAbsolute_eq.trans habs
          have hshorter := length_parent?_lt hparent
          exact step path parent last habs hparentAbs hparent hextends
            (ih _ (hlen ▸ hshorter) parent hparentAbs rfl)

/-- Induction from any path to those above it.  One without components, such as a dot, is where the
induction begins. -/
theorem climb
    {motive : Path → Prop} (start : ∀ path, significant path.bytes = [] → motive path)
    (step : ∀ path parent last, path.parent? = some parent → path.Extends parent last →
      motive parent → motive path) (path : Path) :
    motive path := by
  induction hlen : path.bytes.length using Nat.strongRecOn generalizing path with
  | ind n ih =>
      cases hparent : path.parent? with
      | none => exact start path (significant_of_parent?_eq_none hparent)
      | some parent =>
          rcases extends_of_parent?_eq_some hparent with ⟨last, hextends⟩ | ⟨-, -, hnil, -⟩
          · have hshorter := length_parent?_lt hparent
            exact step path parent last hparent hextends (ih _ (hlen ▸ hshorter) parent rfl)
          · exact start path hnil

theorem parent?_nil :
    parent? ⟨[]⟩ = none := by
  have hbody : trimBody [] = [] := by simp [trimBody]
  have hlead : lead ⟨[]⟩ = [] := by decide
  rw [parent?, body, hlead, List.drop_nil, hbody]
  simp

/-- Above a path without components there is nothing, but for the empty path above a dot. -/
theorem eq_or_eq_nil_of_mem_ancestors
    {path above : Path} (hnil : significant path.bytes = []) (h : above ∈ path.ancestors) :
    above = path ∨ path.isAbsolute = false ∧ above = ⟨[]⟩ := by
  cases hparent : path.parent? with
  | none =>
      rw [ancestors_of_parent?_eq_none hparent] at h
      exact .inl (List.mem_singleton.mp h)
  | some parent =>
      rw [ancestors_of_parent?_eq_some hparent, List.mem_cons] at h
      rcases extends_of_parent?_eq_some hparent with ⟨last, hextends⟩ | ⟨hlead, -, -, rfl⟩
      · rw [hextends.significant_eq] at hnil
        exact absurd hnil (List.concat_ne_nil _ _)
      · rw [ancestors_of_parent?_eq_none parent?_nil, List.mem_singleton] at h
        refine h.imp_right fun h => ⟨?_, h⟩
        cases habs : path.isAbsolute with
        | false => rfl
        | true => simp [lead, habs, slash, dot] at hlead

/-- What is above a path is part of it and starts where it starts. -/
theorem isPrefix_of_mem_ancestors
    {path above : Path} (h : above ∈ path.ancestors) :
    above.isAbsolute = path.isAbsolute ∧ above.bytes <+: path.bytes ∧
      significant above.bytes <+: significant path.bytes := by
  induction path using climb with
  | start path hnil =>
      rcases eq_or_eq_nil_of_mem_ancestors hnil h with rfl | ⟨hrelative, rfl⟩
      · exact ⟨rfl, List.prefix_refl _, List.prefix_refl _⟩
      · exact ⟨hrelative.symm, List.nil_prefix, List.nil_prefix⟩
  | step path parent last hparent hextends ih =>
      rw [ancestors_of_parent?_eq_some hparent, List.mem_cons] at h
      rcases h with rfl | h
      · exact ⟨rfl, List.prefix_refl _, List.prefix_refl _⟩
      · obtain ⟨haboveAbs, hbytes, hsignificant⟩ := ih h
        refine ⟨haboveAbs.trans hextends.isAbsolute_eq, hbytes.trans hextends.isPrefix,
          hsignificant.trans ?_⟩
        rw [hextends.significant_eq]
        exact List.prefix_append _ _

/-! ## Paths from the root -/

/-- A path names a directory from wherever one stands. -/
structure Rooted (path : Path) : Prop where
  isAbsolute_eq : path.isAbsolute = true
  zero_notMem : (0 : UInt8) ∉ path.bytes

theorem Rooted.ne_nil
    {path : Path} (h : path.Rooted) :
    path.bytes ≠ [] := by
  intro hnil
  have habs := h.isAbsolute_eq
  simp [isAbsolute, hnil] at habs

theorem rooted_slash :
    Rooted ⟨[slash]⟩ :=
  ⟨rfl, by decide⟩

theorem Rooted.of_mem_ancestors
    {path above : Path} (h : path.Rooted) (hmem : above ∈ path.ancestors) :
    above.Rooted ∧ above.bytes.length ≤ path.bytes.length := by
  obtain ⟨hsame, hpre, -⟩ := isPrefix_of_mem_ancestors hmem
  have habs := hsame.trans h.isAbsolute_eq
  exact ⟨⟨habs, fun hzero => h.zero_notMem (hpre.subset hzero)⟩, hpre.length_le⟩

/-- A path with a slash behind it, if it has none yet. -/
theorem join_nil_spec
    {path : Path} (h : path.Rooted) :
    (path.join ⟨[]⟩).Rooted ∧ significant (path.join ⟨[]⟩).bytes = significant path.bytes := by
  have hslash : (0 : UInt8) ≠ slash := by decide
  obtain ⟨rest, hrest⟩ := List.head?_eq_some_iff.mp (beq_iff_eq.mp h.isAbsolute_eq)
  rw [join, if_neg (by simp [isAbsolute])]
  split
  · rw [List.append_nil]
    exact ⟨h, rfl⟩
  · refine ⟨⟨by simp [isAbsolute, hrest], ?_⟩, ?_⟩
    · simp [h.zero_notMem, hslash]
    · rw [significant_append_slash, significant_nil, List.append_nil]

/-- Seen from a working directory, a path has the components of both. -/
theorem absolute_spec
    {cwd path : Path} (hcwd : path.isAbsolute = false → cwd.Rooted)
    (hzero : (0 : UInt8) ∉ path.bytes) :
    (absolute cwd path).Rooted ∧
      significant (absolute cwd path).bytes =
        (if path.isAbsolute then [] else significant cwd.bytes) ++ significant path.bytes := by
  have hcomponents : path.components = significant path.bytes := path.significant_body.symm
  have hfold : ∀ {start : Path}, start.Rooted →
      (path.components.foldl child start).Rooted ∧
        significant (path.components.foldl child start).bytes =
          significant start.bytes ++ significant path.bytes := by
    intro start hstart
    rw [hcomponents]
    obtain ⟨habs, hnotMem, hsignificant, -⟩ := foldl_child hstart.isAbsolute_eq hstart.zero_notMem
      (fun _ => isComponent_of_mem_significant) fun _ => zero_notMem_of_mem_significant hzero
    exact ⟨⟨habs, hnotMem⟩, hsignificant⟩
  -- The start is the working directory, or one of the two ways to write the root.
  generalize hstart : (if (! path.isAbsolute) = true then cwd
    else if [slash, slash].isPrefixOf path.bytes && ! [slash, slash, slash].isPrefixOf path.bytes
      then (⟨[slash, slash]⟩ : Path) else ⟨[slash]⟩) = start
  have hrooted : start.Rooted ∧
      significant start.bytes = if path.isAbsolute then [] else significant cwd.bytes := by
    subst hstart
    cases habs : path.isAbsolute with
    | false => exact ⟨hcwd habs, rfl⟩
    | true =>
        rw [if_neg (by simp), if_pos rfl]
        split <;> exact ⟨⟨rfl, by decide⟩, by decide⟩
  obtain ⟨hwhole, hsignificant⟩ := hfold hrooted.1
  rw [hrooted.2] at hsignificant
  simp only [absolute, hstart]
  split
  · obtain ⟨hjoined, hsame⟩ := join_nil_spec hwhole
    exact ⟨hjoined, hsame.trans hsignificant⟩
  · exact ⟨hwhole, hsignificant⟩

end Path

namespace World

open Postbox.Path

/-- The path that names a place from the root has just the room it needs. -/
theorem length_pathOf_le
    {place : Location} (hplace : ∀ name ∈ place, Name.IsPlain name) :
    (pathOf place).bytes.length ≤ max 1 (extent place) := by
  cases place with
  | nil => exact Nat.le_refl 1
  | cons name rest =>
      have hname := hplace name List.mem_cons_self
      have hcomponent := isComponent_of_isPlain hname
      have hfirst : child ⟨[slash]⟩ name = ⟨slash :: name⟩ := by
        rw [child, join, hcomponent.isAbsolute_eq, if_neg Bool.false_ne_true, if_pos (.inr rfl)]
        rfl
      have hrest := fun other hmem => hplace other (List.mem_cons_of_mem _ hmem)
      obtain ⟨-, -, -, hlen⟩ := foldl_child (isAbsolute_child_of_isComponent ⟨[slash]⟩ hcomponent)
        (zero_notMem_child rooted_slash.zero_notMem hcomponent hname.zero_notMem)
        (fun other hmem => isComponent_of_isPlain (hrest other hmem))
        fun other hmem => (hrest other hmem).zero_notMem
      rw [pathOf, List.foldl_cons]
      refine Nat.le_trans hlen (Nat.le_trans ?_ (Nat.le_max_right _ _))
      simp [hfirst, extent]

theorem pathOf_spec
    {place : Location} (hplace : ∀ name ∈ place, Name.IsPlain name) :
    (pathOf place).Rooted ∧ significant (pathOf place).bytes = place := by
  obtain ⟨habs, hzero, hsignificant, -⟩ := foldl_child rooted_slash.isAbsolute_eq
    rooted_slash.zero_notMem (fun name hmem => isComponent_of_isPlain (hplace name hmem))
    fun name hmem => (hplace name hmem).zero_notMem
  refine ⟨⟨habs, hzero⟩, ?_⟩
  rw [pathOf, hsignificant]
  rfl

end World

end Postbox
