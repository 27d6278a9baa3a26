import Postbox.Path

/-!
# Ancestors of a path

The directories above a path as far as its text tells: a parent has a shorter path, so the list of
all of them is finite.
-/

namespace Postbox.Path

theorem length_trimBody_le (bytes : Bytes) : (trimBody bytes).length ≤ bytes.length := by
  fun_induction trimBody bytes with
  | case1 => exact Nat.zero_le _
  | case2 bytes hne _ ih => exact Nat.le_trans ih (Nat.le_of_lt (length_beforeLast_lt hne))
  | case3 => exact Nat.le_refl _

theorem length_lead_le (path : Path) : path.lead.length ≤ path.bytes.length := by
  unfold lead isAbsolute
  split
  · rename_i h
    cases hb : path.bytes with
    | nil => simp [hb] at h
    | cons _ _ => simp
  · split
    · rename_i h
      cases hb : path.bytes with
      | nil => simp [hb] at h
      | cons _ _ => simp
    · exact Nat.zero_le _

/-- A parent has a shorter path. -/
theorem length_parent?_lt {path parent : Path} (h : path.parent? = some parent) :
    parent.bytes.length < path.bytes.length := by
  have hlead := path.length_lead_le
  have hbody : path.body.length = path.bytes.length - path.lead.length := by simp [body]
  have htrim := length_trimBody_le path.body
  simp only [parent?] at h
  split at h
  · rename_i hne
    obtain rfl := Option.some.inj h
    have h1 := length_beforeLast_lt hne
    have h2 := length_trimBody_le (beforeLast (trimBody path.body))
    simp only [List.length_append]
    omega
  · split at h
    · rename_i hdot
      obtain rfl := Option.some.inj h
      have : path.lead.length = 1 := by rw [hdot]; rfl
      simp only [List.length_nil]
      omega
    · cases h

/-- A path, its parent, the parent of that, and so on. -/
def ancestors (path : Path) : List Path :=
  path :: match _h : path.parent? with
    | some parent => parent.ancestors
    | none => []
termination_by path.bytes.length
decreasing_by exact length_parent?_lt ‹_›

end Postbox.Path
