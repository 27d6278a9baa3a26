import Mathlib.Order.Bounds.Basic
import Postbox.Proofs.IdentifierOrder
import Postbox.Proofs.Issuing

/-!
# Identifiers follow the clock

The ticks of an identifier are the least that are not behind the clock and have grown with every
call: the greatest of the number of calls so far and of all readings so far, each with the number of
calls since.  So identifiers, their texts and the names of their files grow from call to call,
whatever the clock reads and whatever the suffixes are.
-/

namespace Postbox.Issuer

variable {issuer : Issuer} {calls : List (UInt64 × UInt32)} {call : UInt64 × UInt32} {m n t : Nat}
  {id : MessageId}

/-! ## One call -/

/-- As long as the counter does not run over, the ticks are the clock's, or one more than before. -/
theorem toNat_nextTicks
    {now : UInt64} (h : issuer.HasRoom now) :
    (issuer.nextTicks now).toNat = max now.toNat (issuer.last.toNat + 1) := by
  rw [nextTicks]
  split
  · rename_i hlater
    exact (Nat.max_eq_left (UInt64.lt_iff_toNat_lt.mp hlater)).symm
  · rename_i hstill
    have hle : now.toNat ≤ issuer.last.toNat :=
      Nat.le_of_not_lt fun hlt => hstill (UInt64.lt_iff_toNat_lt.mpr hlt)
    have hroom := h.resolve_left hstill
    rw [Nat.max_eq_right (Nat.le_succ_of_le hle), UInt64.toNat_add]
    exact Nat.mod_eq_of_lt hroom

/-! ## Successive calls -/

/-- The issuer after it has handed out identifiers at some calls. -/
def after (issuer : Issuer) (calls : List (UInt64 × UInt32)) : Issuer :=
  calls.foldl (fun issuer call => (issuer.issue call.1 call.2).2) issuer

theorem getElem?_issueAll (issuer : Issuer) (calls : List (UInt64 × UInt32)) (n : Nat) :
    (issuer.issueAll calls)[n]? =
      calls[n]?.map fun call => ((issuer.after (calls.take n)).issue call.1 call.2).1 := by
  induction calls generalizing issuer n with
  | nil => rfl
  | cons call rest ih =>
      cases n with
      | zero => rfl
      | succ n =>
          rw [issueAll, List.getElem?_cons_succ, List.getElem?_cons_succ, ih, List.take_succ_cons]
          rfl

theorem length_issueAll (issuer : Issuer) (calls : List (UInt64 × UInt32)) :
    (issuer.issueAll calls).length = calls.length := by
  induction calls generalizing issuer with
  | nil => rfl
  | cons call rest ih => rw [issueAll, List.length_cons, List.length_cons, ih]

theorem last_after_take_succ
    (h : calls[n]? = some call) :
    (issuer.after (calls.take (n + 1))).last =
      (issuer.after (calls.take n)).nextTicks call.1 := by
  rw [after, List.take_add_one, h, List.foldl_append]
  rfl

/-- The issuer remembers the ticks of the identifier that it handed out last. -/
theorem last_after
    (h : (issuer.issueAll calls)[n]? = some id) :
    (issuer.after (calls.take (n + 1))).last = id.ticks := by
  rw [getElem?_issueAll, Option.map_eq_some_iff] at h
  obtain ⟨call, hcall, rfl⟩ := h
  exact last_after_take_succ hcall

/-! ## What ticks have to keep up with -/

/-- The number of calls, and every reading of the clock at one of them with the number of calls
since. -/
def paces (calls : List (UInt64 × UInt32)) (n : Nat) : Set Nat :=
  {t | t = n ∨ ∃ i call, i < n ∧ calls[i]? = some call ∧ t = call.1.toNat + (n - (i + 1))}

/-- With every call all of this grows by one. -/
theorem add_mem_paces
    (h : t ∈ paces calls m) (hmn : m ≤ n) :
    t + (n - m) ∈ paces calls n := by
  rcases h with rfl | ⟨i, call, hi, hcall, rfl⟩
  · exact .inl (Nat.add_sub_of_le hmn)
  · exact .inr ⟨i, call, Nat.lt_of_lt_of_le hi hmn, hcall, by omega⟩

/-- The reading at the next call comes in addition. -/
theorem isGreatest_paces_succ
    (h : IsGreatest (paces calls n) t) (hcall : calls[n]? = some call) :
    IsGreatest (paces calls (n + 1)) (max call.1.toNat (t + 1)) := by
  constructor
  · rcases Nat.le_total (t + 1) call.1.toNat with hle | hle
    · rw [Nat.max_eq_left hle]
      exact .inr ⟨n, call, Nat.lt_succ_self n, hcall, by omega⟩
    · rw [Nat.max_eq_right hle]
      have hgrown := add_mem_paces h.1 (Nat.le_add_right n 1)
      rwa [Nat.add_sub_cancel_left] at hgrown
  · rintro s (rfl | ⟨i, other, hi, hother, rfl⟩)
    · exact le_max_of_le_right (Nat.succ_le_succ (h.2 (.inl rfl)))
    · rcases Nat.lt_succ_iff_lt_or_eq.mp hi with hlt | rfl
      · have hold := h.2 (.inr ⟨i, other, hlt, hother, rfl⟩)
        exact le_max_of_le_right (by omega)
      · obtain rfl := Option.some.inj (hcall.symm.trans hother)
        exact le_max_of_le_left (by omega)

/-! ## A new issuer -/

/-- Before the last one, no ticks are the greatest there are. -/
def NeverFull (calls : List (UInt64 × UInt32)) : Prop :=
  ∀ id ∈ (({} : Issuer).issueAll calls).dropLast, id.ticks.toNat + 1 < UInt64.size

theorem NeverFull.hasRoom
    (h : NeverFull calls) (hn : n < calls.length) (now : UInt64) :
    (({} : Issuer).after (calls.take n)).HasRoom now := by
  refine .inr ?_
  cases n with
  | zero => exact (by decide : 0 + 1 < UInt64.size)
  | succ n =>
      have hlen : n < (({} : Issuer).issueAll calls).length := by
        rw [length_issueAll]
        omega
      have hid := List.getElem?_eq_getElem hlen
      rw [last_after hid]
      refine h _ (List.mem_of_getElem? (i := n) ?_)
      rw [List.getElem?_dropLast, length_issueAll, if_pos (by omega), hid]

/-- What a new issuer remembers is the greatest of what its ticks have to keep up with. -/
theorem isGreatest_last_after
    (h : NeverFull calls) (hn : n ≤ calls.length) :
    IsGreatest (paces calls n) (({} : Issuer).after (calls.take n)).last.toNat := by
  induction n with
  | zero =>
      refine ⟨.inl rfl, ?_⟩
      rintro s (rfl | ⟨i, call, hi, -⟩)
      · exact Nat.le_refl _
      · exact absurd hi (Nat.not_lt_zero i)
  | succ n ih =>
      have hcall := List.getElem?_eq_getElem hn
      rw [last_after_take_succ hcall, toNat_nextTicks (h.hasRoom hn _)]
      exact isGreatest_paces_succ (ih (Nat.le_of_lt hn)) hcall

/-- The identifiers have the suffixes asked for, and the ticks that the clock and the need to grow
make necessary; they come in the order of the calls. -/
structure FollowsClock (calls : List (UInt64 × UInt32)) (ids : List MessageId) : Prop where
  length_eq : ids.length = calls.length
  isGreatest_ticks : ∀ {n : Nat} {id : MessageId}, ids[n]? = some id →
    IsGreatest (paces calls (n + 1)) id.ticks.toNat
  not_behind : ∀ {n : Nat} {id : MessageId} {call : UInt64 × UInt32}, ids[n]? = some id →
    calls[n]? = some call → call.1 ≤ id.ticks ∧ id.suffix = call.2
  ticks_increase : ids.Pairwise fun a b => a.ticks < b.ticks
  ids_increase : ids.Pairwise fun a b => compare a b = .lt
  texts_increase : ids.Pairwise fun a b => a.text < b.text
  names_increase : ids.Pairwise fun a b => Bytes.ofText a.fileName < Bytes.ofText b.fileName
  nodup : ids.Nodup

/-- A new issuer follows the clock as closely as growing ticks can, as long as they do not reach the
end of their range. -/
theorem issueAll_follows_clock
    (h : ∀ id ∈ (({} : Issuer).issueAll calls).dropLast, id.ticks.toNat + 1 < UInt64.size) :
    FollowsClock calls (({} : Issuer).issueAll calls) := by
  have hgreatest : ∀ {n id}, (({} : Issuer).issueAll calls)[n]? = some id →
      IsGreatest (paces calls (n + 1)) id.ticks.toNat := by
    intro n id hid
    obtain ⟨hn, -⟩ := List.getElem?_eq_some_iff.mp hid
    rw [length_issueAll] at hn
    rw [← last_after hid]
    exact isGreatest_last_after h hn
  -- What an earlier identifier has kept up with has grown since.
  have hticks : (({} : Issuer).issueAll calls).Pairwise
      fun a b => a.ticks.toNat < b.ticks.toNat := by
    rw [List.pairwise_iff_getElem]
    intro i j hi hj hij
    have hearlier := hgreatest (List.getElem?_eq_getElem hi)
    have hlater := hgreatest (List.getElem?_eq_getElem hj)
    have hgrown := hlater.2 (add_mem_paces hearlier.1 (Nat.succ_le_succ (Nat.le_of_lt hij)))
    omega
  have hvalues := hticks.imp MessageId.value_lt_of_ticks_lt
  refine ⟨length_issueAll _ _, hgreatest, fun {n id call} hid hcall => ⟨?_, ?_⟩,
    hticks.imp UInt64.lt_iff_toNat_lt.mpr, hvalues.imp Nat.compare_eq_lt.mpr,
    hvalues.imp MessageId.text_lt_text,
    hvalues.imp fun hlt => Bytes.ofText_lt_ofText_iff.mpr (MessageId.fileName_lt_fileName hlt),
    hvalues.imp fun hlt => ne_of_apply_ne MessageId.value (Nat.ne_of_lt hlt)⟩
  · rw [UInt64.le_iff_toNat_le]
    exact (hgreatest hid).2 (.inr ⟨n, call, Nat.lt_succ_self n, hcall, by omega⟩)
  · rw [getElem?_issueAll, hcall, Option.map_some] at hid
    rw [← Option.some.inj hid]
    rfl

/-- The clock stands still, jumps back and jumps ahead. -/
theorem issueAll_follows_unsteady_clock :
    let calls := [(0, 7), (1000, 5), (1000, 3), (500, 0xFFFFFFFF), (2000, 0), (0, 1)]
    (∀ id ∈ (({} : Issuer).issueAll calls).dropLast, id.ticks.toNat + 1 < UInt64.size) ∧
      (({} : Issuer).issueAll calls).map MessageId.ticks = [1, 1000, 1001, 1002, 2000, 2001] ∧
        FollowsClock calls (({} : Issuer).issueAll calls) := by
  intro calls
  have h : ∀ id ∈ (({} : Issuer).issueAll calls).dropLast, id.ticks.toNat + 1 < UInt64.size := by
    decide
  exact ⟨h, by decide, issueAll_follows_clock h⟩

end Postbox.Issuer
