import Mathlib.Logic.Relation
import Postbox.Proofs.Company
import Postbox.Proofs.Deliveries
import Postbox.Proofs.Leftovers
import Postbox.Proofs.Sleeping

/-!
# Waiting is receiving later

Whoever waits looks into the mailbox again and again, while others deliver.  A look that finds
nothing changes nothing, so the last look is the only one that matters: it does what receiving does
at that moment.
-/

namespace Postbox

/-! ## What comes in meanwhile -/

/-- A message file has been put into a directory, in full. -/
inductive Tree.GainsOne : Tree → Tree → Prop where
  | put {tree : Tree} {home : Location} {name : String} {content : Bytes}
      (hhome : tree.get? home = some .directory) (hvisible : MessageName.isVisible name = true)
      (hplain : Name.IsPlain (Bytes.ofText name))
      (hshort : (Bytes.ofText name).length ≤ Path.maxName)
      (hold : tree.child? home name ≠ some .directory) :
      GainsOne tree (tree.write home name content)

/-- Nothing has happened to the files but complete deliveries, any number of them. -/
structure World.Gains (world later : World) : Prop where
  cwd_eq : later.cwd = world.cwd
  tree : Relation.ReflTransGen Tree.GainsOne world.tree later.tree

namespace Tree

section Gains

variable {tree after : Tree} {home place : Location} {name other : String}

theorem GainsOne.sound
    (h : GainsOne tree after) (hsound : tree.Sound) :
    after.Sound := by
  cases h with
  | put hhome hvisible hplain hshort hold => exact hsound.write hhome hplain hshort hold

/-- What is removed from one directory is missing in no other. -/
theorem message?_unlink_place (tree : Tree) (home place : Location) (target name : String) :
    (tree.unlink home target).message? place name =
      if place = home ∧ name = target then none else tree.message? place name := by
  rw [message?, message?, child?, child?, unlink, get?_erase _ _ place_ne_nil]
  simp only [place_eq_iff]
  split <;> split <;> simp_all

theorem message?_unlink_place_of_hidden
    {target : String} (htarget : MessageName.isVisible target = false) (tree : Tree)
    (home place : Location) (name : String) :
    (tree.unlink home target).message? place name = tree.message? place name := by
  rw [message?_unlink_place]
  split
  · rename_i heq
    rw [heq.2, message?_of_hidden htarget]
  · rfl

theorem message?_write_place
    {target : String} (htarget : MessageName.isVisible target = true) (tree : Tree)
    (home place : Location) (content : Bytes) (name : String) :
    (tree.write home target content).message? place name =
      if place = home ∧ name = target then some content else tree.message? place name := by
  rw [message?, message?, child?, child?, write, get?_put _ _ _ place_ne_nil]
  simp only [place_eq_iff]
  split <;> split <;> simp_all

/-- A delivery may replace a message, but afterwards none is missing. -/
theorem GainsOne.message?_ne_none
    (h : GainsOne tree after) (hmessage : tree.message? place other ≠ none) :
    after.message? place other ≠ none := by
  cases h with
  | put hhome hvisible hplain hshort hold =>
      rw [message?_write_place hvisible]
      split
      · exact Option.some_ne_none _
      · exact hmessage

theorem sound_of_gains
    (h : Relation.ReflTransGen GainsOne tree after) (hsound : tree.Sound) :
    after.Sound := by
  induction h with
  | refl => exact hsound
  | tail _ hstep ih => exact hstep.sound ih

theorem message?_ne_none_of_gains
    (h : Relation.ReflTransGen GainsOne tree after) (hmessage : tree.message? place other ≠ none) :
    after.message? place other ≠ none := by
  induction h with
  | refl => exact hmessage
  | tail _ hstep ih => exact hstep.message?_ne_none ih

end Gains

end Tree

/-- Of the messages that were there, those for which `gone` holds are not there any more. -/
def World.Loses (world later : World) (gone : Location → String → Prop) : Prop :=
  ∀ place name, world.tree.message? place name ≠ none →
    (later.tree.message? place name = none ↔ gone place name)

/-- Every complete delivery, by whatever path, is such an event. -/
theorem World.gains_of_deliver
    {sender : Mailbox} {world after : World} {home : Location} {id : MessageId} {body : String}
    {sync : Bool} {path : Path} (hopens : sender.Opens world home)
    (hok : Action.outcome (sender.deliver id body sync) world = (.ok path, after)) :
    world.Gains after := by
  obtain ⟨hnone, -, rfl⟩ := hopens.of_deliver_eq_ok hok
  obtain ⟨hfits, -, hold⟩ := Mailbox.deliveryError?_eq_none_iff.mp hnone
  have hname := Mailbox.admits_fileName hfits
  refine ⟨rfl, .single ?_⟩
  exact .put hopens.get?_eq (MessageName.isVisible_fileName id) hname.plain hname.short hold

/-! ## A world where messages arrive -/

/-- All that other programs are going to put in place are messages. -/
def World.ExpectsMessages (world : World) : Prop :=
  ∀ arrival ∈ world.arrivals, ∃ home name, arrival.location = home ++ [Bytes.ofText name] ∧
    MessageName.isVisible name = true ∧ Name.IsPlain (Bytes.ofText name) ∧
      (Bytes.ofText name).length ≤ Path.maxName

section Arrivals

variable {world : World}

/-- A message that is put in place is gained, or it cannot be put there. -/
theorem Tree.gains_place
    {home : Location} {name : String} (hvisible : MessageName.isVisible name = true)
    (hplain : Name.IsPlain (Bytes.ofText name))
    (hshort : (Bytes.ofText name).length ≤ Path.maxName) (tree : Tree) (content : Bytes) :
    Relation.ReflTransGen Tree.GainsOne tree
      (World.place tree (home ++ [Bytes.ofText name]) content) := by
  rw [World.place, List.dropLast_concat]
  split
  · rename_i hhome hfree
    exact .single (.put hhome hvisible hplain hshort (by simp [child?, hfree]))
  · rename_i hhome hfile
    exact .single (.put hhome hvisible hplain hshort (by simp [child?, hfile]))
  · exact .refl

theorem World.ExpectsMessages.gains_wait
    (h : world.ExpectsMessages) (duration : Duration) :
    world.Gains (world.wait duration) := by
  refine ⟨rfl, World.wait_rel (fun _ => .refl) .trans (fun arrival harrival tree => ?_) duration⟩
  obtain ⟨home, name, hlocation, hvisible, hplain, hshort⟩ := h arrival harrival
  rw [hlocation]
  exact Tree.gains_place hvisible hplain hshort tree arrival.content

theorem World.ExpectsMessages.answer
    (h : world.ExpectsMessages) {α : Type} (request : Request α) :
    (world.answer request).2.ExpectsMessages := by
  have hchange : ∀ result, (world.change result).2.ExpectsMessages := by
    intro result
    cases result <;> exact h
  cases request with
  | create path => exact hchange _
  | append path content => exact hchange _
  | rename source target => exact hchange _
  | remove path => exact hchange _
  | sleep duration => exact fun arrival hlater => h arrival (world.arrivals_wait_subset _ hlater)
  | _ => exact h

/-- So every run in a world where messages arrive is one among others who deliver. -/
theorem World.ExpectsMessages.exists_runsAmid
    (h : world.ExpectsMessages) {α : Type} (procedure : Procedure α) :
    ∃ sleeps, procedure.RunsAmid World.Gains world sleeps (procedure.run world).1
      (procedure.run world).2 :=
  Procedure.exists_runsAmid_run World.ExpectsMessages (fun request _ h => h.answer request)
    (fun _ _ h => h.gains_wait _) procedure h

end Arrivals

/-! ## Looking into the mailbox -/

namespace Endpoint

/-- There is nothing to receive, and whoever tries leaves everything as it is. -/
structure FindsNothing (endpoint : Endpoint) (world : World) : Prop where
  /-- A message whose path is too long cannot be seen. -/
  message?_eq_none : ∃ home, endpoint.mailbox.Opens world home ∧
    ∀ name, Mailbox.Fits (endpoint.mailbox.entry name) → world.tree.message? home name = none
  pending_eq : Action.outcome endpoint.pending world = (.ok [], world)
  receive_eq : Action.outcome endpoint.receive world = (.error (.noMessage endpoint.home), world)

/-- One look after the other finds nothing, and during the sleep after each of them, of which the
list holds the worlds before and after, others deliver. -/
inductive LooksInVain (endpoint : Endpoint) : World → List (World × World) → World → Prop where
  | nil (world : World) : LooksInVain endpoint world [] world
  | cons {world later last : World} {event : Event} {sleeps : List (World × World)}
      (hnothing : endpoint.FindsNothing world) (hgains : world.Gains later)
      (h : LooksInVain endpoint later sleeps last) :
      LooksInVain endpoint world ((world.recorded event, later) :: sleeps) last

/-- How a wait ends that has slept so.  Before the last look there were none but vain ones. -/
inductive Concludes (endpoint : Endpoint) (start : World) (sleeps : List (World × World)) :
    Except MailError String → World → Prop where
  /-- The last look is a receipt.  It has removed one message and nothing else that is visible. -/
  | received {last after : World} {home : Location} {name body : String}
      (hvain : endpoint.LooksInVain start sleeps last)
      (hreceive : Action.outcome endpoint.receive last = (.ok body, after))
      (hopens : endpoint.mailbox.Opens last home)
      (hmessage : last.tree.message? home name = some (Bytes.ofText body))
      (hremoved : ∀ place other, after.tree.message? place other =
        if place = home ∧ other = name then none else last.tree.message? place other) :
      Concludes endpoint start sleeps (.ok body) after
  /-- The last look is a receipt that fails and removes nothing visible. -/
  | failed {last after : World} {path : Path} {fault : Fault}
      (hvain : endpoint.LooksInVain start sleeps last)
      (hreceive : Action.outcome endpoint.receive last = (.error (.io path fault), after))
      (hkept : ∀ place other, after.tree.message? place other = last.tree.message? place other) :
      Concludes endpoint start sleeps (.error (.io path fault)) after
  /-- The last look is as vain as the others, and the deadline is over. -/
  | timedOut {last : World} {timeout waited : Duration}
      (hvain : endpoint.LooksInVain start sleeps last) (hnothing : endpoint.FindsNothing last)
      (htimeout : endpoint.policy.timeout? = some timeout) (hwaited : timeout ≤ waited) :
      Concludes endpoint start sleeps (.error (.timeout endpoint.home waited)) last

section Looking

variable {endpoint : Endpoint} {world later after start : World} {home : Location}
  {sleeps : List (World × World)} {result : Except MailError String}

theorem findsNothing_of_candidates_eq_nil
    (h : endpoint.mailbox.Opens world home) (hsound : world.tree.Sound)
    (hnil : endpoint.mailbox.candidates world home endpoint.order = []) :
    endpoint.FindsNothing world where
  message?_eq_none := by
    refine ⟨home, h, fun name hfits => Option.eq_none_iff_forall_ne_some.mpr ?_⟩
    intro content hmessage
    have hmem : name ∈ endpoint.mailbox.candidates world home endpoint.order :=
      (h.mem_candidates_iff hsound).mpr ⟨⟨content, hmessage⟩, hfits⟩
    rw [hnil] at hmem
    exact List.not_mem_nil hmem
  pending_eq := by
    rw [pending, h.outcome_pending, hnil]
    rfl
  receive_eq := h.outcome_takeNext_nil hnil

/-- A wait that begins with a vain look ends as it would have without that look. -/
theorem Concludes.cons
    (h : endpoint.Concludes later sleeps result after) (hnothing : endpoint.FindsNothing world)
    (hgains : world.Gains later) (event : Event) :
    endpoint.Concludes world ((world.recorded event, later) :: sleeps) result after := by
  cases h with
  | received hvain hreceive hopens hmessage hremoved =>
      exact .received (.cons hnothing hgains hvain) hreceive hopens hmessage hremoved
  | failed hvain hreceive hkept => exact .failed (.cons hnothing hgains hvain) hreceive hkept
  | timedOut hvain hlast htimeout hwaited =>
      exact .timedOut (.cons hnothing hgains hvain) hlast htimeout hwaited

/-- A look finds nothing, or it settles the matter. -/
theorem findsNothing_or_concludes (endpoint : Endpoint) (hsound : world.tree.Sound) :
    endpoint.FindsNothing world ∨
      (∀ place, (Action.outcome endpoint.receive world).1 ≠ .error (.noMessage place)) ∧
        endpoint.Concludes world [] (Action.outcome endpoint.receive world).1
          (Action.outcome endpoint.receive world).2 := by
  by_cases hopens : ∃ home, endpoint.mailbox.Opens world home
  swap
  · obtain ⟨fault, herror⟩ :=
      Mailbox.exists_takeNext_eq_error_of_not_opens hopens endpoint.order
    have hreceive : Action.outcome endpoint.receive world =
        (.error (.io endpoint.mailbox.dir fault), world) := herror
    rw [hreceive]
    exact .inr ⟨nofun, .failed (.nil _) hreceive fun _ _ => rfl⟩
  obtain ⟨home, hopens⟩ := hopens
  have hresult := hopens.takeResult hsound endpoint.order
  change Mailbox.TakeResult _ _ _ _ (Action.outcome endpoint.receive world) at hresult
  generalize hreceive : Action.outcome endpoint.receive world = outcome at hresult
  cases hresult with
  | nothing hnil => exact .inl (findsNothing_of_candidates_eq_nil hopens hsound hnil)
  | refused hcons hfault =>
      exact .inr ⟨nofun, .failed (.nil _) hreceive fun _ _ => rfl⟩
  | restored hcons hclaimable htext =>
      refine .inr ⟨nofun, .failed (.nil _) hreceive fun place other => ?_⟩
      exact Tree.message?_unlink_place_of_hidden (MessageName.isVisible_claim _) ..
  | taken hcons hclaimable =>
      have hmessage := Tree.message?_eq_some_iff.mpr ⟨hclaimable.visible, hclaimable.file⟩
      refine .inr ⟨nofun, .received (.nil _) hreceive hopens hmessage fun place other => ?_⟩
      exact (Tree.message?_unlink_place_of_hidden (MessageName.isVisible_claim _) ..).trans
        (Tree.message?_unlink_place ..)

/-! ## The whole wait -/

variable {limit made : Nat} {interval clock : Duration} {others : World → World → Prop}
  {result? : Option (Except MailError String)}

/-- A look that settles the matter ends the wait. -/
theorem runsAmid_waitFrom_iff
    (hsettled : ∀ place, (Action.outcome endpoint.receive world).1 ≠ .error (.noMessage place)) :
    (endpoint.policy.waitFrom endpoint.home (endpoint.routine clock) (limit + 1) made
        interval).RunsAmid others world sleeps result? after ↔
      sleeps = [] ∧ result? = some (Action.outcome endpoint.receive world).1 ∧
        after = (Action.outcome endpoint.receive world).2 := by
  have hattempt := Mailbox.neverSleeps_takeNext endpoint.mailbox endpoint.order
  refine Iff.trans hattempt.runsAmid_andThen_iff ?_
  have hreceive : Procedure.run (endpoint.mailbox.takeNext endpoint.order).run world =
      Action.outcome endpoint.receive world := rfl
  rw [hreceive]
  generalize Action.outcome endpoint.receive world = found at hsettled
  obtain ⟨result, found⟩ := found
  cases result with
  | ok body => exact Procedure.runsAmid_done_iff
  | error error =>
      cases error with
      | noMessage place => exact absurd rfl (hsettled place)
      | _ => exact Procedure.runsAmid_done_iff

/-- After a vain look the deadline is over, or others come in before the wait goes on. -/
theorem runsAmid_waitFrom_cases
    (hnothing : endpoint.FindsNothing world)
    (h : (endpoint.policy.waitFrom endpoint.home (endpoint.routine clock) (limit + 1) made
        interval).RunsAmid others world sleeps result? after) :
    (∃ error, endpoint.policy.pause endpoint.home interval (world.clock - clock) = .error error ∧
      sleeps = [] ∧ result? = some (.error error) ∧ after = world) ∨
    ∃ event later rest, sleeps = (world.recorded event, later) :: rest ∧
      others (world.recorded event) later ∧
      (endpoint.policy.waitFrom endpoint.home (endpoint.routine clock) limit (made + 1)
        (endpoint.policy.nextInterval interval)).RunsAmid others later rest result? after := by
  have hattempt := Mailbox.neverSleeps_takeNext endpoint.mailbox endpoint.order
  have hreceive : Procedure.run (endpoint.mailbox.takeNext endpoint.order).run world =
      (.error (.noMessage endpoint.home), world) := hnothing.receive_eq
  have helapsed : (endpoint.routine clock).elapsed.NeverSleeps :=
    (Procedure.neverSleeps_request id).andThen fun _ => trivial
  have hclock : (endpoint.routine clock).elapsed.run world = (world.clock - clock, world) := rfl
  have hread := hattempt.runsAmid_andThen_iff.mp h
  rw [hreceive] at hread
  have hpause := helapsed.runsAmid_andThen_iff.mp hread
  rw [hclock] at hpause
  cases hcase : endpoint.policy.pause endpoint.home interval (world.clock - clock) with
  | error error =>
      simp only [hcase] at hpause
      obtain ⟨hsleeps, hresult, hafter⟩ := Procedure.runsAmid_done_iff.mp hpause
      exact .inl ⟨error, rfl, hsleeps, hresult, hafter⟩
  | ok duration =>
      simp only [hcase] at hpause
      obtain ⟨_, later, _, rest, rfl, hsleep, hrest⟩ := Procedure.runsAmid_andThen_iff.mp hpause
      have hasleep := (Procedure.neverSleeps_request id).runsAmid_andThen_iff.mp hsleep
      obtain ⟨rfl, hothers⟩ := Procedure.runsAmid_sleep_iff.mp hasleep
      exact .inr ⟨_, later, rest, rfl, hothers, hrest⟩

/-- By induction on the attempts left: every look but the last one is in vain. -/
theorem concludes_of_runsAmid
    (hsound : world.tree.Sound)
    (h : (endpoint.policy.waitFrom endpoint.home (endpoint.routine clock) limit made
        interval).RunsAmid World.Gains world sleeps (some result) after) :
    endpoint.Concludes world sleeps result after := by
  induction limit generalizing world made interval sleeps with
  | zero =>
      obtain ⟨-, hnone, -⟩ := Procedure.runsAmid_done_iff.mp h
      cases hnone
  | succ limit ih =>
      rcases endpoint.findsNothing_or_concludes hsound with hnothing | ⟨hsettled, hconcludes⟩
      · rcases runsAmid_waitFrom_cases hnothing h with
          ⟨error, hpause, rfl, hresult, rfl⟩ | ⟨event, later, rest, rfl, hgains, hrest⟩
        · obtain ⟨timeout, htimeout, hover, rfl⟩ := PollPolicy.pause_eq_error hpause
          rw [Option.some.inj hresult]
          exact .timedOut (.nil _) hnothing htimeout hover
        · have hlater := ih (Tree.sound_of_gains hgains.tree hsound) hrest
          exact hlater.cons hnothing ⟨hgains.cwd_eq, hgains.tree⟩ event
      · obtain ⟨rfl, hresult, rfl⟩ := (runsAmid_waitFrom_iff hsettled).mp h
        rw [Option.some.inj hresult]
        exact hconcludes

/-- As long as a wait has come to nothing, all its looks have been in vain. -/
theorem looksInVain_of_runsAmid
    (hsound : world.tree.Sound)
    (h : (endpoint.policy.waitFrom endpoint.home (endpoint.routine clock) limit made
        interval).RunsAmid World.Gains world sleeps none after) :
    endpoint.LooksInVain world sleeps after := by
  induction limit generalizing world made interval sleeps with
  | zero =>
      obtain ⟨rfl, -, rfl⟩ := Procedure.runsAmid_done_iff.mp h
      exact .nil _
  | succ limit ih =>
      rcases endpoint.findsNothing_or_concludes hsound with hnothing | ⟨hsettled, -⟩
      · rcases runsAmid_waitFrom_cases hnothing h with
          ⟨error, -, -, hsome, -⟩ | ⟨event, later, rest, rfl, hgains, hrest⟩
        · cases hsome
        · have hlater := ih (Tree.sound_of_gains hgains.tree hsound) hrest
          exact .cons hnothing ⟨hgains.cwd_eq, hgains.tree⟩ hlater
      · obtain ⟨-, hsome, -⟩ := (runsAmid_waitFrom_iff hsettled).mp h
        cases hsome

/-- Vain looks and deliveries leave every message in its place, or another one instead. -/
theorem LooksInVain.message?_ne_none
    (h : endpoint.LooksInVain start sleeps later) {place : Location} {name : String}
    (hmessage : start.tree.message? place name ≠ none) :
    later.tree.message? place name ≠ none := by
  induction h with
  | nil world => exact hmessage
  | cons _ hgains _ ih => exact ih (Tree.message?_ne_none_of_gains hgains.tree hmessage)

/-- Over the whole wait, the message that is returned is lost, and no other. -/
theorem Concludes.loses_of_ok
    {body : String} (h : endpoint.Concludes start sleeps (.ok body) after) :
    ∃ home name, start.Loses after fun place other => place = home ∧ other = name := by
  cases h with
  | @received last _ home name _ hvain hreceive hopens hmessage hremoved =>
      refine ⟨home, name, fun place other hat => ?_⟩
      have hlast := hvain.message?_ne_none hat
      rw [hremoved]
      split
      · rename_i heq
        exact iff_of_true rfl heq
      · rename_i hne
        exact iff_of_false hlast hne

theorem Concludes.loses_of_error
    {error : MailError} (h : endpoint.Concludes start sleeps (.error error) after) :
    start.Loses after fun _ _ => False := by
  intro place other hat
  cases h with
  | failed hvain hreceive hkept =>
      rw [hkept]
      exact iff_of_false (hvain.message?_ne_none hat) id
  | timedOut hvain hnothing htimeout hwaited =>
      exact iff_of_false (hvain.message?_ne_none hat) id

/-- A wait among others who deliver ends with the result that receiving has at the last look, or
with the deadline, and all other looks are in vain.  It loses the message that it returns, and
nothing if it fails.  As long as it goes on, all looks are in vain.  Where receiving would not find
the mailbox empty, the first look is the last one. -/
theorem waiting_agrees_with_receiving (endpoint : Endpoint) (start : World)
    (hsound : start.tree.Sound) :
    (∀ limit sleeps result after,
      (endpoint.waitAndReceive limit).RunsAmid World.Gains start sleeps (some result) after →
        endpoint.Concludes start sleeps result after ∧
          (∀ body, result = .ok body →
            ∃ home name, start.Loses after fun place other => place = home ∧ other = name) ∧
          ∀ error, result = .error error → start.Loses after fun _ _ => False) ∧
      (∀ limit sleeps after,
        (endpoint.waitAndReceive limit).RunsAmid World.Gains start sleeps none after →
          endpoint.LooksInVain start sleeps after) ∧
      ((∀ place, (Action.outcome endpoint.receive start).1 ≠ .error (.noMessage place)) →
        ∀ limit sleeps result? after,
          (endpoint.waitAndReceive (limit + 1)).RunsAmid World.Gains start sleeps result? after ↔
            sleeps = [] ∧ result? = some (Action.outcome endpoint.receive start).1 ∧
              after = (Action.outcome endpoint.receive start).2) := by
  have hclock : (Procedure.request .clock).NeverSleeps := Procedure.neverSleeps_request id
  refine ⟨fun limit sleeps result after h => ?_, fun limit sleeps after h => ?_,
    fun hsettled limit sleeps result? after => ?_⟩
  · have hwait := hclock.runsAmid_andThen_iff.mp h
    have hconcludes : endpoint.Concludes start sleeps result after :=
      concludes_of_runsAmid hsound hwait
    refine ⟨hconcludes, ?_, ?_⟩
    · rintro body rfl
      exact hconcludes.loses_of_ok
    · rintro error rfl
      exact hconcludes.loses_of_error
  · have hwait := hclock.runsAmid_andThen_iff.mp h
    exact looksInVain_of_runsAmid hsound hwait
  · exact Iff.trans hclock.runsAmid_andThen_iff (runsAmid_waitFrom_iff hsettled)

/-- The first look finds nothing, and a message comes during the sleep after it. -/
theorem waiting_agrees_with_receiving_at_second_look :
    let endpoint : Endpoint :=
      { home := Mailbox.here.dir, policy := (PollPolicy.fixed 2).withTimeout 3 }
    let start : World :=
      { World.blank with arrivals := [⟨1, [Bytes.ofText "a.eml"], Bytes.ofText "hi"⟩] }
    start.tree.Sound ∧ ∃ sleeps after,
      (endpoint.waitAndReceive 2).RunsAmid World.Gains start sleeps (some (.ok "hi")) after ∧
        endpoint.FindsNothing start ∧ endpoint.Concludes start sleeps (.ok "hi") after := by
  intro endpoint start
  have hexpects : start.ExpectsMessages := by
    intro arrival harrival
    rw [List.mem_singleton.mp harrival]
    exact ⟨[], "a.eml", rfl, by decide, by decide, by decide⟩
  have hresult : ((endpoint.waitAndReceive 2).run start).1 = some (.ok "hi") := by decide +kernel
  obtain ⟨sleeps, h⟩ := hexpects.exists_runsAmid (endpoint.waitAndReceive 2)
  rw [hresult] at h
  have hopens : endpoint.mailbox.Opens start [] := Mailbox.opens_here rfl
  have hnothing := findsNothing_of_candidates_eq_nil hopens Tree.sound_empty (by decide +kernel)
  have hconcludes := ((waiting_agrees_with_receiving endpoint start Tree.sound_empty).1 _ _ _ _ h).1
  exact ⟨Tree.sound_empty, sleeps, _, h, hnothing, hconcludes⟩

end Looking

end Endpoint

end Postbox
