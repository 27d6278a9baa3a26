import Postbox.Proofs.Recoveries
import Postbox.Proofs.Sending
import Postbox.Proofs.Sleeping
import Postbox.Proofs.Walks

/-!
# One directory under two paths

Two programs act on one directory, each by a path of its own and from where it stands.  As long as
the paths leave room for the names of entries, the texts of the paths do not matter: what one does,
the other does too, and what one is told, the other is told, but for the paths that errors name.
-/

namespace Postbox

/-- The error without the path that it names. -/
def MailError.placeless : MailError → MailError
  | noMessage _ => .noMessage ⟨[]⟩
  | io _ fault => .io ⟨[]⟩ fault
  | invalidRecipient name => .invalidRecipient name
  | timeout _ waited => .timeout ⟨[]⟩ waited

/-- The result without the path that an error names. -/
def unplaced {α : Type} (result : Except MailError α) : Except MailError α :=
  result.mapError MailError.placeless

/-- Two results are the same, but for the paths that errors name. -/
def SameResult {α : Type} (a b : Except MailError α) : Prop :=
  unplaced a = unplaced b

section Results

variable {α β : Type} {x y : Except MailError α}

theorem SameResult.cases
    (h : SameResult x y) :
    (∃ value, x = .ok value ∧ y = .ok value) ∨
      ∃ error failure, x = .error error ∧ y = .error failure ∧
        error.placeless = failure.placeless := by
  cases x with
  | ok value =>
      cases y with
      | ok other => exact .inl ⟨value, rfl, by rw [Except.ok.inj h]⟩
      | error failure => cases h
  | error error =>
      cases y with
      | ok other => cases h
      | error failure => exact .inr ⟨error, failure, rfl, rfl, Except.error.inj h⟩

end Results

/-- Two worlds differ in where one stands and in what has been reported, and in nothing else. -/
def World.Alike (a b : World) : Prop :=
  ∃ cwd log, b = { a with cwd, log }

namespace World.Alike

variable {a b : World}

theorem tree_eq
    (h : a.Alike b) :
    b.tree = a.tree := by
  obtain ⟨cwd, log, rfl⟩ := h
  rfl

theorem withTree
    (h : a.Alike b) (tree : Tree) :
    (a.withTree tree).Alike (b.withTree tree) := by
  obtain ⟨cwd, log, rfl⟩ := h
  exact ⟨cwd, log, rfl⟩

theorem relogged
    (h : a.Alike b) (first second : List Event) :
    World.Alike { a with log := first } { b with log := second } := by
  obtain ⟨cwd, log, rfl⟩ := h
  exact ⟨cwd, second, rfl⟩

theorem recorded
    (h : a.Alike b) (first second : Event) :
    (a.recorded first).Alike (b.recorded second) :=
  h.relogged _ _

end World.Alike

/-- Other programs put files where the file system lets them. -/
def World.ArrivalsFit (world : World) : Prop :=
  ∀ arrival ∈ world.arrivals, ∀ name ∈ arrival.location,
    Name.IsPlain name ∧ name.length ≤ Path.maxName

namespace Mailbox

/-- Two mailboxes are one directory, each in its own of two worlds that are alike. -/
structure Mirrors (mailbox other : Mailbox) (home : Location) (a b : World) : Prop where
  alike : a.Alike b
  left : mailbox.Opens a home
  right : other.Opens b home
  sound : a.tree.Sound
  arrivals : a.ArrivalsFit

section Mirroring

variable {mailbox other : Mailbox} {home : Location} {a b : World} {name : String}

/-- What two programs have done alike leaves them with one directory, if all directories are still
there. -/
theorem Mirrors.advance
    (h : Mirrors mailbox other home a b) {a' b' : World} (halike : a'.Alike b')
    (hcwd : a'.cwd = a.cwd) (hcwd' : b'.cwd = b.cwd) (hsame : a.tree.SameDirectories a'.tree)
    (hsound : a'.tree.Sound) (harrivals : a'.arrivals ⊆ a.arrivals) :
    Mirrors mailbox other home a' b' where
  alike := halike
  left := h.left.of_sameDirectories hcwd hsame
  right := h.right.of_sameDirectories hcwd' (by rwa [h.alike.tree_eq, halike.tree_eq])
  sound := hsound
  arrivals := fun arrival hmem => h.arrivals arrival (harrivals hmem)

/-- Both mailboxes have room for the names of their entries. -/
structure BothRoomy (mailbox other : Mailbox) : Prop where
  left : mailbox.dir.Roomy
  right : other.dir.Roomy

variable (hroom : BothRoomy mailbox other)

include hroom

theorem Mirrors.candidates_eq
    (h : Mirrors mailbox other home a b) (order : ReceiveOrder) :
    mailbox.candidates a home order = other.candidates b home order := by
  have hisFile : ∀ name ∈ visibleNames (a.scan.arrange (a.tree.names home)),
      a.tree.isFile a.cwd (mailbox.entry name) = b.tree.isFile b.cwd (other.entry name) := by
    intro name hmem
    have hlisted := (mem_visibleNames.mp hmem).2
    rw [(a.scan.perm _).mem_iff, Tree.mem_names] at hlisted
    obtain ⟨hplain, hshort⟩ := h.sound.isPlain_of_child? hlisted
    rw [Bool.eq_iff_iff, (h.left.designates (admits_of_roomy hroom.left hplain hshort)).isFile_iff,
      (h.right.designates (admits_of_roomy hroom.right hplain hshort)).isFile_iff, h.alike.tree_eq]
  obtain ⟨cwd, log, rfl⟩ := h.alike
  rw [candidates, candidates, List.filter_congr hisFile]

theorem Mirrors.claimFault?_eq
    (h : Mirrors mailbox other home a b) (hplain : Name.IsPlain (Bytes.ofText name))
    (hshort : (Bytes.ofText name).length ≤ Path.maxName) :
    mailbox.claimFault? a.tree home name = other.claimFault? b.tree home name := by
  have hfits : ∀ {mailbox : Mailbox}, mailbox.dir.Roomy →
      Fits (claimPath (mailbox.entry name) name) := by
    intro mailbox hroom
    apply fits_claimPath_of_length hplain
    rw [MessageName.length_ofText_claim]
    simp only [Path.Roomy, Path.reserve, Path.maxName, Path.maxLength] at hroom hshort ⊢
    omega
  rw [claimFault?, claimFault?, h.alike.tree_eq, if_neg (not_not.mpr (hfits hroom.left)),
    if_neg (not_not.mpr (hfits hroom.right))]

theorem Mirrors.receipt
    (h : Mirrors mailbox other home a b) (hplain : Name.IsPlain (Bytes.ofText name))
    (hshort : (Bytes.ofText name).length ≤ Path.maxName) (content : Bytes) :
    SameResult (mailbox.receipt a home name content).1 (other.receipt b home name content).1 ∧
      (mailbox.receipt a home name content).2.Alike (other.receipt b home name content).2 ∧
      (mailbox.receipt a home name content).2.arrivals = a.arrivals := by
  rw [Mailbox.receipt, Mailbox.receipt, ← h.claimFault?_eq hroom hplain hshort]
  cases mailbox.claimFault? a.tree home name with
  | some fault => exact ⟨rfl, h.alike, rfl⟩
  | none =>
      cases content.text? with
      | none =>
          simp only [restored, h.alike.tree_eq]
          exact ⟨rfl, h.alike.withTree _, rfl⟩
      | some body =>
          simp only [taken, h.alike.tree_eq]
          exact ⟨rfl, (h.alike.withTree _).recorded _ _, rfl⟩

/-- Two receivers take the same message. -/
theorem Mirrors.takeNext
    (h : Mirrors mailbox other home a b) (order : ReceiveOrder) :
    SameResult (Action.outcome (mailbox.takeNext order) a).1
        (Action.outcome (other.takeNext order) b).1 ∧
      Mirrors mailbox other home (Action.outcome (mailbox.takeNext order) a).2
        (Action.outcome (other.takeNext order) b).2 := by
  obtain ⟨hsame, hsound⟩ := h.left.takeNext_preserves h.sound
    (Action.reaches_outcome (mailbox.takeNext order) a)
  have hcandidates := h.candidates_eq hroom order
  cases hlist : mailbox.candidates a home order with
  | nil =>
      rw [h.left.outcome_takeNext_nil hlist,
        h.right.outcome_takeNext_nil (hcandidates.symm.trans hlist)]
      exact ⟨rfl, h⟩
  | cons name rest =>
      obtain ⟨hname, -, content, hfile⟩ := h.left.exists_of_mem_candidates h.sound
        (hlist ▸ List.mem_cons_self : name ∈ mailbox.candidates a home order)
      have hleft := h.left.outcome_takeNext_cons h.sound hlist hfile
      have hright := h.right.outcome_takeNext_cons (h.alike.tree_eq ▸ h.sound)
        (hcandidates.symm.trans hlist) (h.alike.tree_eq ▸ hfile)
      obtain ⟨hresult, halike, harrivals⟩ := h.receipt hroom hname.plain hname.short content
      rw [hleft] at hsame hsound
      rw [hleft, hright]
      refine ⟨hresult, h.advance halike ?_ ?_ hsame hsound (harrivals ▸ List.Subset.refl _)⟩
      · rw [← hleft]
        exact Procedure.cwd_run _ _
      · rw [← hright]
        exact Procedure.cwd_run _ _

end Mirroring

end Mailbox

/-! ## Waiting alike -/

section Waiting

open PollPolicy

variable {σ τ α : Type} {related : σ → τ → Prop} {routine : Routine (StateM σ) α}
  {other : Routine (StateM τ) α}

/-- In related states two routines do the same. -/
structure PollPolicy.Routine.Agrees (routine : Routine (StateM σ) α)
    (other : Routine (StateM τ) α) (related : σ → τ → Prop) : Prop where
  attempt : ∀ {s t}, related s t → SameResult (routine.attempt s).1 (other.attempt t).1 ∧
    related (routine.attempt s).2 (other.attempt t).2
  elapsed : ∀ {s t}, related s t → (routine.elapsed s).1 = (other.elapsed t).1 ∧
    related (routine.elapsed s).2 (other.elapsed t).2
  sleep : ∀ {s t} (made : Nat) (duration : Duration), related s t →
    related (routine.sleep made duration s).2 (other.sleep made duration t).2

theorem PollPolicy.Routine.Agrees.look
    (h : routine.Agrees other related) {s : σ} {t : τ} (hrelated : related s t) :
    (routine.look s).1 = (other.look t).1 ∧ related (routine.look s).2 (other.look t).2 :=
  h.elapsed (h.attempt hrelated).2

theorem PollPolicy.sameResult_pause (policy : PollPolicy) (mailbox place : Path)
    (interval elapsed : Duration) :
    SameResult (policy.pause mailbox interval elapsed) (policy.pause place interval elapsed) := by
  unfold pause
  cases policy.timeout? with
  | none => rfl
  | some timeout =>
      simp only
      split <;> rfl

/-- Two waits come to the same, by induction on the attempts that are left. -/
theorem PollPolicy.Routine.Agrees.waitFrom
    (h : routine.Agrees other related) (policy : PollPolicy) (mailbox place : Path) {s : σ} {t : τ}
    (hrelated : related s t) (limit made : Nat) (interval : Duration) :
    (policy.waitFrom mailbox routine limit made interval s).1.map unplaced =
        (policy.waitFrom place other limit made interval t).1.map unplaced ∧
      related (policy.waitFrom mailbox routine limit made interval s).2
        (policy.waitFrom place other limit made interval t).2 := by
  induction limit generalizing s t made interval with
  | zero => exact ⟨rfl, hrelated⟩
  | succ limit ih =>
      obtain ⟨hresult, hattempt⟩ := h.attempt hrelated
      obtain ⟨hreading, hlook⟩ := h.look hrelated
      rw [waitFrom_succ, waitFrom_succ]
      rcases hresult.cases with ⟨value, hleft, hright⟩ | ⟨error, failure, hleft, hright, hsame⟩
      · rw [hleft, hright]
        exact ⟨rfl, hattempt⟩
      · rw [hleft, hright]
        cases error with
        | noMessage path =>
            cases failure with
            | noMessage path' =>
                have hpause := policy.sameResult_pause mailbox place interval (routine.look s).1
                rw [hreading] at hpause ⊢
                simp only
                rcases hpause.cases with
                  ⟨duration, hpause, hpause'⟩ | ⟨error, failure, hpause, hpause', hsame⟩
                · rw [hpause, hpause']
                  exact ih (h.sleep (made + 1) duration hlook) _ _
                · rw [hpause, hpause']
                  exact ⟨congrArg (fun error => some (Except.error error)) hsame, hlook⟩
            | _ => cases hsame
        | _ =>
            cases failure with
            | noMessage path' => cases hsame
            | _ => exact ⟨congrArg (fun error => some (Except.error error)) hsame, hattempt⟩

end Waiting

/-! ## Time that passes -/

namespace World

/-- A file that arrives is put where no directory is, in a directory, or nowhere. -/
theorem place_cases (tree : Tree) (location : Location) (content : Bytes) :
    place tree location content = tree ∨
      ∃ front name, location = front ++ [name] ∧ tree.get? front = some .directory ∧
        tree.get? location ≠ some .directory ∧
          place tree location content = tree.put location (.file content) := by
  rcases location.eq_nil_or_concat' with rfl | ⟨front, name, rfl⟩
  · left
    simp [place]
  · rw [place, List.dropLast_concat]
    split
    · rename_i hfront hfree
      exact .inr ⟨front, name, rfl, hfront, by simp [hfree], rfl⟩
    · rename_i hfront hfile
      exact .inr ⟨front, name, rfl, hfront, by simp [hfile], rfl⟩
    · exact .inl rfl

theorem place_preserves
    {tree : Tree} (h : tree.Sound) {location : Location}
    (hnames : ∀ name ∈ location, Name.IsPlain name ∧ name.length ≤ Path.maxName)
    (content : Bytes) :
    tree.SameDirectories (place tree location content) ∧ (place tree location content).Sound := by
  rcases place_cases tree location content with heq | ⟨front, name, rfl, hfront, hold, heq⟩
  · rw [heq]
    exact ⟨.refl _, h⟩
  · obtain ⟨hplain, hshort⟩ := hnames name (List.mem_append_right _ List.mem_cons_self)
    rw [heq]
    refine ⟨fun other => ?_, h.put (.file content) hfront hplain hshort hold⟩
    rw [Tree.get?_put _ _ _ Tree.place_ne_nil]
    split
    · rename_i hother
      subst hother
      simp [hold]
    · rfl

/-- Files that arrive leave the directories as they are. -/
theorem wait_preserves
    {world : World} (hsound : world.tree.Sound) (hfit : world.ArrivalsFit) (duration : Duration) :
    world.tree.SameDirectories (world.wait duration).tree ∧ (world.wait duration).tree.Sound ∧
      (world.wait duration).arrivals ⊆ world.arrivals := by
  have hwait : world.tree.Sound →
      world.tree.SameDirectories (world.wait duration).tree ∧ (world.wait duration).tree.Sound := by
    refine @wait_rel (fun tree after => tree.Sound → tree.SameDirectories after ∧ after.Sound)
      ?_ ?_ world ?_ duration
    · exact fun _ h => ⟨.refl _, h⟩
    · intro a b c hab hbc h
      obtain ⟨hsame, hb⟩ := hab h
      obtain ⟨hsame', hc⟩ := hbc hb
      exact ⟨hsame.trans hsame', hc⟩
    · exact fun arrival harrival _ h => place_preserves h (hfit arrival harrival) arrival.content
  obtain ⟨hsame, hplaced⟩ := hwait hsound
  exact ⟨hsame, hplaced, world.arrivals_wait_subset duration⟩

end World

namespace Mailbox

section Waiting

variable {mailbox other : Mailbox} {home : Location} {a b : World}

theorem Mirrors.recorded
    (h : Mirrors mailbox other home a b) (first second : Event) :
    Mirrors mailbox other home (a.recorded first) (b.recorded second) :=
  h.advance (h.alike.recorded first second) rfl rfl (.refl _) h.sound (List.Subset.refl _)

theorem Mirrors.wait
    (h : Mirrors mailbox other home a b) (duration : Duration) :
    Mirrors mailbox other home (a.wait duration) (b.wait duration) := by
  obtain ⟨hsame, hsound, harrivals⟩ := World.wait_preserves h.sound h.arrivals duration
  refine h.advance ?_ rfl rfl hsame hsound harrivals
  obtain ⟨cwd, log, rfl⟩ := h.alike
  exact ⟨cwd, log, rfl⟩

theorem Mirrors.sleep
    (h : Mirrors mailbox other home a b) (first second : Event) (duration : Duration) :
    Mirrors mailbox other home ((a.recorded first).wait (duration + a.overshoot))
      ((b.recorded second).wait (duration + b.overshoot)) := by
  have hovershoot : b.overshoot = a.overshoot := by
    obtain ⟨cwd, log, rfl⟩ := h.alike
    rfl
  rw [hovershoot]
  exact (h.recorded first second).wait _

/-- Two endpoints that differ in the path of their directory wait alike. -/
theorem agrees_routine
    (hroom : BothRoomy mailbox other) (endpoint : Endpoint) (start : Duration) :
    ({ endpoint with home := mailbox.dir }.routine start).inWorlds.Agrees
      ({ endpoint with home := other.dir }.routine start).inWorlds
      (Mirrors mailbox other home) where
  attempt := fun h => h.takeNext hroom endpoint.order
  elapsed := fun h => by
    refine ⟨?_, h⟩
    obtain ⟨cwd, log, rfl⟩ := h.alike
    rfl
  sleep := fun made duration h => h.sleep _ _ duration

theorem Mirrors.waitAndReceive
    (h : Mirrors mailbox other home a b) (hroom : BothRoomy mailbox other) (endpoint : Endpoint)
    (limit : Nat) :
    ((({ endpoint with home := mailbox.dir }).waitAndReceive limit).run a).1.map unplaced =
        ((({ endpoint with home := other.dir }).waitAndReceive limit).run b).1.map unplaced ∧
      Mirrors mailbox other home
        ((({ endpoint with home := mailbox.dir }).waitAndReceive limit).run a).2
        ((({ endpoint with home := other.dir }).waitAndReceive limit).run b).2 := by
  have hclock : b.clock = a.clock := by
    obtain ⟨cwd, log, rfl⟩ := h.alike
    rfl
  have hwait := (agrees_routine hroom endpoint a.clock).waitFrom endpoint.policy mailbox.dir
    other.dir h limit 0 endpoint.policy.interval
  rw [← PollPolicy.run_waitFrom, ← PollPolicy.run_waitFrom] at hwait
  rw [Endpoint.waitAndReceive, Endpoint.waitAndReceive, Procedure.run_bind, Procedure.run_bind]
  simp only [Procedure.request, Procedure.run, World.answer, hclock]
  exact hwait

end Waiting

end Mailbox

/-! ## Recovering alike -/

namespace Mailbox

section Recovering

variable {mailbox other : Mailbox} {start start' a b : World} {home : Location}

/-- The path of the mailbox does not lead through an entry that recovery renames. -/
def StaysClear (mailbox : Mailbox) (world : World) (home : Location) : Prop :=
  ∀ above ∈ mailbox.dir.ancestors, ∀ place, world.tree.enter world.cwd above = .ok place →
    ∀ name, MessageName.isVisible name = true →
      ¬home ++ [Bytes.ofText (MessageName.claim name)] <+: place

/-- A path without `..` leads straight down and through nothing that the mailbox holds. -/
theorem staysClear_of_enter
    (henter : start.tree.enter start.cwd mailbox.dir = .ok home)
    (hup : Path.dotdot ∉ Path.significant mailbox.dir.bytes) :
    mailbox.StaysClear start home := by
  intro above hmem place habove name _ hpre
  have hlen := (hpre.trans (Tree.isPrefix_of_mem_ancestors hup henter hmem habove)).length_le
  rw [List.length_append, List.length_singleton] at hlen
  exact Nat.not_succ_le_self _ hlen

/-- No path leads through a file. -/
theorem staysClear_of_not_directory
    (hsound : start.tree.Sound)
    (hfiles : ∀ name, MessageName.isVisible name = true →
      start.tree.child? home (MessageName.claim name) ≠ some .directory) :
    mailbox.StaysClear start home := by
  intro above hmem place habove name hvisible hpre
  apply hfiles name hvisible
  exact hsound.get?_of_isPrefix (Tree.enter_eq_ok_iff.mp habove).2 hpre

/-- All directories that the path of the mailbox led through at the start are still there. -/
structure Steady (mailbox : Mailbox) (start current : World) : Prop where
  cwd_eq : current.cwd = start.cwd
  kept : ∀ above ∈ mailbox.dir.ancestors, ∀ place,
    start.tree.enter start.cwd above = .ok place → current.tree.get? place = some .directory

theorem Steady.opens
    (h : mailbox.Steady start a) (hstart : mailbox.Opens start home) :
    mailbox.Opens a home :=
  opens_of_enter hstart.fault?_eq
    (h.cwd_eq ▸ Tree.enter_of_directories hstart.enter_eq h.kept)

theorem steady_refl (mailbox : Mailbox) (start : World) :
    mailbox.Steady start start where
  cwd_eq := rfl
  kept := fun _ _ _ habove => (Tree.enter_eq_ok_iff.mp habove).2

theorem Steady.recorded
    (h : mailbox.Steady start a) (event : Event) :
    mailbox.Steady start (a.recorded event) :=
  ⟨h.cwd_eq, h.kept⟩

/-- What comes back into view takes along only what is below its claim. -/
theorem Steady.revive
    {name : String} (h : mailbox.Steady start a)
    (hclear : ∀ above ∈ mailbox.dir.ancestors, ∀ place,
      start.tree.enter start.cwd above = .ok place →
        ¬home ++ [Bytes.ofText (MessageName.claim name)] <+: place)
    (hsound : a.tree.Sound) {target : Location} (htarget : target ≠ []) {after : Tree}
    (hmove : a.tree.moveEntry (home ++ [Bytes.ofText (MessageName.claim name)]) target =
      .ok after) :
    mailbox.Steady start (a.withTree after) where
  cwd_eq := h.cwd_eq
  kept := fun above hmem place habove =>
    Tree.get?_directory_of_moveEntry hsound Tree.place_ne_nil htarget hmove
      (h.kept above hmem place habove) (hclear above hmem place habove)

theorem answer_rename_eq_change
    (hopens : mailbox.Opens a home) {source target : String} (hsource : mailbox.Admits source)
    (htarget : mailbox.Admits target) :
    a.answer (.rename (mailbox.entry source) (mailbox.entry target)) =
      a.change (a.tree.moveEntry (home ++ [Bytes.ofText source])
        (home ++ [Bytes.ofText target])) := by
  rw [World.answer,
    (hopens.designates hsource).rename_eq (hopens.designates htarget).target_eq]

/-- Two programs recover the same claims, by induction on the listing. -/
theorem Steady.reviveAll
    (hroom : BothRoomy mailbox other) (hopens : mailbox.Opens start home)
    (hopens' : other.Opens start' home) (hclear : mailbox.StaysClear start home)
    (hclear' : other.StaysClear start' home) {names : List Name}
    (hnames : ∀ name ∈ names, Name.IsPlain name ∧ name.length ≤ Path.maxName)
    (h : mailbox.Steady start a) (h' : other.Steady start' b) (halike : a.Alike b)
    (hsound : a.tree.Sound) (revived : Nat) :
    SameResult (Action.outcome (mailbox.reviveAll revived names) a).1
        (Action.outcome (other.reviveAll revived names) b).1 ∧
      (Action.outcome (mailbox.reviveAll revived names) a).2.Alike
        (Action.outcome (other.reviveAll revived names) b).2 := by
  induction names generalizing a b revived with
  | nil => exact ⟨rfl, halike⟩
  | cons name rest ih =>
      have hrest := fun other hmem => hnames other (List.mem_cons_of_mem _ hmem)
      rcases claim_or_passed name with ⟨visible, hvisible, rfl⟩ | hpassed
      swap
      · rw [reviveAll_cons_passed hpassed, reviveAll_cons_passed hpassed]
        exact ih hrest h h' halike hsound revived
      obtain ⟨hplain, hshort⟩ := hnames _ List.mem_cons_self
      have hvisiblePlain := MessageName.isPlain_of_isPlain_claim hvisible hplain
      have hvisibleShort : (Bytes.ofText visible).length ≤ Path.maxName := by
        rw [MessageName.length_ofText_claim] at hshort
        omega
      have hleft := h.opens hopens
      have hanswer := answer_rename_eq_change hleft (admits_of_roomy hroom.left hplain hshort)
        (admits_of_roomy hroom.left hvisiblePlain hvisibleShort)
      have hanswer' := answer_rename_eq_change (h'.opens hopens')
        (admits_of_roomy hroom.right hplain hshort)
        (admits_of_roomy hroom.right hvisiblePlain hvisibleShort)
      rw [halike.tree_eq] at hanswer'
      rw [reviveAll_cons_claim hvisible, reviveAll_cons_claim hvisible, Action.outcome_bind,
        Action.outcome_bind, Action.outcome_attempt, Action.outcome_attempt, hanswer, hanswer']
      cases hmove : a.tree.moveEntry (home ++ [Bytes.ofText (MessageName.claim visible)])
          (home ++ [Bytes.ofText visible]) with
      | error fault =>
          by_cases hgone : fault = .notFound
          · subst hgone
            exact ih hrest h h' halike hsound revived
          · simp only [World.change]
            exact ⟨rfl, halike⟩
      | ok after =>
          have hrevival : Tree.Revival home a.tree after :=
            ⟨visible, hvisible, hvisiblePlain, hmove⟩
          simp only [World.change, Action.outcome_bind, Action.outcome_report]
          have hsteady := h.revive (fun above hmem place habove =>
            hclear above hmem place habove visible hvisible) hsound Tree.place_ne_nil hmove
          have hsteady' := h'.revive (fun above hmem place habove =>
            hclear' above hmem place habove visible hvisible) (halike.tree_eq ▸ hsound)
            Tree.place_ne_nil (halike.tree_eq ▸ hmove)
          exact ih hrest (hsteady.recorded _) (hsteady'.recorded _)
            ((halike.withTree after).recorded _ _) (hrevival.sound hsound hleft.get?_eq)
            (revived + 1)

/-- Two programs recover the same claims of one directory. -/
theorem Mirrors.recoverClaims
    (h : Mirrors mailbox other home a b) (hroom : BothRoomy mailbox other)
    (hclear : mailbox.StaysClear a home) (hclear' : other.StaysClear b home) :
    SameResult (Action.outcome mailbox.recoverClaims a).1 (Action.outcome other.recoverClaims b).1 ∧
      (Action.outcome mailbox.recoverClaims a).2.Alike
        (Action.outcome other.recoverClaims b).2 := by
  have hnames : ∀ name ∈ a.scan.arrange (a.tree.names home),
      Name.IsPlain name ∧ name.length ≤ Path.maxName := by
    intro name hmem
    rw [(a.scan.perm _).mem_iff, Tree.mem_names] at hmem
    exact ⟨h.sound.plain hmem (by simp), h.sound.short hmem (by simp)⟩
  have hscan : b.scan.arrange (b.tree.names home) = a.scan.arrange (a.tree.names home) := by
    obtain ⟨cwd, log, rfl⟩ := h.alike
    rfl
  rw [Mailbox.recoverClaims, Mailbox.recoverClaims, Action.outcome_bind, Action.outcome_bind,
    Action.outcome_onPath, Action.outcome_onPath, World.answer, World.answer, h.left.list_eq,
    h.right.list_eq]
  simp only [Except.map, Except.mapError, hscan]
  exact (steady_refl mailbox a).reviveAll hroom h.left h.right hclear hclear' hnames
    (steady_refl other b) h.alike h.sound 0

end Recovering

end Mailbox

end Postbox
