import Mathlib.Data.List.Forall2
import Postbox.Proofs.LongPaths
import Postbox.Proofs.Programs
import Postbox.Proofs.Receipts

/-!
# Draining a mailbox

Taking messages until it fails gives the messages that wait, oldest first, up to the first one that
cannot be taken.
-/

namespace Postbox

namespace Procedure

/-- Run a procedure a number of times, one after the other. -/
def repeated {α : Type} (procedure : Procedure α) : Nat → Procedure (List α)
  | 0 => done []
  | n + 1 => procedure.andThen fun a => (procedure.repeated n).andThen fun rest => done (a :: rest)

theorem run_repeated_succ
    {α : Type} (procedure : Procedure α) (n : Nat) (world : World) :
    (procedure.repeated (n + 1)).run world =
      ((procedure.run world).1 :: ((procedure.repeated n).run (procedure.run world).2).1,
        ((procedure.repeated n).run (procedure.run world).2).2) := by
  rw [repeated, run_andThen, run_andThen]
  rfl

end Procedure

namespace Mailbox

/-- A waiting message that can be taken: it is text, and its claim has a name and a path that are
not too long and that no directory bears. -/
structure Takeable (mailbox : Mailbox) (tree : Tree) (home : Location) (name body : String) :
    Prop where
  text : tree.message? home name = some (Bytes.ofText body)
  claim_fits : Fits (claimPath (mailbox.entry name) name)
  claim_short : (Bytes.ofText (MessageName.claim name)).length ≤ Path.maxName
  claim_free : tree.child? home (MessageName.claim name) ≠ some .directory

/-- Why draining ends before the given waiting messages: there are none, or the first cannot be
taken. -/
def drainError (mailbox : Mailbox) (tree : Tree) (home : Location) : List String → MailError
  | [] => .noMessage mailbox.dir
  | name :: _ =>
    .io (mailbox.entry name) ((mailbox.claimFault? tree home name).getD .notText)

section Takeables

variable {mailbox : Mailbox} {world : World} {home : Location} {name body : String}
  {names : List String}

/-- The waiting messages begin with some that can be taken; the next one, if there is one,
cannot. -/
theorem exists_takeable_front (mailbox : Mailbox) (tree : Tree) (home : Location)
    (names : List String) :
    ∃ front rest bodies, names = front ++ rest ∧
      List.Forall₂ (Takeable mailbox tree home) front bodies ∧
        ∀ name ∈ rest.head?, ∀ body, ¬Takeable mailbox tree home name body := by
  induction names with
  | nil => exact ⟨[], [], [], rfl, .nil, by simp⟩
  | cons name rest ih =>
      by_cases htakeable : ∃ body, Takeable mailbox tree home name body
      · obtain ⟨body, hbody⟩ := htakeable
        obtain ⟨front, rest, bodies, rfl, hfront, hrest⟩ := ih
        exact ⟨name :: front, rest, body :: bodies, rfl, .cons hbody hfront, hrest⟩
      · refine ⟨[], name :: rest, [], rfl, .nil, ?_⟩
        rintro other ⟨⟩ body hbody
        exact htakeable ⟨body, hbody⟩

theorem Takeable.unique
    {tree : Tree} {other : String} (h : Takeable mailbox tree home name body)
    (hother : Takeable mailbox tree home name other) :
    body = other :=
  Bytes.ofText_injective (Option.some.inj (h.text.symm.trans hother.text))

/-- There is one such beginning, by induction on it. -/
theorem takeable_front_unique
    {tree : Tree} {front rest bodies front' rest' bodies' : List String}
    (hnames : front ++ rest = front' ++ rest')
    (hfront : List.Forall₂ (Takeable mailbox tree home) front bodies)
    (hrest : ∀ name ∈ rest.head?, ∀ body, ¬Takeable mailbox tree home name body)
    (hfront' : List.Forall₂ (Takeable mailbox tree home) front' bodies')
    (hrest' : ∀ name ∈ rest'.head?, ∀ body, ¬Takeable mailbox tree home name body) :
    front = front' ∧ rest = rest' ∧ bodies = bodies' := by
  induction hfront generalizing front' bodies' with
  | nil =>
      cases hfront' with
      | nil => exact ⟨rfl, hnames, rfl⟩
      | cons hhead =>
          obtain rfl : rest = _ := hnames
          exact absurd hhead (hrest _ rfl _)
  | cons hhead _ ih =>
      cases hfront' with
      | nil =>
          obtain rfl : _ = rest' := hnames
          exact absurd hhead (hrest' _ rfl _)
      | cons hhead' htail' =>
          obtain ⟨rfl, hothers⟩ := List.cons.inj hnames
          obtain ⟨rfl, rfl, rfl⟩ := ih hothers htail'
          obtain rfl := hhead.unique hhead'
          exact ⟨rfl, rfl, rfl⟩

theorem Takeable.claimFault?_eq
    {tree : Tree} (h : Takeable mailbox tree home name body) :
    mailbox.claimFault? tree home name = none :=
  claimFault?_eq_none_iff.mpr ⟨h.claim_fits, h.claim_short, h.claim_free⟩

theorem Takeable.congr
    {a b : Tree} (h : Takeable mailbox a home name body) (hsame : a.SameDirectories b)
    (hmessage : a.message? home name = b.message? home name) :
    Takeable mailbox b home name body where
  text := hmessage ▸ h.text
  claim_fits := h.claim_fits
  claim_short := h.claim_short
  claim_free := fun hdir => h.claim_free ((hsame _).mpr hdir)

/-- After the first of the waiting messages have been taken, the others wait in the same order. -/
theorem Opens.candidates_eq_rest
    {front rest : List String} {after : World} (h : mailbox.Opens world home)
    (hsound : world.tree.Sound) (hafter : mailbox.Opens after home)
    (hsoundAfter : after.tree.Sound)
    (hcandidates : mailbox.candidates world home .oldest = front ++ rest)
    (hleft : ∀ name, after.tree.message? home name =
      if name ∈ front then none else world.tree.message? home name) :
    mailbox.candidates after home .oldest = rest := by
  obtain ⟨-, hsorted, -⟩ := List.pairwise_append.mp
    (hcandidates ▸ pairwise_candidates_oldest mailbox world home)
  obtain ⟨-, hnodup, hdisjoint⟩ := List.nodup_append.mp
    (hcandidates ▸ nodup_candidates mailbox world home .oldest)
  apply hafter.candidates_oldest_eq hsoundAfter hsorted hnodup
  intro name
  have hmem : name ∈ mailbox.candidates world home .oldest ↔ _ := h.mem_candidates_iff hsound
  rw [hcandidates, List.mem_append] at hmem
  rw [hleft]
  by_cases hfront : name ∈ front
  · simp only [if_pos hfront, reduceCtorEq, exists_false, false_and, iff_false]
    exact fun hrest => hdisjoint name hfront name hrest rfl
  · rw [or_iff_right hfront] at hmem
    rw [if_neg hfront, hmem]

/-! ## Taking message after message -/

/-- In every world with the same directories, a step takes the next message, oldest first, perhaps
after some preparation, and makes its result from what comes of that. -/
structure Takes {α : Type} (step : Procedure α) (result : Except MailError String → α)
    (mailbox : Mailbox) (world : World) : Prop where
  exists_start : ∀ {current : World}, current.cwd = world.cwd →
    world.tree.SameDirectories current.tree →
      ∃ start : World, start.tree = current.tree ∧ start.cwd = current.cwd ∧
        (step.run current).1 = result (Action.outcome (mailbox.takeNext .oldest) start).1 ∧
        (step.run current).2.tree = (Action.outcome (mailbox.takeNext .oldest) start).2.tree

theorem drainError_congr
    {a b : Tree} (hsame : a.SameDirectories b) (names : List String) :
    mailbox.drainError b home names = mailbox.drainError a home names := by
  cases names with
  | nil => rfl
  | cons name rest => rw [drainError, drainError, claimFault?_congr hsame]

section Repetition

variable {mailbox : Mailbox} {world current : World} {home : Location} {α : Type}
  {step : Procedure α} {result : Except MailError String → α} {front rest bodies : List String}

/-- What is left when the next message cannot be taken is what was there before. -/
theorem Opens.drain_end
    (h : mailbox.Opens world home) (hsound : world.tree.Sound)
    (hcandidates : mailbox.candidates world home .oldest = rest)
    (hrest : ∀ name ∈ rest.head?, ∀ body, ¬Takeable mailbox world.tree home name body) :
    (Action.outcome (mailbox.takeNext .oldest) world).1 =
        .error (mailbox.drainError world.tree home rest) ∧
      ∀ name, (Action.outcome (mailbox.takeNext .oldest) world).2.tree.message? home name =
        world.tree.message? home name := by
  cases rest with
  | nil =>
      rw [h.outcome_takeNext_nil hcandidates]
      exact ⟨rfl, fun _ => rfl⟩
  | cons name others =>
      obtain ⟨hname, hvisible, content, hfile⟩ := h.exists_of_mem_candidates hsound
        (hcandidates ▸ List.mem_cons_self : name ∈ mailbox.candidates world home .oldest)
      rw [h.outcome_takeNext_cons hsound hcandidates hfile, receipt, drainError]
      cases hfault : mailbox.claimFault? world.tree home name with
      | some fault => exact ⟨rfl, fun _ => rfl⟩
      | none =>
          cases htext : content.text? with
          | none =>
              refine ⟨rfl, fun other => ?_⟩
              exact message?_restored world home name other
          | some body =>
              -- Then the message could have been taken.
              obtain rfl := Bytes.text?_eq_some_iff.mp htext
              obtain ⟨hfits, hshort, hfree⟩ := claimFault?_eq_none_iff.mp hfault
              have hmessage := Tree.message?_eq_some_iff.mpr ⟨hvisible, hfile⟩
              exact absurd ⟨hmessage, hfits, hshort, hfree⟩ (hrest name rfl body)

theorem Takeable.outcome_takeNext
    {name body : String} (h : Takeable mailbox world.tree home name body)
    (hopens : mailbox.Opens world home) (hsound : world.tree.Sound)
    (hcandidates : mailbox.candidates world home .oldest = name :: rest) :
    mailbox.Claimable world home name (Bytes.ofText body) ∧
      Action.outcome (mailbox.takeNext .oldest) world =
        (.ok body, (taken world home name).recorded (mailbox.receiptEvent name body)) := by
  obtain ⟨hvisible, hfile⟩ := Tree.message?_eq_some_iff.mp h.text
  obtain ⟨hname, -, -⟩ := hopens.exists_of_mem_candidates hsound
    (hcandidates ▸ List.mem_cons_self : name ∈ mailbox.candidates world home .oldest)
  refine ⟨⟨hopens, hname, hvisible, hfile, h.claimFault?_eq⟩, ?_⟩
  rw [hopens.outcome_takeNext_cons hsound hcandidates hfile, receipt, h.claimFault?_eq,
    Bytes.text?_ofText]

/-- The mailbox in the world in which a step comes to take the next message. -/
theorem Takes.exists_opens
    (hstep : Takes step result mailbox world) (hopens : mailbox.Opens world home)
    (hcwd : current.cwd = world.cwd) (hsame : world.tree.SameDirectories current.tree)
    (hsound : current.tree.Sound) :
    ∃ start : World, mailbox.Opens start home ∧ start.tree = current.tree ∧
      mailbox.candidates start home .oldest = mailbox.candidates current home .oldest ∧
      (step.run current).1 = result (Action.outcome (mailbox.takeNext .oldest) start).1 ∧
      (step.run current).2.tree = (Action.outcome (mailbox.takeNext .oldest) start).2.tree := by
  obtain ⟨start, htree, hcwdStart, hrun⟩ := hstep.exists_start hcwd hsame
  have hcurrent := hopens.of_sameDirectories hcwd hsame
  have hstart : mailbox.Opens start home :=
    hcurrent.of_sameDirectories hcwdStart (htree ▸ .refl _)
  refine ⟨start, hstart, htree, ?_, hrun⟩
  exact hstart.candidates_oldest_congr (htree ▸ hsound) hcurrent hsound fun _ => by rw [htree]

/-- The last step fails and leaves the messages as they are. -/
theorem Takes.run_end
    (hstep : Takes step result mailbox world) (hopens : mailbox.Opens world home)
    (hcwd : current.cwd = world.cwd) (hsame : world.tree.SameDirectories current.tree)
    (hsound : current.tree.Sound)
    (hcandidates : mailbox.candidates current home .oldest = rest)
    (hrest : ∀ name ∈ rest.head?, ∀ body, ¬Takeable mailbox current.tree home name body) :
    (step.run current).1 = result (.error (mailbox.drainError world.tree home rest)) ∧
      current.tree.SameDirectories (step.run current).2.tree ∧
      (step.run current).2.tree.Sound ∧
      ∀ name, (step.run current).2.tree.message? home name =
        current.tree.message? home name := by
  obtain ⟨start, hstart, htreeStart, hsameCandidates, hresult, htree⟩ :=
    hstep.exists_opens hopens hcwd hsame hsound
  rw [← hsameCandidates] at hcandidates
  rw [← htreeStart] at hsame hsound hrest ⊢
  obtain ⟨herror, hleft⟩ := hstart.drain_end hsound hcandidates hrest
  obtain ⟨hdirs, hsoundAfter⟩ := hstart.takeNext_preserves hsound
    (Action.reaches_outcome (mailbox.takeNext .oldest) start)
  rw [hresult, herror, drainError_congr hsame, htree]
  exact ⟨rfl, hdirs, hsoundAfter, hleft⟩

/-- A step takes the first message if it can be taken, and leaves the others in their order. -/
theorem Takes.run_takeable
    {name body : String} (hstep : Takes step result mailbox world)
    (hopens : mailbox.Opens world home) (hcwd : current.cwd = world.cwd)
    (hsame : world.tree.SameDirectories current.tree) (hsound : current.tree.Sound)
    (hname : Takeable mailbox current.tree home name body)
    (hcandidates : mailbox.candidates current home .oldest = name :: rest) :
    (step.run current).1 = result (.ok body) ∧
      current.tree.SameDirectories (step.run current).2.tree ∧
      (step.run current).2.tree.Sound ∧
      (∀ other, (step.run current).2.tree.message? home other =
        if other = name then none else current.tree.message? home other) ∧
      mailbox.candidates (step.run current).2 home .oldest = rest := by
  obtain ⟨start, hstart, htreeStart, hsameCandidates, hresult, htree⟩ :=
    hstep.exists_opens hopens hcwd hsame hsound
  rw [← hsameCandidates] at hcandidates
  rw [← htreeStart] at hsame hsound hname ⊢
  obtain ⟨hclaimable, houtcome⟩ := hname.outcome_takeNext hstart hsound hcandidates
  rw [houtcome] at hresult htree
  have hdirs := htree ▸ hclaimable.sameDirectories_taken
  have hsoundAfter := htree ▸ hclaimable.sound_taken hsound
  have hafter := hopens.of_sameDirectories ((step.cwd_run current).trans hcwd) (hsame.trans hdirs)
  have hmessages : ∀ other, (step.run current).2.tree.message? home other =
      if other = name then none else start.tree.message? home other := by
    intro other
    rw [htree, World.tree_recorded, message?_taken]
  have hsplit : mailbox.candidates start home .oldest = [name] ++ rest := hcandidates
  exact ⟨hresult, hdirs, hsoundAfter, hmessages,
    hstart.candidates_eq_rest hsound hafter hsoundAfter hsplit (by simpa using hmessages)⟩

/-- The induction over the drain.  The messages still to come are as they were in the world at the
beginning, though others have been taken since. -/
theorem Takes.run_repeated
    (hstep : Takes step result mailbox world) (hopens : mailbox.Opens world home)
    (hfront : List.Forall₂ (Takeable mailbox world.tree home) front bodies)
    (hrest : ∀ name ∈ rest.head?, ∀ body, ¬Takeable mailbox world.tree home name body)
    (hcwd : current.cwd = world.cwd) (hsame : world.tree.SameDirectories current.tree)
    (hsound : current.tree.Sound)
    (hmessages : ∀ name ∈ front ++ rest,
      world.tree.message? home name = current.tree.message? home name)
    (hcandidates : mailbox.candidates current home .oldest = front ++ rest) :
    ∃ after, (step.repeated (bodies.length + 1)).run current =
        (bodies.map (fun body => result (.ok body)) ++
          [result (.error (mailbox.drainError world.tree home rest))], after) ∧
      current.tree.SameDirectories after.tree ∧ after.tree.Sound ∧
      ∀ name, after.tree.message? home name =
        if name ∈ front then none else current.tree.message? home name := by
  induction hfront generalizing current with
  | nil =>
      have hrestCurrent : ∀ name ∈ rest.head?, ∀ body,
          ¬Takeable mailbox current.tree home name body := by
        intro name hname body htakeable
        have hmem : name ∈ [] ++ rest := List.mem_of_mem_head? hname
        exact hrest name hname body (htakeable.congr hsame.symm (hmessages name hmem).symm)
      obtain ⟨hresult, hdirs, hsoundAfter, hleft⟩ :=
        hstep.run_end hopens hcwd hsame hsound hcandidates hrestCurrent
      refine ⟨(step.run current).2, ?_, hdirs, hsoundAfter, by simpa using hleft⟩
      rw [List.length_nil, Procedure.run_repeated_succ, hresult]
      rfl
  | @cons name body front bodies hname hfront ih =>
      have hnameCurrent := hname.congr hsame (hmessages name List.mem_cons_self)
      obtain ⟨hresult, hdirs, hsoundMid, hleftMid, hcandidatesMid⟩ :=
        hstep.run_takeable hopens hcwd hsame hsound hnameCurrent hcandidates
      have hnotMem : name ∉ front ++ rest := by
        have hnodup := nodup_candidates mailbox current home .oldest
        rw [hcandidates] at hnodup
        exact (List.nodup_cons.mp hnodup).1
      have hmessagesMid : ∀ other ∈ front ++ rest,
          world.tree.message? home other = (step.run current).2.tree.message? home other := by
        intro other hother
        have hne : other ≠ name := fun heq => hnotMem (heq ▸ hother)
        rw [hmessages other (List.mem_cons_of_mem _ hother), hleftMid, if_neg hne]
      obtain ⟨after, hrun, hdirsLast, hsoundLast, hleft⟩ :=
        ih ((step.cwd_run current).trans hcwd) (hsame.trans hdirs) hsoundMid hmessagesMid
          hcandidatesMid
      refine ⟨after, ?_, hdirs.trans hdirsLast, hsoundLast, ?_⟩
      · rw [List.length_cons, Procedure.run_repeated_succ, hrun, hresult]
        rfl
      · intro other
        rw [hleft, hleftMid]
        by_cases heq : other = name
        · simp [heq]
        · simp [heq]

end Repetition

/-! ## What waits is what is received -/

theorem takes_takeNext (mailbox : Mailbox) (world : World) :
    Takes (mailbox.takeNext .oldest).run id mailbox world where
  exists_start := fun {current} _ _ => ⟨current, rfl, rfl, rfl, rfl⟩

theorem takes_receiving
    {dir? : Option Path}
    (hhome : Course.outcome (Invocation.home dir?) world = (.ok mailbox.dir, world)) (json : Bool)
    (limit : Nat) :
    Takes ((CommandLine.receiving dir? json).perform limit) (CommandLine.receiptEnding json) mailbox
      world where
  exists_start := fun hcwd hsame =>
    CommandLine.exists_run_receiving (Invocation.outcome_home_congr hhome hcwd hsame) json limit

theorem displayed_names
    (hnames : ∀ name ∈ names, Name.IsPlain (Bytes.ofText name)) :
    ((names.map mailbox.entry).filterMap Path.fileName?).map Bytes.display = names := by
  induction names with
  | nil => rfl
  | cons name rest ih =>
      have hname := Path.fileName?_child mailbox.dir (hnames name List.mem_cons_self)
      have hrest := ih fun other hother => hnames other (List.mem_cons_of_mem _ hother)
      rw [List.map_cons, List.filterMap_cons, entry, hname]
      simp only [List.map_cons, Bytes.display_ofText]
      rw [hrest]

/-- The program prints the names of the waiting messages. -/
theorem Opens.run_listing
    (h : mailbox.Opens world home) (hsound : world.tree.Sound) {dir? : Option Path}
    (hhome : Course.outcome (Invocation.home dir?) world = (.ok mailbox.dir, world)) (json : Bool)
    (limit : Nat) :
    (((CommandLine.listing dir? json).perform limit).run world).1 =
      some (.done (Invocation.pendingText json (mailbox.candidates world home .oldest))) := by
  obtain ⟨start, htree, hcwd, hrun⟩ := CommandLine.exists_run_listing hhome json limit
  have hstart : mailbox.Opens start home := h.of_sameDirectories hcwd (htree ▸ .refl _)
  have hsame := hstart.candidates_oldest_congr (htree ▸ hsound) h hsound fun _ => by rw [htree]
  have hpending := hstart.outcome_pending .oldest
  rw [hsame] at hpending
  rw [hrun _ (by rw [hpending]), displayed_names]
  exact fun name hname => (h.exists_of_mem_candidates hsound hname).1.plain

/-- What waited is what is received: the messages in `front`, with the texts in `bodies`, and then
an error because of what is at the head of `rest`. -/
structure Drains (mailbox : Mailbox) (world : World) (home : Location)
    (front rest bodies : List String) : Prop where
  pending_eq : (Action.outcome (mailbox.pending .oldest) world).1 =
    .ok ((front ++ rest).map mailbox.entry)
  takeable : List.Forall₂ (Takeable mailbox world.tree home) front bodies
  not_takeable : ∀ name ∈ rest.head?, ∀ body, ¬Takeable mailbox world.tree home name body
  /-- One call of all that are made fails, the last one. -/
  length_le : bodies.length + 1 ≤ (front ++ rest).length + 1
  take_eq : ∃ after, ((mailbox.takeNext .oldest).run.repeated (bodies.length + 1)).run world =
      (bodies.map .ok ++ [.error (mailbox.drainError world.tree home rest)], after) ∧
    (Action.outcome (mailbox.pending .oldest) after).1 = .ok (rest.map mailbox.entry) ∧
    ∀ name, after.tree.message? home name =
      if name ∈ front then none else world.tree.message? home name
  /-- Programs that receive print what a program that lists has announced. -/
  programs_eq : ∀ dir? json limit,
    Course.outcome (Invocation.home dir?) world = (.ok mailbox.dir, world) →
      (((CommandLine.listing dir? json).perform limit).run world).1 =
          some (.done (Invocation.pendingText json (front ++ rest))) ∧
        (((((CommandLine.receiving dir? json).perform limit).repeated
          (bodies.length + 1)).run world).1 =
            bodies.map (fun body => some (.done (Invocation.receiveText json body))) ++
              [some (.failed (.mail (mailbox.drainError world.tree home rest)))])

/-- Receiving, oldest first, until it fails gives the texts of the waiting messages in the order in
which they are announced, up to the first one that cannot be taken. -/
theorem drain_eq_pending
    (hsound : world.tree.Sound) (hopens : mailbox.Opens world home) :
    ∃ front rest bodies, Drains mailbox world home front rest bodies := by
  obtain ⟨front, rest, bodies, hcandidates, hfront, hrest⟩ :=
    exists_takeable_front mailbox world.tree home (mailbox.candidates world home .oldest)
  have hrun {α : Type} {step : Procedure α} {result : Except MailError String → α}
      (hstep : Takes step result mailbox world) :=
    hstep.run_repeated hopens hfront hrest rfl (.refl _) hsound (fun _ _ => rfl) hcandidates
  refine ⟨front, rest, bodies, ?_, hfront, hrest, ?_, ?_, ?_⟩
  · rw [hopens.outcome_pending, hcandidates]
  · rw [← hfront.length_eq, List.length_append]
    omega
  · obtain ⟨after, hafter, hdirs, hsoundAfter, hleft⟩ := hrun (takes_takeNext mailbox world)
    have hcwd := Procedure.cwd_run
      ((mailbox.takeNext .oldest).run.repeated (bodies.length + 1)) world
    rw [hafter] at hcwd
    have hopensAfter := hopens.of_sameDirectories hcwd hdirs
    refine ⟨after, hafter, ?_, hleft⟩
    rw [hopensAfter.outcome_pending,
      hopens.candidates_eq_rest hsound hopensAfter hsoundAfter hcandidates hleft]
  · intro dir? json limit hhome
    obtain ⟨after, hafter, -⟩ := hrun (takes_receiving hhome json limit)
    constructor
    · rw [hopens.run_listing hsound hhome, hcandidates]
    · rw [hafter]
      rfl

/-- One message can be read, the next one is no text: the first is taken, and the other stays. -/
theorem drain_eq_pending_of_two :
    let before := World.blank.withTree ((Tree.empty.write [] "a.eml" (Bytes.ofText "hi")).write []
      "b.eml" [0xff])
    before.tree.Sound ∧ here.Opens before [] ∧
      Drains here before [] ["a.eml"] ["b.eml"] ["hi"] := by
  intro before
  have hsound : before.tree.Sound :=
    Tree.sound_write_write (by decide) (by decide) (by decide) (by decide) _ _
  have hopens : here.Opens before [] := opens_here rfl
  have hmessages : ∀ name, before.tree.message? [] name =
      if name = "b.eml" then some [0xff]
      else if name = "a.eml" then some (Bytes.ofText "hi") else none := by
    intro name
    rw [World.tree_withTree, Tree.message?_write (by decide), Tree.message?_write (by decide),
      Tree.message?, Tree.child?_empty]
    simp
  have hcandidates : here.candidates before [] .oldest = ["a.eml", "b.eml"] := by
    refine hopens.candidates_oldest_eq hsound (by decide +kernel) (by decide) fun name => ?_
    rw [hmessages, List.mem_pair]
    constructor
    · rintro (rfl | rfl) <;> exact ⟨⟨_, rfl⟩, by decide⟩
    · rintro ⟨⟨content, hmessage⟩, -⟩
      by_contra hother
      rw [not_or] at hother
      rw [if_neg hother.2, if_neg hother.1] at hmessage
      cases hmessage
  have hfirst : Takeable here before.tree [] "a.eml" "hi" :=
    ⟨hmessages "a.eml", fits_claimPath_of_length (by decide) (by decide), by decide,
      by decide +kernel⟩
  have hsecond : ∀ body, ¬Takeable here before.tree [] "b.eml" body := by
    intro body hbody
    have hbytes : Bytes.ofText body = [0xff] :=
      Option.some.inj (hbody.text.symm.trans (hmessages "b.eml"))
    have hnone : Bytes.text? [0xff] = none := by decide +kernel
    rw [← hbytes, Bytes.text?_ofText] at hnone
    cases hnone
  obtain ⟨front, rest, bodies, hdrains⟩ := drain_eq_pending hsound hopens
  have hnames : front ++ rest = ["a.eml"] ++ ["b.eml"] := by
    have hpending := hdrains.pending_eq
    rw [hopens.outcome_pending, hcandidates] at hpending
    exact (List.map_injective_iff.mpr entry_here_injective (Except.ok.inj hpending)).symm
  obtain ⟨rfl, rfl, rfl⟩ := takeable_front_unique hnames hdrains.takeable hdrains.not_takeable
    (.cons hfirst .nil) (by simpa using hsecond)
  exact ⟨hsound, hopens, hdrains⟩

/-- A message that can be read, whose claim would have a short name that no directory bears, still
cannot be taken when the path of the claim is too long. -/
theorem long_claim_path_not_taken :
    let world := World.blank.withTree ((Tree.lone 0x62).write [[0x62]] "m.eml" (Bytes.ofText "hi"))
    let mailbox : Mailbox := ⟨Path.stretched 4079 0x62⟩
    world.tree.Sound ∧ mailbox.Opens world [[0x62]] ∧
      (Action.outcome (mailbox.pending .oldest) world).1 = .ok [mailbox.entry "m.eml"] ∧
      world.tree.message? [[0x62]] "m.eml" = some (Bytes.ofText "hi") ∧
      (Bytes.ofText (MessageName.claim "m.eml")).length ≤ Path.maxName ∧
      world.tree.child? [[0x62]] (MessageName.claim "m.eml") ≠ some .directory ∧
      Action.outcome (mailbox.takeNext .oldest) world =
        (.error (.io (mailbox.entry "m.eml") .nameTooLong), world) := by
  intro world mailbox
  have hb : Name.IsPlain [0x62] := by decide
  have hplain : Name.IsPlain (Bytes.ofText "m.eml") := by decide
  have hvisible : MessageName.isVisible "m.eml" = true := by decide
  have hhome : world.tree.get? [[0x62]] = some .directory :=
    (Tree.sameDirectories_write (by simp) [[0x62]]).mp (Tree.get?_lone 0x62)
  have hsound : world.tree.Sound :=
    (Tree.sound_lone hb).write (Tree.get?_lone 0x62) hplain (by decide) (by simp)
  have hopens : mailbox.Opens world [[0x62]] := opens_stretched hb (by decide) rfl hhome
  have hfile : world.tree.child? [[0x62]] "m.eml" = some (.file (Bytes.ofText "hi")) := by
    simp [world]
  have hlength : mailbox.dir.bytes.length = 4082 := Path.length_stretched 4079 0x62
  have hfits : Fits (mailbox.entry "m.eml") :=
    fits_of_length hplain (by rw [hlength]; decide)
  have hmessages : ∀ name, world.tree.message? [[0x62]] name =
      if name = "m.eml" then some (Bytes.ofText "hi") else none := by
    intro name
    rw [World.tree_withTree, Tree.message?_write hvisible, Tree.message?_lone]
  have hcandidates : mailbox.candidates world [[0x62]] .oldest = ["m.eml"] :=
    hopens.candidates_eq_singleton hsound hmessages hfits
  have hclaim : mailbox.claimFault? world.tree [[0x62]] "m.eml" = some .nameTooLong := by
    have hpath : claimPath (mailbox.entry "m.eml") "m.eml" =
        mailbox.entry (MessageName.claim "m.eml") :=
      Path.withFileName_child_stretched hb hplain _
    have hlong : ¬Fits (mailbox.entry (MessageName.claim "m.eml")) :=
      not_fits_of_length (MessageName.isPlain_claim hplain) (by rw [hlength]; decide)
    rw [claimFault?, hpath, if_pos hlong]
  refine ⟨hsound, hopens, ?_, Tree.message?_eq_some_iff.mpr ⟨hvisible, hfile⟩, by decide, ?_, ?_⟩
  · rw [hopens.outcome_pending, hcandidates]
    rfl
  · have hne : MessageName.claim "m.eml" ≠ "m.eml" := by decide
    simp [world, hne]
  · rw [hopens.outcome_takeNext_cons hsound hcandidates hfile, receipt, hclaim]

end Takeables

end Mailbox

end Postbox
