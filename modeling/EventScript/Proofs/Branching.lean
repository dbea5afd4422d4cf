/-
How events go on: the branch that is taken and the event that follows.

After the action of an event, or of an option, the conditions of the branches are asked one
after another, on the cast and the variables that the action has left, until one holds; that
branch is carried out, and no later condition is asked.

* `Script.jumpsMade` — the jumps that a script makes with some dice, those in loops apart;
* `Script.jump?_run` — after a script, the last of them is due together with its pause, or the
  jump that was due before if there are none;
* `Branch.Enacts`, `Event.Enacts` — what an action and the first branch whose condition holds come
  to;
* `Rulebook.runActions_enacts` — that is how actions and branches are carried out;
* `first_branch_decides_what_follows` — so it is after events that settle by themselves and
  after options; what comes before an event never lets anything follow.
-/
import EventScript.Proofs.Chronicle
import EventScript.Proofs.Persistence

namespace EventScript

open Relation

variable {n : Nat}

/-! ### Jumps that are made -/

/-- The jump that is due: the event that is to follow, with its pause. -/
def Progress.jump? (p : Progress n) : Option Jump :=
  p.next.map (⟨·, p.pause⟩)

/-- The jump that an event leaves behind. -/
def Aftermath.jump? (a : Aftermath n) : Option Jump :=
  a.next.map (⟨·, a.pause⟩)

/-- The jump that an operation makes. Dice decide about one that has a chance. -/
def Operation.jumpMade (w : World n) (subject : Seat n) (scope : Scope) :
    Operation → Chance (Option Jump)
  | jump event pause => pure (some ⟨event, pause⟩)
  | chanceJump chance event otherwise => do
    let x ← Dice.rollUnit
    let percent ← evaluateQuantity w subject scope chance
    pure (if x * 100 < Float.ofInt percent then some ⟨event, false⟩
      else otherwise.map (⟨·, false⟩))
  | _ => pure none

/-- The jump that a statement makes: that of its operation, if its guard holds and it has an
actor. -/
def Statement.jumpMade (s : Statement) (subject : Seat n) (p : Progress n) :
    Chance (Option Jump) := do
  if ← s.passes subject p then
    match s.actor? subject p with
    | some _ => s.operation.jumpMade p.world subject p.scope
    | none => pure none
  else pure none

/-- The jump that a step makes. What a loop carries out for the members of a list makes none. -/
def Step.jumpMade : Step → Seat n → Progress n → Chance (Option Jump)
  | .mk _ statement _ => statement.jumpMade

/-- The jumps that a script makes with some dice, one step after another. -/
def Script.jumpsMade (subject : Seat n) : List Step → Progress n → Dice → List Jump
  | [], _, _ => []
  | s :: rest, p, d =>
    let a := (s.attempt subject p).run d
    ((s.jumpMade subject p).run d).1.toList ++
      jumpsMade subject rest (a.1.progress.record (s.outcome a.1.skipped)) a.2

/-- The last jump that a command makes with some dice. -/
def lastJump? (w : World n) (subject : Seat n) (scope : Scope) (command : Text) (d : Dice) :
    Option Jump :=
  (Script.jumpsMade subject (Script.read command) (.start w scope) d).getLast?

theorem Progress.jump?_of_deeds {p q : Progress n} (h : ReflTransGen Progress.Deed p q) :
    q.jump? = p.jump? := by
  induction h with
  | refl => rfl
  | tail _ hdeed ih =>
    rw [← ih]
    cases hdeed <;> rfl

namespace Operation

/-- An operation that cannot jump leaves the jump that is due as it is. -/
theorem jump?_apply_of_jumps (subject actor : Seat n)
    (loop : Seat n → Progress n → Chance (Progress n)) (p : Progress n) {op : Operation}
    (hop : op.jumps = []) :
    Chance.Ensures (op.apply subject actor loop p) fun a => a.progress.jump? = p.jump? := by
  cases hloop : op.isLoop with
  | false =>
    refine (apply_deeds subject actor loop p hloop).2.mono fun a ha => ?_
    rw [hop] at ha
    exact Progress.jump?_of_deeds ha.progress
  | true =>
    cases op with
    | forEach list command =>
      rw [apply]
      split
      · exact .pure rfl
      -- the jumps of the script for each member are dropped with the progress it makes
      · exact .bind_of_forall fun later => .pure rfl
    | _ => simp [isLoop] at hloop

/-- After an operation the jump that it has made is due, or else the one from before. -/
theorem jump?_apply (subject actor : Seat n) (loop : Seat n → Progress n → Chance (Progress n))
    (p : Progress n) (op : Operation) (d : Dice) :
    ((op.apply subject actor loop p).run d).1.progress.jump? =
      ((op.jumpMade p.world subject p.scope).run d).1.or p.jump? := by
  cases op with
  | jump event pause => rfl
  | chanceJump chance event otherwise =>
    -- both roll for the chance first and evaluate the percentage then
    let x := Dice.rollUnit.run d
    let percent := (evaluateQuantity p.world subject p.scope chance).run x.2
    show ((if x.1 * 100 < Float.ofInt percent.1 then _ else _ :
        Chance (Attempt n)).run percent.2).1.progress.jump? =
      (if x.1 * 100 < Float.ofInt percent.1 then some ⟨event, false⟩
        else otherwise.map (⟨·, false⟩) : Option Jump).or p.jump?
    by_cases hfalls : x.1 * 100 < Float.ofInt percent.1
    · rw [if_pos hfalls, if_pos hfalls]
      rfl
    · rw [if_neg hfalls, if_neg hfalls]
      cases otherwise with
      | some other => rfl
      | none => rfl
  | _ => exact jump?_apply_of_jumps subject actor loop p rfl d

end Operation

theorem Statement.jump?_attempt (s : Statement) (subject : Seat n)
    (loop : Seat n → Progress n → Chance (Progress n)) (p : Progress n) (d : Dice) :
    ((s.attempt subject loop p).run d).1.progress.jump? =
      ((s.jumpMade subject p).run d).1.or p.jump? := by
  rw [attempt, jumpMade, StateT.run_bind, StateT.run_bind]
  show ((_ : Chance (Attempt n)).run ((s.passes subject p).run d).2).1.progress.jump? =
    ((_ : Chance (Option Jump)).run ((s.passes subject p).run d).2).1.or p.jump?
  cases ((s.passes subject p).run d).1 with
  | false => rfl
  | true =>
    cases s.actor? subject p with
    | none => rfl
    | some actor => exact s.operation.jump?_apply subject actor loop p _

theorem Step.jump?_attempt (s : Step) (subject : Seat n) (p : Progress n) (d : Dice) :
    ((s.attempt subject p).run d).1.progress.jump? =
      ((s.jumpMade subject p).run d).1.or p.jump? := by
  obtain ⟨raw, statement, body⟩ := s
  rw [Step.attempt]
  exact statement.jump?_attempt subject _ p d

/-- After a script the last of the jumps that it has made is due, or else the one from before. -/
theorem Script.jump?_run (script : List Step) (subject : Seat n) (p : Progress n) (d : Dice) :
    ((Script.run script subject p).run d).1.jump? =
      (jumpsMade subject script p d).getLast?.or p.jump? := by
  induction script generalizing p d with
  | nil =>
    rw [Script.run]
    rfl
  | cons s rest ih =>
    let a := (s.attempt subject p).run d
    have hrest := ih (a.1.progress.record (s.outcome a.1.skipped)) a.2
    have hstep : (a.1.progress.record (s.outcome a.1.skipped)).jump? =
        ((s.jumpMade subject p).run d).1.or p.jump? := s.jump?_attempt subject p d
    have hlast : ∀ (j? : Option Jump) (later : List Jump),
        (j?.toList ++ later).getLast? = later.getLast?.or j? := by
      intro j? later
      rw [List.getLast?_append]
      cases j? <;> rfl
    rw [Script.run, StateT.run_bind, jumpsMade, hlast, Option.or_assoc, ← hstep]
    exact hrest

theorem jump?_execute (w : World n) (subject : Seat n) (scope : Scope) (command : Text)
    (d : Dice) :
    ((execute w subject scope command).run d).1.jump? = lastJump? w subject scope command d := by
  rw [execute, Script.jump?_run]
  exact Option.or_none

/-! ### The branch that is taken -/

/-- The jump that a branch makes by itself: to the event that it names, and at once. -/
def Branch.target? (b : Branch) : Option Jump :=
  (b.next.filter (! ·.isEmpty)).map (⟨·.toList, false⟩)

/-- The conditions of branches are asked one after another, and none of them holds. The dice
go from the first ones to the second ones. -/
inductive Branch.NoneHolds (i : Seat n) (choice : Option Int) (p : Progress n) :
    List Branch → Dice → Dice → Prop where
  | nil (d : Dice) : NoneHolds i choice p [] d d
  | cons {b : Branch} {rest : List Branch} {d d' d'' : Dice}
      (hb : (evaluateCondition p.world choice i p.scope b.condition.toList).run d = (false, d'))
      (hrest : NoneHolds i choice p rest d' d'') : NoneHolds i choice p (b :: rest) d d''

/-- What the branches of an event make of a progress, with dice that go from the first ones to
the second ones. -/
inductive Branch.Enacts (i : Seat n) (choice : Option Int) (p : Progress n)
    (branches : List Branch) (d : Dice) : Progress n → Dice → Prop where
  /-- No condition holds. -/
  | none {d' : Dice} (hnone : NoneHolds i choice p branches d d') :
    Enacts i choice p branches d p d'
  /-- The first branch whose condition holds is carried out. The event that it names follows, or
  else the one of its last jump, or else the one that was due. -/
  | first {before after : List Branch} {b : Branch} {d₁ d₂ d₃ : Dice} {q r : Progress n}
      (hsplit : branches = before ++ b :: after)
      (hnone : NoneHolds i choice p before d d₁)
      (hholds : (evaluateCondition p.world choice i p.scope b.condition.toList).run d₁ = (true, d₂))
      (haction : (execute p.world i p.scope b.action.toList).run d₂ = (q, d₃))
      (hworld : r.world = q.world) (hscope : r.scope = q.scope)
      (hjump : r.jump? =
        b.target?.or ((lastJump? p.world i p.scope b.action.toList d₂).or p.jump?)) :
      Enacts i choice p branches d r d₃

/-- What a command and then the branches of an event come to. The last jump of the command is
due when the first condition is asked. -/
def Event.Enacts (e : Event) (i : Seat n) (choice : Option Int) (w : World n) (scope : Scope)
    (command : Text) (d : Dice) (q : Progress n) (d' : Dice) : Prop :=
  ∃ p d₁, (execute w i scope command).run d = (p, d₁) ∧
    p.jump? = lastJump? w i scope command d ∧ Branch.Enacts i choice p e.branches d₁ q d'

/-- An event leaves behind what its actions have come to, with some cast. -/
structure Aftermath.Leaves (a : Aftermath n) (q : Progress n) (cast : Vector Character n) :
    Prop where
  jump?_eq : a.jump? = q.jump?
  scope_eq : a.scope = q.scope
  cast_eq : a.session.cast = cast

theorem Branch.Enacts.skip {i : Seat n} {choice : Option Int} {p r : Progress n} {b : Branch}
    {rest : List Branch} {d d₀ d' : Dice}
    (hb : (evaluateCondition p.world choice i p.scope b.condition.toList).run d = (false, d₀))
    (h : Branch.Enacts i choice p rest d₀ r d') : Branch.Enacts i choice p (b :: rest) d r d' := by
  cases h with
  | none hnone => exact .none (.cons hb hnone)
  | first hsplit hnone hholds haction hworld hscope hjump =>
    exact .first (congrArg (b :: ·) hsplit) (.cons hb hnone) hholds haction hworld hscope hjump

namespace Progress

/-- How far an event has come once one of its branches has been carried out, from `p` to `q`. -/
def afterBranch (p q : Progress n) (b : Branch) : Progress n :=
  let q := if q.next.isNone then p.withoutJump q else q
  match b.next with
  | some id => if id.isEmpty then q else { q with next := some id.toList, pause := false }
  | none => q

/-- Nothing but the jump depends on what was before the branch. -/
theorem afterBranch_eq (p q : Progress n) (b : Branch) :
    p.afterBranch q b =
      { q with next := (p.afterBranch q b).next, pause := (p.afterBranch q b).pause } := by
  rw [afterBranch]
  cases b.next with
  | none => cases q.next <;> rfl
  | some id =>
    dsimp only
    cases id.isEmpty <;> cases q.next <;> rfl

/-- The event that the branch names comes first, then a jump of the branch, then the one that was
due. -/
theorem jump?_afterBranch (p q : Progress n) (b : Branch) :
    (p.afterBranch q b).jump? = b.target?.or (q.jump?.or p.jump?) := by
  have hcarry : (if q.next.isNone then p.withoutJump q else q).jump? = q.jump?.or p.jump? := by
    obtain ⟨world, scope, next, pause, outcomes⟩ := q
    cases next with
    | none => rfl
    | some event => rfl
  rw [afterBranch, Branch.target?]
  cases b.next with
  | none => exact hcarry
  | some id =>
    rw [Option.filter_some]
    dsimp only
    cases id.isEmpty with
    | true => exact hcarry
    | false => rfl

end Progress

namespace Rulebook

theorem runBranches_cons (i : Seat n) (choice : Option Int) (b : Branch) (rest : List Branch)
    (p : Progress n) :
    runBranches i choice (b :: rest) p = (do
      if ← evaluateCondition p.world choice i p.scope b.condition.toList then
        (p.afterBranch · b) <$> execute p.world i p.scope b.action.toList
      else runBranches i choice rest p) := by
  rw [runBranches]
  refine bind_congr fun holds => ?_
  cases holds with
  | false => rfl
  | true =>
    rw [if_pos rfl, if_pos rfl, map_eq_pure_bind]
    refine bind_congr fun q => ?_
    rw [Progress.afterBranch]
    cases b.next with
    | none => rfl
    | some id => rfl

theorem runBranches_enacts (i : Seat n) (choice : Option Int) (branches : List Branch)
    (p : Progress n) (d : Dice) :
    Branch.Enacts i choice p branches d ((runBranches i choice branches p).run d).1
      ((runBranches i choice branches p).run d).2 := by
  induction branches generalizing d with
  | nil => exact .none (.nil d)
  | cons b rest ih =>
    rw [runBranches_cons, StateT.run_bind]
    cases hb : (evaluateCondition p.world choice i p.scope b.condition.toList).run d with
    | mk holds d₁ =>
      cases holds with
      -- the progress stays the same for the next branch, and only the dice have been rolled
      | false => exact (ih d₁).skip hb
      | true =>
        let q := (execute p.world i p.scope b.action.toList).run d₁
        have hworld : (p.afterBranch q.1 b).world = q.1.world := by rw [p.afterBranch_eq]
        have hscope : (p.afterBranch q.1 b).scope = q.1.scope := by rw [p.afterBranch_eq]
        have hjump := p.jump?_afterBranch q.1 b
        rw [jump?_execute] at hjump
        have hfirst : b :: rest = [] ++ b :: rest := rfl
        have htaken : Branch.Enacts i choice p (b :: rest) d (p.afterBranch q.1 b) q.2 :=
          .first hfirst (.nil d) hb rfl hworld hscope hjump
        exact htaken

/-- What a command and the branches of an event come to. -/
theorem runActions_enacts (w : World n) (i : Seat n) (scope : Scope) (e : Event)
    (command : String) (choice : Option Int) (d : Dice) :
    e.Enacts i choice w scope command.toList d ((runActions w i scope e command choice).run d).1
      ((runActions w i scope e command choice).run d).2 :=
  ⟨_, _, rfl, jump?_execute w i scope command.toList d, runBranches_enacts i choice e.branches _ _⟩

variable (rules : Rulebook)

/-! ### What follows -/

theorem settleOption_leaves (s : Session n) (i : Seat n) (e : Event) {index : Nat}
    {option : Choice} (hoption : e.options[index]? = some option) (scope : Scope) (alone : Bool)
    (d : Dice) :
    let q := (runActions (s.world rules.settings) i scope e (rules.optionCommand option alone)
      (some ((index : Int) + 1))).run d
    ∃ a, ((rules.settleOption s i e index scope alone).run.run d).1 = .ok a ∧
      a.Leaves q.1 (rules.absorb s i e q.1.world).cast := by
  intro q
  rw [settleOption, hoption]
  refine ⟨_, rfl, rfl, rfl, ?_⟩
  rw [cast_checkEnding, Session.cast_note]
  rfl

theorem cast_count {s t : Session n} (h : s.cast = t.cast) (i : Seat n) (e : Event) :
    (count s i e).cast = (count t i e).cast :=
  congrArg (fun cast => cast.set i.val ((cast.get i).countEvent e.id) i.isLt) h

theorem settle_leaves (s : Session n) (i : Seat n) (e : Event) (scope : Scope) (split : Bool)
    (d : Dice) :
    let pre := (execute (s.world rules.settings) i scope e.preAction.toList).run d
    let q := (runActions pre.1.world i pre.1.scope e e.action none).run pre.2
    Play.Outcome (fun a => a.Leaves q.1 (count (rules.absorb s i e q.1.world) i e).cast)
      (rules.CannotForget (s.character i).name)
      ((rules.settle s i e scope split).run.run d).1 := by
  intro pre q
  let later := rules.absorb s i e q.1.world
  let text := (rules.render later i q.1.scope e.body).run q.2
  let forgotten := (befalls split rules.settings.splitForgetChance).run text.2
  -- what is told in the end changes neither the jump nor the cast
  have hend : Play.Ensures (do
      let told ← Play.ofExcept (rules.retell (later.character i) forgotten.1 text.1)
      let noted := later.note (later.character i).name told .event false
        (rules.effectsSince s later i)
      pure ⟨rules.checkEnding e (count noted i e), q.1.next, q.1.pause, q.1.scope⟩ :
        Play (Aftermath n))
      (fun a => a.Leaves q.1 (count later i e).cast) fun _ => True := by
    refine .bind (.trivial _) fun told _ => .pure ⟨rfl, rfl, ?_⟩
    rw [cast_checkEnding]
    exact cast_count (Session.cast_note ..) i e
  have hleaves := (hend forgotten.2).and (rules.settle_evolves s i e scope split d)
  exact hleaves.mono fun a ha => ha.1

/-- The session in which the other self chooses: that the memory is lost is on record. -/
def unaware (s : Session n) (i : Seat n) (e : Event) (lost : String) : Session n :=
  s.note (s.character i).name lost .event (!e.title.isEmpty) []

/-- The position of the option that the other self chooses. -/
def choiceAlone (s : Session n) (i : Seat n) (e : Event) (scope : Scope) : Chance Nat :=
  rules.visibleOptions s i scope e >>= drawPosition

theorem choiceAlone_ensures (s : Session n) (i : Seat n) {e : Event} (he : e.isInteractive = true)
    (scope : Scope) : Chance.Ensures (rules.choiceAlone s i e scope) (· < e.options.length) :=
  .bind (rules.visibleOptions_ensures s i scope e) fun _ hvisible =>
    drawPosition_ensures hvisible (length_options_pos he)

/-- What the other self chooses is settled as an option, with the cast and the variables that the
action before the event has left. -/
theorem settleAlone_eq (s : Session n) (i : Seat n) (e : Event) (scope : Scope) (d : Dice) :
    let pre := (execute (s.world rules.settings) i scope e.preAction.toList).run d
    let there : Session n := { s with cast := pre.1.world.cast }
    ∀ lost, rules.memoryLost (there.character i) = .ok lost →
      let chosen := (rules.choiceAlone (unaware there i e lost) i e pre.1.scope).run pre.2
      (rules.settleAlone s i e scope).run.run d =
        (rules.settleOption (count (unaware there i e lost) i e) i e chosen.1 pre.1.scope
          true).run.run chosen.2 := by
  intro pre there lost hlost chosen
  have hrest : (rules.settleAlone s i e scope).run.run d = (do
      let lost ← Play.ofExcept (rules.memoryLost (there.character i))
      let index ← Play.chance (rules.choiceAlone (unaware there i e lost) i e pre.1.scope)
      rules.settleOption (count (unaware there i e lost) i e) i e index pre.1.scope true :
        Play (Aftermath n)).run.run pre.2 := rfl
  rw [hrest, hlost]
  rfl

theorem queue_leaves (s : Session n) (i : Seat n) (e : Event) (scope : Scope)
    (fault : Failure → Prop) :
    Play.Ensures (rules.queue s i e scope) (fun a => a.jump? = none) fault :=
  .bind (.chance (.of_forall fun _ => trivial)) fun _ _ =>
    .bind (.chance (.of_forall fun _ => trivial)) fun _ _ => .pure rfl

section Follow

variable {rules : Rulebook} {i : Seat n} {depth : Nat} {a : Aftermath n}

theorem next?_eq_bind_jump? :
    rules.next? a = a.jump?.bind fun j => rules.catalogue.find? (String.ofList j.event) := by
  rw [next?, Aftermath.jump?]
  cases a.next with
  | none => rfl
  | some event => rfl

theorem follow_of_unknown
    (h : ∀ j, a.jump? = some j → rules.catalogue.find? (String.ofList j.event) = none) :
    rules.follow i depth a = pure a.session :=
  follow_of_end (by rw [next?_eq_bind_jump?]; exact Option.bind_eq_none_iff.mpr h)

theorem follow_of_jump {j : Jump} {e : Event} (hjump : a.jump? = some j)
    (hevent : rules.catalogue.find? (String.ofList j.event) = some e) :
    rules.follow i depth a =
      if rules.isTooDeep depth then
        if rules.settings.strict then throw (.chainTooLong e.id (depth + 1)) else pure a.session
      else if j.pause && !e.isInteractive then do
        let item ← Play.chance (rules.pendingOf a.session i e a.scope true)
        pure (a.session.push item)
      else rules.perform a.session i e a.scope >>= rules.follow i (depth + 1) := by
  have hnext : rules.next? a = some e := by
    rw [next?_eq_bind_jump?, hjump]
    exact hevent
  have hpause : a.pause = j.pause := by
    obtain ⟨event, -, hj⟩ := Option.map_eq_some_iff.mp hjump
    exact congrArg Jump.pause hj
  by_cases hdeep : rules.isTooDeep depth
  · rw [follow_of_isTooDeep hnext hdeep, if_pos hdeep]
  · rw [if_neg hdeep, ← hpause]
    by_cases hwaits : (a.pause && !e.isInteractive) = true
    · rw [follow_of_pause hnext hdeep hwaits, if_pos hwaits]
    · rw [follow_of_visit hnext hdeep hwaits, if_neg hwaits]

end Follow

end Rulebook

/-- After the action of an event without options, and after the command of an option, the first
branch whose condition holds is carried out. The event that it names follows, or else the one of
its last jump, or else the one of the last jump of the action or the command, in each case with
the pause that belongs to it. Of what comes before an event only the cast and the variables go
on: an event that is put into the queue lets nothing follow, and what the other self chooses is
one of the options and settled as such. Nothing follows a jump that leads nowhere.

All of this is about events whose scripts and conditions ask for no number that is too long to be
read (`Text.IsShort`); the processing of an event that comes upon one fails with it. -/
theorem first_branch_decides_what_follows (rules : Rulebook) (s : Session n) (i : Seat n)
    (e : Event) (scope : Scope) (d : Dice) :
    (e.isInteractive = false →
      let pre := (execute (s.world rules.settings) i scope e.preAction.toList).run d
      ∃ q d', e.Enacts i none pre.1.world pre.1.scope e.action.toList pre.2 q d' ∧
        Play.Outcome
          (fun a => a.Leaves q (Rulebook.count (rules.absorb s i e q.world) i e).cast)
          (rules.CannotForget (s.character i).name)
          ((rules.perform s i e scope).run.run d).1) ∧
    (∀ (index : Nat) option alone, e.options[index]? = some option →
      ∃ q d' a, e.Enacts i (some ((index : Int) + 1)) (s.world rules.settings) scope
          (rules.optionCommand option alone).toList d q d' ∧
        ((rules.settleOption s i e index scope alone).run.run d).1 = .ok a ∧
        a.Leaves q (rules.absorb s i e q.world).cast) ∧
    (e.isInteractive = true →
      let alone := (Rulebook.befalls ((s.character i).hasTag rules.settings.splitTag)
        rules.settings.splitChoiceChance).run d
      let pre := (execute (s.world rules.settings) i scope e.preAction.toList).run alone.2
      let there : Session n := { s with cast := pre.1.world.cast }
      (alone.1 = false → Play.Outcome (fun a => a.jump? = none) (fun _ => False)
        ((rules.perform s i e scope).run.run d).1) ∧
      (alone.1 = true → ∀ lost, rules.memoryLost (there.character i) = .ok lost →
        let noted := Rulebook.unaware there i e lost
        let chosen := (rules.choiceAlone noted i e pre.1.scope).run pre.2
        chosen.1 < e.options.length ∧
        (rules.perform s i e scope).run.run d =
          (rules.settleOption (Rulebook.count noted i e) i e chosen.1 pre.1.scope true).run.run
            chosen.2)) ∧
    (rules.process s i e scope = rules.perform s i e scope >>= rules.follow i 0 ∧
      ∀ (item : Pending) (index : Int), item.continuation = false →
        rules.answer s i item index =
          rules.settleOption (s.note (s.character i).name item.text .event
            (!item.event.title.isEmpty) []) i item.event index.toNat item.scope false >>=
              rules.follow i 0) ∧
    ∀ depth (a : Aftermath n),
      ((∀ j, a.jump? = some j → rules.catalogue.find? (String.ofList j.event) = none) →
        rules.follow i depth a = pure a.session) ∧
      ∀ j next, a.jump? = some j →
        rules.catalogue.find? (String.ofList j.event) = some next →
        rules.follow i depth a =
          if rules.isTooDeep depth then
            if rules.settings.strict then throw (.chainTooLong next.id (depth + 1))
            else pure a.session
          else if j.pause && !next.isInteractive then do
            let item ← Play.chance (rules.pendingOf a.session i next a.scope true)
            pure (a.session.push item)
          else rules.perform a.session i next a.scope >>= rules.follow i (depth + 1) := by
  refine ⟨?_, ?_, ?_, ⟨rfl, fun item index hitem => ?_⟩,
    fun depth a => ⟨Rulebook.follow_of_unknown, fun j next => Rulebook.follow_of_jump⟩⟩
  · intro he pre
    refine ⟨_, _, Rulebook.runActions_enacts pre.1.world i pre.1.scope e e.action none pre.2, ?_⟩
    have hsettle : rules.perform s i e scope =
        rules.settle s i e scope ((s.character i).hasTag rules.settings.splitTag) := by
      unfold Rulebook.perform
      simp only [he, Bool.false_eq_true, if_false]
    rw [hsettle]
    exact rules.settle_leaves s i e scope _ d
  · intro index option alone hoption
    obtain ⟨a, ha, hleaves⟩ := rules.settleOption_leaves s i e hoption scope alone d
    exact ⟨_, _, a, Rulebook.runActions_enacts .., ha, hleaves⟩
  · intro he alone pre there
    have hperform : (rules.perform s i e scope).run.run d =
        ((if alone.1 then rules.settleAlone s i e scope else rules.queue s i e scope) :
          Play (Aftermath n)).run.run alone.2 := by
      unfold Rulebook.perform
      simp only [he, if_true]
      rfl
    rw [hperform]
    refine ⟨fun halone => ?_, fun halone lost hlost => ⟨?_, ?_⟩⟩
    · simp only [halone, Bool.false_eq_true, if_false]
      exact rules.queue_leaves s i e scope _ alone.2
    · exact rules.choiceAlone_ensures _ i he pre.1.scope pre.2
    · simp only [halone, if_true]
      exact rules.settleAlone_eq s i e scope alone.2 lost hlost
  · rw [Rulebook.answer, hitem]
    rfl

/-- A fork in the road. Where it leads is decided by the first branch that is open. -/
def fork : Event :=
  { Event.plain "岔路" with
    preAction := "跳转 黄昏", action := "属性变更 体力 -5; 跳转 黄昏"
    branches := [⟨"", "属性.体力 > 100", "", some "黄昏"⟩, ⟨"", "属性.体力 < 100", "继续 黎明", none⟩,
      ⟨"", "属性.体力 >= 0", "跳转 黄昏", none⟩] }

/-- A signpost at which a way has to be chosen. -/
def signpost : Event :=
  { Event.plain "路牌" with
    options := [⟨"向东", "跳转 黄昏", ""⟩, ⟨"向西", "继续 黄昏", ""⟩]
    branches := [⟨"", "已选序号 == 1", "", none⟩, ⟨"", "已选序号 == 2", "", some "黎明"⟩] }

/-- At the fork the action has opened the second branch, whose jump waits for the player. At the
signpost the event that the branch of the second option names follows at once, and while it waits
for a choice nothing follows. -/
theorem ways_part :
    fork.isInteractive = false ∧ signpost.isInteractive = true ∧
    signpost.options[1]? = some ⟨"向西", "继续 黄昏", ""⟩ ∧
    (∃ pre, (execute (evening.world nightRules.settings) 1 .empty fork.preAction.toList).run
        (.fresh fun _ => 0) = pre ∧ pre.1.jump? = some ⟨"黄昏".toList, false⟩ ∧
      ∃ q d', fork.Enacts 1 none pre.1.world pre.1.scope fork.action.toList pre.2 q d' ∧
        q.jump? = some ⟨"黎明".toList, true⟩) ∧
    (∃ q d', signpost.Enacts 1 (some 2) (evening.world nightRules.settings) .empty
        (nightRules.optionCommand ⟨"向西", "继续 黄昏", ""⟩ false).toList (.fresh fun _ => 0) q d' ∧
      q.jump? = some ⟨"黎明".toList, false⟩) ∧
    Play.Outcome (fun a => a.jump? = none) (fun _ => False)
      ((nightRules.perform evening 1 signpost .empty).run.run (.fresh fun _ => 0)).1 ∧
    nightRules.follow 1 0 (⟨evening, some "正午".toList, true, .empty⟩ : Aftermath 2) =
      pure evening := by
  have hfork : fork.isInteractive = false := rfl
  have hsignpost : signpost.isInteractive = true := rfl
  have hoption : signpost.options[1]? = some ⟨"向西", "继续 黄昏", ""⟩ := rfl
  refine ⟨hfork, hsignpost, hoption, ?_, ?_, ?_, ?_⟩
  · obtain ⟨q, d', hq, hleaves⟩ :=
      (first_branch_decides_what_follows nightRules evening 1 fork .empty (.fresh fun _ => 0)).1
        hfork
    have hjump : ((nightRules.perform evening 1 fork .empty).run.run
        (.fresh fun _ => 0)).1.toOption.map (·.jump?) = some (some ⟨"黎明".toList, true⟩) := by
      decide +kernel
    refine ⟨_, rfl, by decide +kernel, q, d', hq, ?_⟩
    obtain ⟨a, ha, hjump⟩ := Option.map_eq_some_iff.mp hjump
    rw [Play.eq_ok_of_toOption ha] at hleaves
    exact hleaves.jump?_eq.symm.trans hjump
  · obtain ⟨q, d', a, hq, ha, hleaves⟩ :=
      (first_branch_decides_what_follows nightRules evening 1 signpost .empty
        (.fresh fun _ => 0)).2.1 1 _ false hoption
    have hjump : ((nightRules.settleOption evening 1 signpost 1 .empty false).run.run
        (.fresh fun _ => 0)).1.toOption.map (·.jump?) = some (some ⟨"黎明".toList, false⟩) := by
      decide +kernel
    rw [ha] at hjump
    exact ⟨q, d', hq, hleaves.jump?_eq.symm.trans (Option.some.inj hjump)⟩
  · have hwaits :=
      (first_branch_decides_what_follows nightRules evening 1 signpost .empty
        (.fresh fun _ => 0)).2.2.1 hsignpost
    have halone : ((Rulebook.befalls ((evening.character 1).hasTag nightRules.settings.splitTag)
        nightRules.settings.splitChoiceChance).run (.fresh fun _ => 0)).1 = false := by
      decide +kernel
    exact hwaits.1 halone
  · refine ((first_branch_decides_what_follows nightRules evening 1 fork .empty
      (.fresh fun _ => 0)).2.2.2.2 0 _).1 fun j hj => ?_
    obtain rfl := Option.some.inj hj
    decide +kernel

end EventScript
