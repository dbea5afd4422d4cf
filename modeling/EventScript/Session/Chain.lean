/-
Processing events and the chains they form.

Processing one event either queues it, if it waits for the player, or settles it: actions,
branches, text, log, count.  What comes of it is an `Aftermath`: the new session, and the
event that is to follow, if any.

`Rulebook.follow` carries a chain on, one event after another.  The depth of a chain is the
number of events that have followed so far; at the limit that the settings give the chain
is cut off, or fails in strict settings.  An event that is to follow after a pause is
queued as a continuation, unless it waits for the player anyway.

A character with the tag for a split personality may have an option chosen for it, and may
forget what happened.
-/
import EventScript.Change
import EventScript.Script.Execution
import EventScript.Session.Basic
import EventScript.Text.Pattern

namespace EventScript

/-- What an event leaves behind: the session, and what is to follow. -/
structure Aftermath (n : Nat) where
  session : Session n
  next : Option Text
  pause : Bool
  scope : Scope

/-- An aftermath that nothing follows. -/
def Aftermath.final {n : Nat} (s : Session n) (scope : Scope) : Aftermath n :=
  ⟨s, none, false, scope⟩

/-- Work wears an overworked character out: body and mood for a little energy, as long as
there is enough of both. -/
def Character.overwork (c : Character) : Character :=
  let body := c.general.getD "体力" 0
  let mood := c.general.getD "心情" 0
  if 5 ≤ body ∧ 5 ≤ mood then
    let tired := (c.general.put "体力" (body - 5)).put "心情" (mood - 5)
    { c with general := tired.put "精力" (min 100 (tired.getD "精力" 0 + 10)) }
  else c

namespace Rulebook

variable {n : Nat}

/-! ### Actions and branches -/

/-- Carries out the first branch whose condition holds. A jump of the branch replaces the
jump before it, and an event that the branch itself names replaces both. -/
def runBranches (i : Seat n) (choice : Option Int) : List Branch → Progress n → Chance (Progress n)
  | [], p => pure p
  | b :: rest, p => do
    if ← evaluateCondition p.world choice i p.scope b.condition.toList then
      let q ← execute p.world i p.scope b.action.toList
      let q := if q.next.isNone then p.withoutJump q else q
      match b.next with
      | some id => pure (if id.isEmpty then q else { q with next := some id.toList, pause := false })
      | none => pure q
    else runBranches i choice rest p

/-- Carries out a command and then the branches of an event. -/
def runActions (w : World n) (i : Seat n) (scope : Scope) (e : Event) (command : String)
    (choice : Option Int) : Chance (Progress n) := do
  let p ← execute w i scope command.toList
  runBranches i choice e.branches p

/-- The session with the cast that actions have left, after the effect of work. -/
def absorb (rules : Rulebook) (s : Session n) (i : Seat n) (e : Event) (w : World n) : Session n :=
  let s := { s with cast := w.cast }
  if e.tags.contains rules.settings.workTag && (s.character i).hasTag rules.settings.overworkTag then
    s.update i Character.overwork
  else s

/-- What has changed about the cast since an earlier moment, as the log puts it. -/
def effectsSince (rules : Rulebook) (before s : Session n) (i : Seat n) : List String :=
  changeLog before.cast.toList s.cast.toList (s.character i).id rules.settings.playerId

/-- Renders a text of an event. -/
def render (rules : Rulebook) (s : Session n) (i : Seat n) (scope : Scope) (t : String) :
    Chance String :=
  String.ofList <$> renderPassage (s.world rules.settings) i scope t.toList

/-- The game is over after an event that ends it. -/
def checkEnding (rules : Rulebook) (e : Event) (s : Session n) : Session n :=
  if e.tags.contains rules.settings.endingTag then { s with phase := .over } else s

/-- What a character says who has forgotten. -/
def memoryLost (rules : Rulebook) (c : Character) : Except Failure String :=
  Pattern.fill rules.settings.memoryLostText c.name

/-- Does something happen that has the given chance? -/
def happens (chance : Float) : Chance Bool := do
  let x ← Dice.rollUnit
  pure (x < chance)

/-- Does something happen that only befalls a split personality? Dice are rolled for one
only. -/
def befalls (split : Bool) (chance : Float) : Chance Bool :=
  if split then happens chance else pure false

/-- What a character says about an event, which it may have forgotten. -/
def retell (rules : Rulebook) (c : Character) (forgotten : Bool) (text : String) :
    Except Failure String :=
  if forgotten then rules.memoryLost c else .ok text

/-- Counts an event for the character in a seat. -/
def count (s : Session n) (i : Seat n) (e : Event) : Session n :=
  s.update i fun c => c.countEvent e.id

/-! ### Single events -/

/-- The queue entry of an event. -/
def pendingOf (rules : Rulebook) (s : Session n) (i : Seat n) (e : Event) (scope : Scope)
    (continuation : Bool) : Chance Pending := do
  let title ← rules.render s i scope e.title
  let text ← rules.render s i scope e.body
  pure ⟨(s.character i).id, e, scope, title, text, continuation⟩

/-- How the log names an option. Of an option that the other self has chosen it tells
nothing, if the settings have words for that. -/
def optionText (rules : Rulebook) (s : Session n) (i : Seat n) (scope : Scope) (option : Choice)
    (alone : Bool) : Chance String :=
  if alone && !rules.settings.unknownChoiceText.isEmpty then pure rules.settings.unknownChoiceText
  else rules.render s i scope option.caption

/-- The command of an option. The other self is compensated first. -/
def optionCommand (rules : Rulebook) (option : Choice) (alone : Bool) : String :=
  if alone then rules.settings.splitCompensation ++ "; " ++ option.action else option.action

/-- Settles an option of an interactive event. Of an option that the other self has chosen
the player sees neither text nor effect, but is compensated. -/
def settleOption (rules : Rulebook) (s : Session n) (i : Seat n) (e : Event) (index : Nat)
    (scope : Scope) (alone : Bool) : Play (Aftermath n) :=
  match e.options[index]? with
  | none => pure (.final s scope)
  | some option => do
    let p ← Play.chance (runActions (s.world rules.settings) i scope e
      (rules.optionCommand option alone) (some ((index : Int) + 1)))
    let later := rules.absorb s i e p.world
    let effects := rules.effectsSince s later i
    let shown ← Play.chance (rules.optionText later i p.scope option alone)
    let later := later.note (s.character i).name ("选择了【" ++ shown ++ "】") .choice false effects
    pure ⟨rules.checkEnding e later, p.next, p.pause, p.scope⟩

/-- The positions of the options that the character in a seat is offered. -/
def visibleAmong (w : World n) (i : Seat n) (scope : Scope) : List (Choice × Nat) →
    Chance (List Nat)
  | [] => pure []
  | (option, k) :: rest => do
    let visible ← evaluateCondition w none i scope option.visibleIf.toList
    let others ← visibleAmong w i scope rest
    pure (if visible then k :: others else others)

/-- The positions of the options of an event that the character in a seat is offered. -/
def visibleOptions (rules : Rulebook) (s : Session n) (i : Seat n) (scope : Scope) (e : Event) :
    Chance (List Nat) :=
  visibleAmong (s.world rules.settings) i scope e.options.zipIdx

/-- One of several positions, drawn at random; the first position if there are none. -/
def drawPosition : List Nat → Chance Nat
  | [] => pure 0
  | k :: rest => Dice.pick k rest

/-- Settles an interactive event whose option the other self chooses. -/
def settleAlone (rules : Rulebook) (s : Session n) (i : Seat n) (e : Event) (scope : Scope) :
    Play (Aftermath n) := do
  let pre ← Play.chance (execute (s.world rules.settings) i scope e.preAction.toList)
  let s := { s with cast := pre.world.cast }
  let lost ← Play.ofExcept (rules.memoryLost (s.character i))
  let s := s.note (s.character i).name lost .event (!e.title.isEmpty) []
  let visible ← Play.chance (rules.visibleOptions s i pre.scope e)
  let index ← Play.chance (drawPosition visible)
  rules.settleOption (count s i e) i e index pre.scope true

/-- Queues an interactive event for the player. -/
def queue (rules : Rulebook) (s : Session n) (i : Seat n) (e : Event) (scope : Scope) :
    Play (Aftermath n) := do
  let pre ← Play.chance (execute (s.world rules.settings) i scope e.preAction.toList)
  let s := { s with cast := pre.world.cast }
  let item ← Play.chance (rules.pendingOf s i e pre.scope false)
  pure (.final (count (s.push item) i e) pre.scope)

/-- Settles an event that does not wait for the player. The changes since before its first
action go into the log. -/
def settle (rules : Rulebook) (s : Session n) (i : Seat n) (e : Event) (scope : Scope)
    (split : Bool) : Play (Aftermath n) := do
  let pre ← Play.chance (execute (s.world rules.settings) i scope e.preAction.toList)
  let p ← Play.chance (runActions pre.world i pre.scope e e.action none)
  let later := rules.absorb s i e p.world
  let effects := rules.effectsSince s later i
  let text ← Play.chance (rules.render later i p.scope e.body)
  let forgotten ← Play.chance (befalls split rules.settings.splitForgetChance)
  let text ← Play.ofExcept (rules.retell (later.character i) forgotten text)
  let later := later.note (later.character i).name text .event false effects
  pure ⟨rules.checkEnding e (count later i e), p.next, p.pause, p.scope⟩

/-- Processes one event for the character in a seat. -/
def perform (rules : Rulebook) (s : Session n) (i : Seat n) (e : Event) (scope : Scope) :
    Play (Aftermath n) := do
  let split := (s.character i).hasTag rules.settings.splitTag
  if e.isInteractive then do
    let alone ← Play.chance (befalls split rules.settings.splitChoiceChance)
    if alone then rules.settleAlone s i e scope else rules.queue s i e scope
  else rules.settle s i e scope split

/-! ### Chains -/

/-- The event that is to follow. -/
def next? (rules : Rulebook) (a : Aftermath n) : Option Event :=
  a.next.bind fun id => rules.catalogue.find? (String.ofList id)

/-- Is a chain of a depth so long that no event may follow? -/
def isTooDeep (rules : Rulebook) (depth : Nat) : Prop :=
  rules.settings.maxChainDepth < (depth : Int) + 1

instance (rules : Rulebook) (depth : Nat) : Decidable (rules.isTooDeep depth) :=
  inferInstanceAs (Decidable (_ < _))

/-- Carries a chain of some depth on for the character in a seat. -/
def follow (rules : Rulebook) (i : Seat n) (depth : Nat) (a : Aftermath n) : Play (Session n) :=
  match rules.next? a with
  | none => pure a.session
  | some e =>
    if h : rules.isTooDeep depth then
      if rules.settings.strict then throw (.chainTooLong e.id (depth + 1)) else pure a.session
    else if a.pause && !e.isInteractive then do
      let item ← Play.chance (rules.pendingOf a.session i e a.scope true)
      pure (a.session.push item)
    else do
      let b ← rules.perform a.session i e a.scope
      follow rules i (depth + 1) b
  termination_by rules.settings.maxChainDepth.toNat - depth
  decreasing_by
    unfold isTooDeep at h
    omega

/-- Processes an event and the chain that follows it. -/
def process (rules : Rulebook) (s : Session n) (i : Seat n) (e : Event) (scope : Scope) :
    Play (Session n) := do
  let a ← rules.perform s i e scope
  rules.follow i 0 a

end Rulebook

end EventScript
