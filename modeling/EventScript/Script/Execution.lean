/-
Carrying out scripts.

A script acts on a `Progress`: the world, the variables, the event that is to follow and
what became of the statements so far.  An attempt at a statement leaves a progress with
everything that it has written and, if the statement counts as skipped, the reason.

* `Operation.apply` carries out one operation for an actor;
* `Statement.attempt` evaluates the guard, finds the actor and carries the operation out;
* `Step.attempt` attempts the statement of a step, loops included;
* `Script.run` carries out all steps of a script, one after another.

A jump inside a script that is carried out for the members of a list is never followed.
-/
import EventScript.Script.Condition
import EventScript.Script.Statement

namespace EventScript

/-- Why a statement was skipped. -/
inductive SkipReason where
  /-- Its guard does not hold. -/
  | guardFailed
  /-- Nobody knows its verb. -/
  | unknownVerb
  /-- A character that it needs cannot be found. -/
  | targetUnresolved
  /-- Its arguments do not fit its verb. -/
  | malformed
  /-- There is nothing to do in the present state. -/
  | notApplicable
  deriving DecidableEq, Repr

/-- What became of a statement: carried out, or skipped for a reason. -/
structure Outcome where
  raw : Text
  statement : Statement
  skipped : Option SkipReason
  deriving DecidableEq, Repr

/-- How far a command has been carried out. -/
structure Progress (n : Nat) where
  world : World n
  scope : Scope
  /-- The event that is to follow. -/
  next : Option Text
  /-- Does the event that follows wait for the player? -/
  pause : Bool
  /-- The statements so far, oldest first; those inside a list operation come before it. -/
  outcomes : List Outcome

namespace World

variable {n : Nat}

/-- Changes the character in a seat. -/
def update (w : World n) (i : Seat n) (f : Character → Character) : World n :=
  { w with cast := w.cast.set i.val (f (w.character i)) i.isLt }

end World

namespace Progress

variable {n : Nat}

/-- The beginning of a command. -/
def start (w : World n) (scope : Scope) : Progress n :=
  ⟨w, scope, none, false, []⟩

/-- Changes the character in a seat. -/
def update (p : Progress n) (i : Seat n) (f : Character → Character) : Progress n :=
  { p with world := p.world.update i f }

/-- Sets a variable. -/
def set (p : Progress n) (key : Text) (v : Value) : Progress n :=
  { p with scope := p.scope.put (String.ofList key) v }

/-- The value of a variable. -/
def get (p : Progress n) (key : Text) : Value :=
  Value.ofVariable p.scope (String.ofList key)

/-- The members of the list in a variable. -/
def references? (p : Progress n) (key : Text) : Option (List Reference) :=
  p.world.references? (p.get key)

/-- Sets a variable to a list of references. -/
def setReferences (p : Progress n) (key : Text) (rs : List Reference) : Progress n :=
  p.set key (.list (rs.map .reference))

/-- Records what became of a statement. -/
def record (p : Progress n) (o : Outcome) : Progress n :=
  { p with outcomes := p.outcomes ++ [o] }

/-- Takes over everything from a later progress but the event to follow. -/
def withoutJump (p later : Progress n) : Progress n :=
  { later with next := p.next, pause := p.pause }

/-- Must the event that follows be processed at once? -/
def isChain (p : Progress n) : Bool :=
  p.next.isSome && !p.pause

end Progress

/-- What an attempt to carry something out leaves: the progress with all that was written,
and the reason if it counts as skipped. -/
structure Attempt (n : Nat) where
  progress : Progress n
  skipped : Option SkipReason

namespace Attempt

variable {n : Nat}

/-- Carried out: the progress is a new one. -/
def done (p : Progress n) : Attempt n := ⟨p, none⟩

/-- Given up for a reason, with the progress made until then. -/
def skip (p : Progress n) (reason : SkipReason) : Attempt n := ⟨p, some reason⟩

end Attempt

namespace Operation

variable {n : Nat}

/-! ### Attributes, relations and tags -/

/-- The attribute that a name means: one drawn from the race attributes, or just itself. -/
def attributeFor (name : Text) : Chance String :=
  if name = "随机".toList then Dice.pick "速度" ["耐力", "力量", "毅力", "智慧"]
  else pure (String.ofList name)

/-- Changes an attribute of the actor, or all race attributes. -/
def applyAttribute (actor : Seat n) (name : String) (amount : Int) (p : Progress n) : Attempt n :=
  if name = "全属性" then
    .done (p.update actor fun c => raceNames.foldl (fun c r => c.adjustRace r amount) c)
  else if generalNames.contains name then
    .done (p.update actor fun c => c.adjustGeneral name amount)
  else if raceNames.contains name then .done (p.update actor fun c => c.adjustRace name amount)
  else .skip p .notApplicable

/-- Changes what one character feels for another, as far as the other's charm goes. -/
def feel (holder object : Seat n) (kind : RelationKind) (amount : Int) (p : Progress n) :
    Progress n :=
  let other := p.world.character object
  let final := charmed amount other kind.name p.world.settings.ringTag
  p.update holder fun c => c.adjustRelation other.id kind final

/-- The kind of relation that a text names. -/
def kindOf? (kind : Text) : Option RelationKind :=
  RelationKind.ofName? (String.ofList kind)

/-- Changes what one character feels for another, if a text names a kind of relation. -/
def applyRelation (holder object : Seat n) (kind : Text) (amount : Int) (p : Progress n) :
    Attempt n :=
  match kindOf? kind with
  | some k => .done (feel holder object k amount p)
  | none => .skip p .malformed

/-- Changes what two characters feel for each other, one after the other. -/
def applyMutual (first second : Seat n) (kind : Text) (amount : Int) (p : Progress n) :
    Attempt n :=
  let there := applyRelation first second kind amount p
  match there.skipped with
  | some _ => there
  | none => applyRelation second first kind amount there.progress

/-- Changes what a first member feels for each of the others, and they for it. The amount is
evaluated anew each time. -/
def feelForEach (subject first : Seat n) (kind value : Text) :
    List (Seat n) → Progress n → Chance (Progress n)
  | [], p => pure p
  | second :: rest, p => do
    let amount ← evaluateQuantity p.world subject p.scope value
    feelForEach subject first kind value rest (applyMutual first second kind amount p).progress

/-- Changes what every two members of a list feel for each other. -/
def feelInGroup (subject : Seat n) (kind value : Text) :
    List (Seat n) → Progress n → Chance (Progress n)
  | [], p => pure p
  | first :: rest, p => do
    let p ← feelForEach subject first kind value rest p
    feelInGroup subject kind value rest p

/-- Sets the layers of a tag of the actor. -/
def applyGrant (actor : Seat n) (tag : String) (count : Int) (p : Progress n) : Attempt n :=
  if count < 1 ∧ !(p.world.character actor).hasTag tag then .skip p .notApplicable
  else .done (p.update actor fun c => c.setTag tag count p.world.turn)

/-- Changes the layers of a tag of the actor. Without the tag there is nothing to take away
from. -/
def applyAdjustment (actor : Seat n) (tag : String) (amount : Int) (p : Progress n) : Attempt n :=
  match (p.world.character actor).tag? tag with
  | none =>
    if amount ≤ 0 then .skip p .notApplicable
    else .done (p.update actor fun c => c.setTag tag amount p.world.turn)
  | some t => .done (p.update actor fun c => c.setTag tag (t.layers + amount) p.world.turn)

/-- Brings two characters together: a woman and a man, with the chance that the settings
say. -/
def applyPair (first second : Option (Seat n)) (p : Progress n) : Chance (Attempt n) :=
  match first, second with
  | some a, some b =>
    if (p.world.character a).gender = (p.world.character b).gender then
      pure (.skip p .notApplicable)
    else do
      let s := p.world.settings
      let x ← Dice.rollUnit
      if x < s.pairingChance then
        let woman := if (p.world.character a).gender = .female then a else b
        pure (.done (p.update woman fun c => c.setTag s.pregnancyTag s.pregnancyLayers p.world.turn))
      else pure (.done p)
  | _, _ => pure (.skip p .targetUnresolved)

/-! ### Variables -/

/-- Sets a variable to one of several characters, drawn at random. -/
def assignDrawn (key : Text) (pool : List Reference) (p : Progress n) : Chance (Attempt n) :=
  match pool with
  | [] => pure (.skip p .notApplicable)
  | r :: rest => do
    let r ← Dice.pick r rest
    pure (.done (p.set key (.reference r)))

/-- References to the characters that satisfy a test. -/
def referencesWhere (w : World n) (test : Character → Bool) : List Reference :=
  (w.seats.filter fun i => test (w.character i)).map w.reference

/-- Does a value start with a word? -/
def beginsWith (start : String) (t : Text) : Bool :=
  start.toList.isPrefixOf t

/-- The members of the list that `列表随机取值(L)` draws from. -/
def drawnMembers (p : Progress n) (value : Text) : List Reference :=
  match ((Text.after? "列表随机取值".toList value).bind arguments?).bind List.head? with
  | some key => (p.references? (variableKey key)).getD []
  | none => []

/-- Sets a variable to what a text of no special form means: a character, or else itself
without quotation marks. -/
def assignMeaning (subject : Seat n) (key value : Text) (p : Progress n) : Progress n :=
  match p.world.resolve? subject p.scope value with
  | some i => p.set key (.reference (p.world.reference i))
  | none => p.set key (.text (String.ofList (unquote value)))

/-- Sets a variable to a value that is no question to the cast: a number, a list, a
character or a text. -/
def assignPlain (subject : Seat n) (type : Option VariableType) (key value : Text)
    (p : Progress n) : Chance (Attempt n) :=
  if (randomWord ++ ['(']).isPrefixOf value || type = some .number then do
    let k ← evaluateQuantity p.world subject p.scope value
    pure (.done (p.set key (.int k)))
  else
    match Text.integerLiteral? value with
    | some k => pure (.done (p.set key (.int k)))
    | none =>
      match if type = some .list then p.references? (variableKey value) else none with
      | some rs => pure (.done (p.setReferences key rs))
      | none => pure (.done (assignMeaning subject key value p))

/-- Sets a variable. -/
def applyAssign (subject : Seat n) (type : Option VariableType) (key value : Text)
    (p : Progress n) : Chance (Attempt n) :=
  let w := p.world
  let me := (w.character subject).id
  if beginsWith "获取随机队友()" value then
    assignDrawn key (referencesWhere w fun c => c.inTeam && c.id != me) p
  else if beginsWith "获取随机全员角色()" value then
    assignDrawn key (referencesWhere w fun c => c.id != w.settings.playerId && c.id != me) p
  else if beginsWith "获取角色(非队友)" value then
    pure (.done (p.setReferences key
      (referencesWhere w fun c => !c.inTeam && c.id != w.settings.playerId)))
  else if beginsWith "获取角色(全员)" value then
    pure (.done (p.setReferences key (referencesWhere w fun _ => true)))
  else if beginsWith "列表随机取值" value then assignDrawn key (drawnMembers p value) p
  else assignPlain subject type key value p

/-- Adds to the number in a variable, or subtracts from it. -/
def applyCompute (subject : Seat n) (key : Text) (negative : Bool) (value : Text)
    (p : Progress n) : Chance (Attempt n) :=
  match p.get key with
  | .int k => do
    let amount ← evaluateQuantity p.world subject p.scope value
    pure (.done (p.set key (.int (if negative then k - amount else k + amount))))
  | _ => pure (.skip p .notApplicable)

/-! ### Jumps and lists -/

/-- Lets an event follow with a chance in percent, or else another one. -/
def applyChanceJump (subject : Seat n) (chance event : Text) (otherwise : Option Text)
    (p : Progress n) : Chance (Attempt n) := do
  let x ← Dice.rollUnit
  let percent ← evaluateQuantity p.world subject p.scope chance
  if x * 100 < Float.ofInt percent then
    pure (.done { p with next := some event, pause := false })
  else
    match otherwise with
    | some other => pure (.done { p with next := some other, pause := false })
    | none => pure (.skip p .notApplicable)

/-- Does a condition hold of the character that a reference means? -/
def fits (p : Progress n) (condition : Text) (r : Reference) : Chance Bool :=
  match p.world.find? r.id with
  | some i => evaluateCondition p.world none i p.scope condition
  | none => pure false

/-- The members of a list of whom a condition holds. -/
def membersWhere (p : Progress n) (condition : Text) : List Reference → Chance (List Reference)
  | [] => pure []
  | r :: rest => do
    let keep ← fits p condition r
    let others ← membersWhere p condition rest
    pure (if keep then r :: others else others)

/-- Carries a script out, as `loop` does, for the character that a reference means. -/
def applyFor (loop : Seat n → Progress n → Chance (Progress n)) (r : Reference) (p : Progress n) :
    Chance (Progress n) :=
  match p.world.find? r.id with
  | some i => loop i p
  | none => pure p

/-- Carries a script out for each member of a list. -/
def applyForEach (loop : Seat n → Progress n → Chance (Progress n)) :
    List Reference → Progress n → Chance (Progress n)
  | [], p => pure p
  | r :: rest, p => do
    let p ← applyFor loop r p
    applyForEach loop rest p

/-- Carries out an operation for an actor, while `subject` is the acting character. `loop`
carries out the body of a list operation. -/
def apply (subject actor : Seat n) (loop : Seat n → Progress n → Chance (Progress n))
    (p : Progress n) : Operation → Chance (Attempt n)
  | .changeAttribute name value => do
    let amount ← evaluateQuantity p.world subject p.scope value
    let name ← attributeFor name
    pure (applyAttribute actor name amount p)
  | .changeRelation kind holder object value =>
    match p.world.resolve? subject p.scope holder, p.world.resolve? subject p.scope object with
    | some i, some j => do
      let amount ← evaluateQuantity p.world subject p.scope value
      pure (applyRelation i j kind amount p)
    | _, _ => pure (.skip p .targetUnresolved)
  | .changePlayerRelation kind value =>
    match p.world.player? with
    | some j => do
      let amount ← evaluateQuantity p.world subject p.scope value
      pure (applyRelation actor j kind amount p)
    | none => pure (.skip p .targetUnresolved)
  | .changeMutualRelation kind first second value =>
    match p.world.resolve? subject p.scope first, p.world.resolve? subject p.scope second with
    | some i, some j => do
      let amount ← evaluateQuantity p.world subject p.scope value
      pure (applyMutual i j kind amount p)
    | _, _ => pure (.skip p .targetUnresolved)
  | .changeGroupRelation kind list value =>
    match p.references? list with
    | none => pure (.skip p .notApplicable)
    | some rs =>
      match kindOf? kind with
      | none => pure (.skip p .malformed)
      | some _ =>
        .done <$> feelInGroup subject kind value (rs.filterMap fun r => p.world.find? r.id) p
  | .grantTag tag layers => do
    let count ← evaluateQuantity p.world subject p.scope layers
    pure (applyGrant actor (String.ofList tag) count p)
  | .adjustTag tag delta => do
    let amount ← evaluateQuantity p.world subject p.scope delta
    pure (applyAdjustment actor (String.ofList tag) amount p)
  | .removeTag tag =>
    if (p.world.character actor).hasTag (String.ofList tag) then
      pure (.done (p.update actor fun c => c.removeTag (String.ofList tag)))
    else pure (.skip p .notApplicable)
  | .assign type key value => applyAssign subject type key value p
  | .compute key negative value => applyCompute subject key negative value p
  | .jump event pause => pure (.done { p with next := some event, pause })
  | .chanceJump chance event otherwise => applyChanceJump subject chance event otherwise p
  | .filterList list condition =>
    match p.references? list with
    | none => pure (.skip p .notApplicable)
    | some rs => do
      let kept ← membersWhere p condition rs
      pure (.done (p.setReferences list kept))
  | .excludeFromList list target =>
    match p.references? list, p.world.resolve? subject p.scope target with
    | none, _ => pure (.skip p .notApplicable)
    | some _, none => pure (.skip p .targetUnresolved)
    | some rs, some i =>
      pure (.done (p.setReferences list (rs.filter fun r => r.id != (p.world.character i).id)))
  | .truncateList list count =>
    match p.references? list with
    | none => pure (.skip p .notApplicable)
    | some rs => do
      let k ← evaluateQuantity p.world subject p.scope count
      pure (.done (p.setReferences list (rs.take k.toNat)))
  | .appendToList list target =>
    match p.references? list, p.world.resolve? subject p.scope target with
    | none, _ => pure (.skip p .notApplicable)
    | some _, none => pure (.skip p .targetUnresolved)
    | some rs, some i => pure (.done (p.setReferences list (rs ++ [p.world.reference i])))
  | .forEach list _ =>
    match p.references? list with
    | none => pure (.skip p .notApplicable)
    | some rs => do
      let later ← applyForEach loop rs p
      pure (.done (p.withoutJump later))
  | .joinTeam target =>
    match p.world.resolve? subject p.scope target with
    | none => pure (.skip p .targetUnresolved)
    | some i =>
      pure (.done (p.update i fun c => { c with inTeam := true, joined := some p.world.turn }))
  | .pair first second =>
    applyPair (p.world.resolve? subject p.scope first) (p.world.resolve? subject p.scope second) p
  | .unknown _ => pure (.skip p .unknownVerb)
  | .malformed _ => pure (.skip p .malformed)

end Operation

namespace Statement

variable {n : Nat}

/-- The character who carries a statement out: the one that its target means, or else the
acting character. -/
def actor? (s : Statement) (subject : Seat n) (p : Progress n) : Option (Seat n) :=
  match s.target with
  | none => some subject
  | some key => p.world.resolve? subject p.scope key

/-- Does the guard of a statement let it pass? It is asked for the acting character. -/
def passes (s : Statement) (subject : Seat n) (p : Progress n) : Chance Bool :=
  match s.guard with
  | none => pure true
  | some g => evaluateCondition p.world none subject p.scope g

/-- Carries a statement out, or finds the reason to skip it. -/
def attempt (s : Statement) (subject : Seat n)
    (loop : Seat n → Progress n → Chance (Progress n)) (p : Progress n) : Chance (Attempt n) := do
  if ← s.passes subject p then
    match s.actor? subject p with
    | some actor => s.operation.apply subject actor loop p
    | none => pure (.skip p .targetUnresolved)
  else pure (.skip p .guardFailed)

end Statement

/-- What became of a step. -/
def Step.outcome : Step → Option SkipReason → Outcome
  | .mk raw statement _, skipped => ⟨raw, statement, skipped⟩

mutual

/-- Attempts the statement of a step. The body is carried out for the members of a list. -/
def Step.attempt {n : Nat} : Step → Seat n → Progress n → Chance (Attempt n)
  | .mk _ statement body, subject, p => statement.attempt subject (fun i q => Script.run body i q) p

/-- Carries out a script, and records what becomes of each step. -/
def Script.run {n : Nat} : List Step → Seat n → Progress n → Chance (Progress n)
  | [], _, p => pure p
  | s :: rest, subject, p => do
    let a ← Step.attempt s subject p
    Script.run rest subject (a.progress.record (s.outcome a.skipped))

end

/-- Carries out a command for the acting character `subject`. -/
def execute {n : Nat} (w : World n) (subject : Seat n) (scope : Scope) (command : Text) :
    Chance (Progress n) :=
  Script.run (Script.read command) subject (.start w scope)

end EventScript
