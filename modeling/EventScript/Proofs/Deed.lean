/-
What single operations do.

`Character.Edit` lists the ways in which a script changes a character, and `Progress.Deed` the
ways in which an operation changes how far a command has come: it edits a character without
touching its relations, changes what one member of the cast feels for another, or sets a variable
to a live value.  A live value is a number, a text, a reference to a member of the cast or a list
of such references.  Beside deeds there are only jumps, and which jumps there are can be read off
an operation (`Operation.jumps`).

* `Operation.apply_deeds` — an operation that is no loop is given up before it does anything,
  does deeds, or makes one of its jumps;
* `Statement.attempt_obeys` — an attempt at a statement is given up, does deeds, jumps, or
  carries out a loop;
* `Script.run_obeys` — what giving up, doing deeds, jumping and looping keep, every script keeps;
* `execute_acts` — a command does deeds, jumps, and keeps record of both.
-/
import EventScript.Proofs.Rolling
import EventScript.Script.Execution
import Mathlib.Logic.Relation

namespace EventScript

open Chance Relation

variable {n : Nat}

/-! ### Live values -/

/-- A reference to a member of the cast, by the name that it has. -/
def Reference.IsLive (cast : Vector Character n) (r : Reference) : Prop :=
  ∃ i : Seat n, (cast.get i).id = r.id ∧ (cast.get i).name = r.name

/-- A number, a text, a live reference or a list of live references. -/
inductive Value.IsLive (cast : Vector Character n) : Value → Prop where
  | int (k : Int) : IsLive cast (.int k)
  | text (s : String) : IsLive cast (.text s)
  | reference {r : Reference} (h : r.IsLive cast) : IsLive cast (.reference r)
  | list {rs : List Reference} (h : ∀ r ∈ rs, r.IsLive cast) :
      IsLive cast (.list (rs.map .reference))

namespace World

theorem isLive_reference (w : World n) (i : Seat n) : (w.reference i).IsLive w.cast :=
  ⟨i, rfl, rfl⟩

/-- The members of a list are looked up before they are used, so they are live. -/
theorem isLive_of_references? {w : World n} {v : Value} {rs : List Reference}
    (h : w.references? v = some rs) : ∀ r ∈ rs, r.IsLive w.cast := by
  unfold references? at h
  split at h
  · obtain rfl := Option.some.inj h
    intro r hr
    obtain ⟨item, -, hitem⟩ := List.mem_filterMap.mp hr
    obtain ⟨i, -, rfl⟩ := Option.map_eq_some_iff.mp hitem
    exact w.isLive_reference i
  · cases h

end World

/-! ### Edits and deeds -/

/-- The changes that scripts make to a character in some turn. -/
inductive Character.Edit (turn : Int) : Character → Character → Prop where
  | general (c : Character) {name : String} (delta : Int) (h : name ∈ generalNames) :
      Edit turn c (c.adjustGeneral name delta)
  | race (c : Character) {name : String} (delta : Int) (h : name ∈ raceNames) :
      Edit turn c (c.adjustRace name delta)
  | relation (c : Character) (other : String) (kind : RelationKind) (delta : Int) :
      Edit turn c (c.adjustRelation other kind delta)
  | tag (c : Character) (template : String) (layers : Int) :
      Edit turn c (c.setTag template layers turn)
  | untag (c : Character) (template : String) : Edit turn c (c.removeTag template)
  | join (c : Character) : Edit turn c { c with inTeam := true, joined := some turn }

/-- The changes that single operations make to a progress. -/
inductive Progress.Deed : Progress n → Progress n → Prop where
  | edit (p : Progress n) (i : Seat n) (f : Character → Character)
      (h : ReflTransGen (Character.Edit p.world.turn) (p.world.character i)
        (f (p.world.character i)))
      (hrelations : (f (p.world.character i)).relations = (p.world.character i).relations) :
      Deed p (p.update i f)
  | feel (p : Progress n) (holder object : Seat n) (kind : RelationKind) (amount : Int) :
      Deed p (Operation.feel holder object kind amount p)
  | set (p : Progress n) (key : Text) {v : Value} (h : v.IsLive p.world.cast) :
      Deed p (p.set key v)

/-- A jump: the event that is to follow, and whether it waits for the player. -/
structure Jump where
  event : Text
  pause : Bool
  deriving DecidableEq, Repr

/-- The jumps that an operation can make. -/
def Operation.jumps : Operation → List Jump
  | jump event pause => [⟨event, pause⟩]
  | chanceJump _ event otherwise => ⟨event, false⟩ :: otherwise.toList.map (⟨·, false⟩)
  | _ => []

/-- Is the operation a loop, which carries out a script for the members of a list? -/
def Operation.isLoop : Operation → Bool
  | forEach .. => true
  | _ => false

/-- An attempt at an operation that is no loop: it is given up before anything is done, deeds
are done, or one of the given jumps is made. -/
inductive Attempt.Deeds (jumps : List Jump) (p : Progress n) : Attempt n → Prop where
  | skip (reason : SkipReason) : Deeds jumps p (.skip p reason)
  | done {q : Progress n} (h : ReflTransGen Progress.Deed p q) : Deeds jumps p (.done q)
  | jump {j : Jump} (h : j ∈ jumps) :
      Deeds jumps p (.done { p with next := some j.event, pause := j.pause })

/-- An attempt at an operation, whatever it is. What a loop does to a progress is subject to
`R`, and a jump inside of it is not followed. -/
inductive Attempt.Obeys (R : Progress n → Progress n → Prop) (op : Operation) (p : Progress n) :
    Attempt n → Prop where
  | skip (reason : SkipReason) : Obeys R op p (.skip p reason)
  | deeds {a : Attempt n} (hop : op.isLoop = false) (h : Deeds op.jumps p a) : Obeys R op p a
  | loop {q : Progress n} (hop : op.isLoop = true) (h : R p q) :
      Obeys R op p (.done (p.withoutJump q))

variable {jumps : List Jump}

namespace Attempt.Deeds

theorem edit {p : Progress n} {i : Seat n} {f : Character → Character}
    (h : Character.Edit p.world.turn (p.world.character i) (f (p.world.character i)))
    (hrelations : (f (p.world.character i)).relations = (p.world.character i).relations) :
    Deeds jumps p (.done (p.update i f)) :=
  .done (.single (.edit p i f (.single h) hrelations))

theorem set (p : Progress n) (key : Text) {v : Value} (h : v.IsLive p.world.cast) :
    Deeds jumps p (.done (p.set key v)) :=
  .done (.single (.set p key h))

/-- Whatever becomes of an attempt without jumps, its progress has come out of deeds. -/
theorem progress {p : Progress n} {a : Attempt n} (h : Deeds [] p a) :
    ReflTransGen Progress.Deed p a.progress := by
  cases h with
  | skip reason => exact .refl
  | done h => exact h
  | jump h => cases h

end Attempt.Deeds

theorem Character.relations_setTag (c : Character) (template : String) (layers turn : Int) :
    (c.setTag template layers turn).relations = c.relations := by
  rw [setTag]
  by_cases hl : layers < 1
  · rw [if_pos hl]
    rfl
  · rw [if_neg hl]
    by_cases ht : c.hasTag template
    · rw [if_pos ht]
    · rw [if_neg ht]

open Attempt

/-! ### Operations -/

namespace Operation

theorem edits_adjustRace (turn amount : Int) {names : List String} (h : names ⊆ raceNames)
    (c : Character) :
    ReflTransGen (Character.Edit turn) c (names.foldl (fun c r => c.adjustRace r amount) c) := by
  induction names generalizing c with
  | nil => exact .refl
  | cons name rest ih =>
    have hname : name ∈ raceNames := h (List.mem_cons_self ..)
    exact .head (.race c amount hname) (ih (fun x hx => h (List.mem_cons_of_mem _ hx)) _)

theorem relations_adjustRace (amount : Int) (names : List String) (c : Character) :
    (names.foldl (fun c r => c.adjustRace r amount) c).relations = c.relations := by
  induction names generalizing c with
  | nil => rfl
  | cons name rest ih => exact ih _

theorem deeds_applyAttribute (actor : Seat n) (name : String) (amount : Int) (p : Progress n) :
    Deeds jumps p (applyAttribute actor name amount p) := by
  unfold applyAttribute
  split
  · exact .done (.single (.edit p actor _ (edits_adjustRace _ amount (List.Subset.refl _) _)
      (relations_adjustRace amount _ _)))
  · split
    · rename_i h
      exact .edit (.general _ amount (List.contains_iff_mem.mp h)) rfl
    · split
      · rename_i h
        exact .edit (.race _ amount (List.contains_iff_mem.mp h)) rfl
      · exact .skip _

theorem deeds_applyRelation (holder object : Seat n) (kind : Text) (amount : Int)
    (p : Progress n) : Deeds jumps p (applyRelation holder object kind amount p) := by
  unfold applyRelation
  split
  · exact .done (.single (.feel ..))
  · exact .skip _

/-- A mutual change is given up before the first of its halves, or not at all: what both
need is a name of a kind. -/
theorem deeds_applyMutual (first second : Seat n) (kind : Text) (amount : Int)
    (p : Progress n) : Deeds jumps p (applyMutual first second kind amount p) := by
  unfold applyMutual applyRelation
  -- the name of the kind decides about both halves at once
  cases kindOf? kind with
  | none => exact .skip _
  | some k => exact .done (.tail (.single (.feel p first second k amount)) (.feel ..))

theorem feelForEach_deeds (subject first : Seat n) (kind value : Text) (rest : List (Seat n))
    (p : Progress n) :
    Yields (feelForEach subject first kind value rest p) (ReflTransGen Progress.Deed p) := by
  induction rest generalizing p with
  | nil => exact .pure .refl
  | cons second rest ih =>
    refine .bind_of_advances (advances_evaluateQuantity _) fun amount => ?_
    exact .mono (ih _) fun q hq => (deeds_applyMutual ..).progress.trans hq

theorem feelInGroup_deeds (subject : Seat n) (kind value : Text) (members : List (Seat n))
    (p : Progress n) :
    Yields (feelInGroup subject kind value members p) (ReflTransGen Progress.Deed p) := by
  induction members generalizing p with
  | nil => exact .pure .refl
  | cons first rest ih =>
    refine .bind (feelForEach_deeds subject first kind value rest p) fun q hq => ?_
    exact .mono (ih q) fun r hr => hq.trans hr

theorem deeds_applyGrant (actor : Seat n) (tag : String) (count : Int) (p : Progress n) :
    Deeds jumps p (applyGrant actor tag count p) := by
  unfold applyGrant
  split
  · exact .skip _
  · exact .edit (.tag ..) (Character.relations_setTag ..)

theorem deeds_applyAdjustment (actor : Seat n) (tag : String) (amount : Int)
    (p : Progress n) : Deeds jumps p (applyAdjustment actor tag amount p) := by
  unfold applyAdjustment
  split
  · split
    · exact .skip _
    · exact .edit (.tag ..) (Character.relations_setTag ..)
  · exact .edit (.tag ..) (Character.relations_setTag ..)

theorem applyPair_deeds (first second : Option (Seat n)) (p : Progress n) :
    Yields (applyPair first second p) (Deeds jumps p) := by
  unfold applyPair
  split
  · split
    · exact .pure (.skip _)
    · refine .bind_of_advances .rollUnit fun k => ?_
      simp only
      split
      · exact .pure (.edit (.tag ..) (Character.relations_setTag ..))
      · exact .pure (.done .refl)
  · exact .pure (.skip _)

/-! ### Variables and lists -/

theorem deeds_setReferences {p : Progress n} (key : Text) {rs : List Reference}
    (h : ∀ r ∈ rs, r.IsLive p.world.cast) : Deeds jumps p (.done (p.setReferences key rs)) :=
  .set p key (.list h)

/-- Whoever is drawn is one of the members that were drawn from. -/
theorem assignDrawn_deeds (key : Text) {pool : List Reference} {p : Progress n}
    (h : ∀ r ∈ pool, r.IsLive p.world.cast) : Yields (assignDrawn key pool p) (Deeds jumps p) := by
  unfold assignDrawn
  split
  · exact .pure (.skip _)
  · refine .bind ⟨.pick _ _, .pick _ _⟩ fun r hr => .pure ?_
    exact .set p key (.reference (h r hr))

theorem isLive_referencesWhere (w : World n) (test : Character → Bool) :
    ∀ r ∈ referencesWhere w test, r.IsLive w.cast := by
  intro r hr
  obtain ⟨i, -, rfl⟩ := List.mem_map.mp hr
  exact w.isLive_reference i

theorem isLive_drawnMembers (p : Progress n) (value : Text) :
    ∀ r ∈ drawnMembers p value, r.IsLive p.world.cast := by
  unfold drawnMembers
  split
  · rename_i key _
    cases hlist : p.references? (variableKey key) with
    | none => simp
    | some rs => exact World.isLive_of_references? hlist
  · simp

theorem deeds_assignMeaning (subject : Seat n) (key value : Text) (p : Progress n) :
    Deeds jumps p (.done (assignMeaning subject key value p)) := by
  unfold assignMeaning
  split
  · exact .set p key (.reference (p.world.isLive_reference _))
  · exact .set p key (.text _)

theorem assignPlain_deeds (subject : Seat n) (type : Option VariableType) (key value : Text)
    (p : Progress n) : Yields (assignPlain subject type key value p) (Deeds jumps p) := by
  unfold assignPlain
  split
  · exact .bind_of_advances (advances_evaluateQuantity _) fun k => .pure (.set p key (.int k))
  · split
    · exact .pure (.set p key (.int _))
    · split
      · rename_i rs hlist
        refine .pure (deeds_setReferences key ?_)
        split at hlist
        · exact World.isLive_of_references? hlist
        · cases hlist
      · exact .pure (deeds_assignMeaning ..)

theorem applyAssign_deeds (subject : Seat n) (type : Option VariableType) (key value : Text)
    (p : Progress n) : Yields (applyAssign subject type key value p) (Deeds jumps p) := by
  unfold applyAssign
  simp only
  split
  · exact assignDrawn_deeds key (isLive_referencesWhere _ _)
  · split
    · exact assignDrawn_deeds key (isLive_referencesWhere _ _)
    · split
      · exact .pure (deeds_setReferences key (isLive_referencesWhere _ _))
      · split
        · exact .pure (deeds_setReferences key (isLive_referencesWhere _ _))
        · split
          · exact assignDrawn_deeds key (isLive_drawnMembers p value)
          · exact assignPlain_deeds subject type key value p

theorem applyCompute_deeds (subject : Seat n) (key : Text) (negative : Bool) (value : Text)
    (p : Progress n) : Yields (applyCompute subject key negative value p) (Deeds jumps p) := by
  unfold applyCompute
  split
  · exact .bind_of_advances (advances_evaluateQuantity _) fun amount =>
      .pure (.set p key (.int _))
  · exact .pure (.skip _)

theorem applyChanceJump_deeds (subject : Seat n) (chance event : Text)
    (otherwise : Option Text) (p : Progress n) :
    Yields (applyChanceJump subject chance event otherwise p)
      (Deeds (chanceJump chance event otherwise).jumps p) := by
  unfold applyChanceJump
  refine .bind_of_advances .rollUnit fun k => ?_
  refine .bind_of_advances (advances_evaluateQuantity _) fun percent => ?_
  split
  · exact .pure (.jump (List.mem_cons_self ..))
  · split
    · exact .pure (.jump (List.mem_cons_of_mem _ (List.mem_singleton_self _)))
    · exact .pure (.skip _)

/-- Those of whom a condition holds are some of those of whom it was asked. -/
theorem membersWhere_yields (p : Progress n) (condition : Text) (rs : List Reference) :
    Yields (membersWhere p condition rs) (· ⊆ rs) := by
  induction rs with
  | nil => exact .pure (List.Subset.refl _)
  | cons r rest ih =>
    have hfits : Advances (fits p condition r) := by
      unfold fits
      split
      · exact advances_evaluateCondition _ _
      · exact .pure _
    refine .bind_of_advances hfits fun keep => .bind ih fun others hothers => .pure ?_
    split
    · exact List.cons_subset_cons r hothers
    · exact List.subset_cons_of_subset r hothers

theorem applyForEach_yields {R : Progress n → Progress n → Prop} (refl : ∀ p, R p p)
    (trans : ∀ {p q r}, R p q → R q r → R p r)
    {loop : Seat n → Progress n → Chance (Progress n)}
    (hloop : ∀ i q, Yields (loop i q) (R q)) (rs : List Reference) (p : Progress n) :
    Yields (applyForEach loop rs p) (R p) := by
  induction rs generalizing p with
  | nil => exact .pure (refl p)
  | cons r rest ih =>
    have hr : Yields (applyFor loop r p) (R p) := by
      unfold applyFor
      split
      · exact hloop _ p
      · exact .pure (refl p)
    exact .bind hr fun q hq => .mono (ih q) fun s hs => trans hq hs

/-- An operation that is no loop is given up before it does anything, does deeds, or makes one
of its jumps. -/
theorem apply_deeds (subject actor : Seat n)
    (loop : Seat n → Progress n → Chance (Progress n)) (p : Progress n) {op : Operation}
    (hop : op.isLoop = false) : Yields (op.apply subject actor loop p) (Deeds op.jumps p) := by
  -- in each case: all questions come first, then there is at most one deed
  cases op with
  | changeAttribute name value =>
    refine .bind_of_advances (advances_evaluateQuantity _) fun amount => ?_
    have hname : Advances (attributeFor name) := by
      unfold attributeFor
      split
      · exact .pick _ _
      · exact .pure _
    exact .bind_of_advances hname fun name => .pure (deeds_applyAttribute ..)
  | changeRelation kind holder object value =>
    rw [apply]
    split
    · exact .bind_of_advances (advances_evaluateQuantity _) fun amount =>
        .pure (deeds_applyRelation ..)
    · exact .pure (.skip _)
  | changePlayerRelation kind value =>
    rw [apply]
    split
    · exact .bind_of_advances (advances_evaluateQuantity _) fun amount =>
        .pure (deeds_applyRelation ..)
    · exact .pure (.skip _)
  | changeMutualRelation kind first second value =>
    rw [apply]
    split
    · exact .bind_of_advances (advances_evaluateQuantity _) fun amount =>
        .pure (deeds_applyMutual ..)
    · exact .pure (.skip _)
  | changeGroupRelation kind list value =>
    rw [apply]
    split
    · exact .pure (.skip _)
    · split
      · exact .pure (.skip _)
      · exact .map (.mono (feelInGroup_deeds ..) fun q hq => .done hq)
  | grantTag tag layers =>
    exact .bind_of_advances (advances_evaluateQuantity _) fun count =>
      .pure (deeds_applyGrant ..)
  | adjustTag tag delta =>
    exact .bind_of_advances (advances_evaluateQuantity _) fun amount =>
      .pure (deeds_applyAdjustment ..)
  | removeTag tag =>
    rw [apply]
    split
    · exact .pure (.edit (.untag ..) rfl)
    · exact .pure (.skip _)
  | assign type key value => exact applyAssign_deeds subject type key value p
  | compute key negative value => exact applyCompute_deeds subject key negative value p
  | jump event pause => exact .pure (.jump (List.mem_singleton_self _))
  | chanceJump chance event otherwise =>
    exact applyChanceJump_deeds subject chance event otherwise p
  | filterList list condition =>
    rw [apply]
    split
    · exact .pure (.skip _)
    · rename_i rs hlist
      refine .bind (membersWhere_yields p condition rs) fun kept hkept => .pure ?_
      exact deeds_setReferences list fun r hr =>
        World.isLive_of_references? hlist r (hkept hr)
  | excludeFromList list target =>
    rw [apply]
    split
    · exact .pure (.skip _)
    · exact .pure (.skip _)
    · rename_i rs i hlist _
      refine .pure (deeds_setReferences list fun r hr => ?_)
      exact World.isLive_of_references? hlist r (List.mem_filter.mp hr).1
  | truncateList list count =>
    rw [apply]
    split
    · exact .pure (.skip _)
    · rename_i rs hlist
      refine .bind_of_advances (advances_evaluateQuantity _) fun k => .pure ?_
      exact deeds_setReferences list fun r hr =>
        World.isLive_of_references? hlist r (List.mem_of_mem_take hr)
  | appendToList list target =>
    rw [apply]
    split
    · exact .pure (.skip _)
    · exact .pure (.skip _)
    · rename_i rs i hlist _
      refine .pure (deeds_setReferences list (List.forall_mem_append.mpr ⟨?_, ?_⟩))
      · exact World.isLive_of_references? hlist
      · exact List.forall_mem_singleton.mpr (p.world.isLive_reference i)
  | forEach list command => exact absurd hop (by simp [isLoop])
  | joinTeam target =>
    rw [apply]
    split
    · exact .pure (.skip _)
    · exact .pure (.edit (.join ..) rfl)
  | pair first second => exact applyPair_deeds _ _ p
  | unknown verb => exact .pure (.skip _)
  | malformed verb => exact .pure (.skip _)

theorem apply_obeys {R : Progress n → Progress n → Prop} (refl : ∀ p, R p p)
    (trans : ∀ {p q r}, R p q → R q r → R p r) (subject actor : Seat n)
    {loop : Seat n → Progress n → Chance (Progress n)}
    (hloop : ∀ i q, Yields (loop i q) (R q)) (p : Progress n) (op : Operation) :
    Yields (op.apply subject actor loop p) (Obeys R op p) := by
  -- only a loop uses what is known about `loop`
  cases hop : op.isLoop with
  | false => exact .mono (apply_deeds subject actor loop p hop) fun a ha => .deeds hop ha
  | true =>
    cases op with
    | forEach list command =>
      rw [apply]
      split
      · exact .pure (.skip _)
      · exact .bind (applyForEach_yields refl trans hloop _ p) fun q hq => .pure (.loop hop hq)
    | _ => simp [isLoop] at hop

end Operation

/-! ### Scripts -/

theorem Statement.attempt_obeys {R : Progress n → Progress n → Prop} (refl : ∀ p, R p p)
    (trans : ∀ {p q r}, R p q → R q r → R p r) (statement : Statement) (subject : Seat n)
    {loop : Seat n → Progress n → Chance (Progress n)}
    (hloop : ∀ i q, Yields (loop i q) (R q)) (p : Progress n) :
    Yields (statement.attempt subject loop p) (Obeys R statement.operation p) := by
  have hpasses : Advances (statement.passes subject p) := by
    unfold Statement.passes
    split
    · exact .pure _
    · exact advances_evaluateCondition _ _
  refine .bind_of_advances hpasses fun passes => ?_
  split
  · split
    · exact Operation.apply_obeys refl trans subject _ hloop p _
    · exact .pure (.skip _)
  · exact .pure (.skip _)

/-- What becomes of each step keeps a relation, if giving up, doing deeds, jumping and looping
do; so every script keeps it. -/
theorem Script.run_obeys {R : Progress n → Progress n → Prop} (refl : ∀ p, R p p)
    (trans : ∀ {p q r}, R p q → R q r → R p r)
    (step : ∀ {p : Progress n} {a : Attempt n} raw (statement : Statement),
      Obeys R statement.operation p a → R p (a.progress.record ⟨raw, statement, a.skipped⟩))
    (script : List Step) (subject : Seat n) (p : Progress n) :
    Yields (Script.run script subject p) (R p) := by
  -- scripts and single steps call each other, so both are carried through the induction
  induction script, subject, p using Script.run.induct
    (fun s subject p => Yields (Step.attempt s subject p) fun a : Attempt n =>
      R p (a.progress.record (s.outcome a.skipped))) with
  | case1 raw statement body subject p ih =>
    rw [Step.attempt]
    exact .mono (statement.attempt_obeys refl trans subject ih p) fun a => step raw statement
  | case2 subject p =>
    rw [Script.run]
    exact .pure (refl p)
  | case3 s rest subject p hs hrest =>
    rw [Script.run]
    exact .bind hs fun a ha => .mono (hrest a) fun q hq => trans ha hq

/-! ### Acts -/

/-- What scripts do to a progress, one thing at a time. -/
inductive Progress.Act : Progress n → Progress n → Prop where
  | deed {p q : Progress n} (h : Progress.Deed p q) : Act p q
  | jump (p : Progress n) (next : Option Text) (pause : Bool) : Act p { p with next, pause }
  | report (p : Progress n) (outcomes : List Outcome) : Act p { p with outcomes }

/-- One act after another. -/
abbrev Progress.Acts : Progress n → Progress n → Prop :=
  ReflTransGen Progress.Act

namespace Progress.Acts

/-- Whatever becomes of an attempt, its progress has come out of acts. -/
theorem of_deeds {p : Progress n} {a : Attempt n} (h : Attempt.Deeds jumps p a) :
    Acts p a.progress := by
  cases h with
  | skip reason => exact .refl
  | done h => exact h.lift id fun _ _ => .deed
  | jump h => exact .single (.jump ..)

/-- Keeping the jump of an earlier progress is an act as well. -/
theorem withoutJump (p q : Progress n) : Acts q (p.withoutJump q) :=
  .single (.jump q p.next p.pause)

/-- The next command begins with what the last one has left. -/
theorem start (p : Progress n) : Acts p (.start p.world p.scope) :=
  .tail (.single (.jump p none false)) (.report _ [])

end Progress.Acts

theorem Script.run_acts (script : List Step) (subject : Seat n) (p : Progress n) :
    Yields (Script.run script subject p) p.Acts := by
  refine Script.run_obeys (fun _ => .refl) .trans (fun {p _} raw statement h => ?_) script
    subject p
  cases h with
  | skip reason => exact .single (.report _ _)
  | deeds _ h => exact (Progress.Acts.of_deeds h).tail (.report _ _)
  | loop _ h => exact (h.trans (Progress.Acts.withoutJump p _)).tail (.report _ _)

/-- A command does deeds, jumps, and keeps record of both. -/
theorem execute_acts (w : World n) (subject : Seat n) (scope : Scope) (command : Text) :
    Yields (execute w subject scope command) (Progress.start w scope).Acts :=
  Script.run_acts _ subject _

end EventScript
