/-
What processing events does to a session.

`Session.Becomes` says how a session moves on: every character has come out of changes that
moves make, the log has only grown, the turn stays, and the game may have ended.  The queue
is kept apart, because processing an event may put an item in front of it:

* `Rulebook.settleOption_evolves` — the option of an event never touches the queue and never
  fails;
* `Rulebook.perform_evolves` — an event touches the queue at most by putting itself in
  front, and then nothing follows it; it fails at most because the text about a lost memory
  cannot be filled.
* `Rulebook.follow_of_end`, `follow_of_isTooDeep`, `follow_of_pause`, `follow_of_visit` — how a
  chain goes on.
-/
import EventScript.Proofs.Edit
import EventScript.Session.Chain

namespace EventScript

open Relation

variable {n : Nat}

/-! ### Changes -/

/-- The changes that moves make to a character in some turn. -/
inductive Character.Change (turn : Int) : Character → Character → Prop where
  | edit {c c' : Character} (h : Character.Edit turn c c') : Change turn c c'
  | overwork (c : Character) : Change turn c c.overwork
  | count (c : Character) (event : String) : Change turn c (c.countEvent event)

/-- Who a character is: everything about it that no move changes. -/
def Character.identity (c : Character) :
    String × String × String × Gender × Option (Mapping String) × List CallingRule :=
  (c.id, c.template, c.name, c.gender, c.aptitudes, c.callings)

theorem Character.Change.identity_eq {turn : Int} {c c' : Character}
    (h : Character.Change turn c c') : c'.identity = c.identity := by
  cases h with
  | edit h =>
    cases h with
    | tag template layers =>
      -- a tag may be taken away, relayered or added
      unfold Character.setTag
      split
      · rfl
      · split <;> rfl
    | _ => rfl
  | overwork =>
    unfold Character.overwork
    simp only
    split <;> rfl
  | count => rfl

theorem Character.identity_eq_of_changes {turn : Int} {c c' : Character}
    (h : ReflTransGen (Character.Change turn) c c') : c'.identity = c.identity := by
  induction h with
  | refl => rfl
  | tail _ hstep ih => exact hstep.identity_eq.trans ih

/-- Scripts do not change who the characters are. -/
theorem World.Becomes.identity_eq {w w' : World n} (h : w.Becomes w') (i : Seat n) :
    (w'.character i).identity = (w.character i).identity :=
  Character.identity_eq_of_changes ((h.edits i).lift id fun _ _ => .edit)

namespace Session

theorem character_update (s : Session n) (i j : Seat n) (f : Character → Character) :
    (s.update i f).character j = if j = i then f (s.character i) else s.character j :=
  cast_get_set s.cast i j _

/-- A session has come out of another by moves. -/
structure Becomes (s t : Session n) : Prop where
  turn_eq : t.turn = s.turn
  maxTurns_eq : t.maxTurns = s.maxTurns
  phase : t.phase = s.phase ∨ t.phase = .over
  log : s.log <+: t.log
  changes : ∀ i, ReflTransGen (Character.Change s.turn) (s.character i) (t.character i)

theorem Becomes.refl (s : Session n) : s.Becomes s :=
  ⟨rfl, rfl, .inl rfl, List.prefix_rfl, fun _ => .refl⟩

theorem Becomes.trans {s t u : Session n} (h : s.Becomes t) (h' : t.Becomes u) : s.Becomes u := by
  refine ⟨h'.turn_eq.trans h.turn_eq, h'.maxTurns_eq.trans h.maxTurns_eq, ?_,
    h.log.trans h'.log, fun i => ?_⟩
  · rcases h'.phase with hp | hp
    · rw [hp]
      exact h.phase
    · exact .inr hp
  · have hi := h'.changes i
    rw [h.turn_eq] at hi
    exact (h.changes i).trans hi

/-- Moves do not change who a character is. -/
theorem Becomes.identity_eq {s t : Session n} (h : s.Becomes t) (i : Seat n) :
    (t.character i).identity = (s.character i).identity :=
  Character.identity_eq_of_changes (h.changes i)

theorem Becomes.id_eq {s t : Session n} (h : s.Becomes t) (i : Seat n) :
    (t.character i).id = (s.character i).id :=
  congrArg Prod.fst (h.identity_eq i)

theorem Becomes.name_eq {s t : Session n} (h : s.Becomes t) (i : Seat n) :
    (t.character i).name = (s.character i).name :=
  congrArg (fun who => who.2.2.1) (h.identity_eq i)

/-- Moves do not change who sits where. -/
theorem Becomes.seat?_eq {s t : Session n} (h : s.Becomes t) (id : String) :
    t.seat? id = s.seat? id := by
  unfold seat?
  simp only [h.id_eq]

/-- A session takes over the cast that a script has left. -/
theorem Becomes.cast {s : Session n} {settings : Settings} {w : World n}
    (h : (s.world settings).Becomes w) : s.Becomes { s with cast := w.cast } :=
  ⟨rfl, rfl, .inl rfl, List.prefix_rfl, fun i => (h.edits i).lift id fun _ _ => .edit⟩

theorem Becomes.update {s : Session n} {i : Seat n} {f : Character → Character}
    (h : Character.Change s.turn (s.character i) (f (s.character i))) :
    s.Becomes (s.update i f) := by
  refine ⟨rfl, rfl, .inl rfl, List.prefix_rfl, fun j => ?_⟩
  rw [character_update]
  by_cases hj : j = i
  · rw [if_pos hj, hj]
    exact .single h
  · rw [if_neg hj]

theorem Becomes.note (s : Session n) (speaker text : String) (kind : EntryKind)
    (important : Bool) (effects : List String) :
    s.Becomes (s.note speaker text kind important effects) := by
  unfold Session.note
  simp only
  split
  · exact .refl s
  · exact ⟨rfl, rfl, .inl rfl, List.prefix_append _ _, fun _ => .refl⟩

theorem Becomes.push (s : Session n) (item : Pending) : s.Becomes (s.push item) :=
  ⟨rfl, rfl, .inl rfl, List.prefix_rfl, fun _ => .refl⟩

@[simp] theorem pending_note (s : Session n) (speaker text : String) (kind : EntryKind)
    (important : Bool) (effects : List String) :
    (s.note speaker text kind important effects).pending = s.pending := by
  unfold Session.note
  simp only
  split <;> rfl

end Session

namespace Rulebook

/-! ### Parts of processing -/

/-- Branches go on acting where the command has ended. -/
theorem runBranches_acts (i : Seat n) (choice : Option Int) (branches : List Branch)
    (p : Progress n) : Chance.Yields (runBranches i choice branches p) p.Acts := by
  induction branches with
  | nil => exact .pure .refl
  | cons b rest ih =>
    refine .bind_of_advances (advances_evaluateCondition choice _) fun holds => ?_
    split
    · refine .bind (execute_acts p.world i p.scope b.action.toList) fun q hq => ?_
      -- which jump is taken over has nothing to do with what was done
      have hjump : p.Acts (if q.next.isNone then p.withoutJump q else q) := by
        split
        · exact ((Progress.Acts.start p).trans hq).trans (Progress.Acts.withoutJump p q)
        · exact (Progress.Acts.start p).trans hq
      simp only
      split
      · refine .pure ?_
        split
        · exact hjump
        · exact hjump.tail (.jump ..)
      · exact .pure hjump
    · exact ih

theorem runActions_acts (w : World n) (i : Seat n) (scope : Scope) (e : Event)
    (command : String) (choice : Option Int) :
    Chance.Yields (runActions w i scope e command choice) (Progress.start w scope).Acts := by
  refine .bind (execute_acts w i scope command.toList) fun p hp => ?_
  exact .mono (runBranches_acts i choice e.branches p) fun q hq => hp.trans hq

theorem runActions_becomes (w : World n) (i : Seat n) (scope : Scope) (e : Event)
    (command : String) (choice : Option Int) :
    Chance.Yields (runActions w i scope e command choice) fun p => w.Becomes p.world :=
  .mono (runActions_acts w i scope e command choice) fun _ => World.Becomes.of_acts

theorem becomes_absorb (rules : Rulebook) {s : Session n} (i : Seat n) (e : Event) {w : World n}
    (h : (s.world rules.settings).Becomes w) : s.Becomes (rules.absorb s i e w) := by
  unfold absorb
  simp only
  split
  · exact .trans (.cast h) (.update (.overwork _))
  · exact .cast h

@[simp] theorem pending_absorb (rules : Rulebook) (s : Session n) (i : Seat n) (e : Event)
    (w : World n) : (rules.absorb s i e w).pending = s.pending := by
  unfold absorb
  simp only
  split <;> rfl

theorem becomes_checkEnding (rules : Rulebook) (e : Event) (s : Session n) :
    s.Becomes (rules.checkEnding e s) := by
  unfold checkEnding
  split
  · exact ⟨rfl, rfl, .inr rfl, List.prefix_rfl, fun _ => .refl⟩
  · exact .refl s

@[simp] theorem pending_checkEnding (rules : Rulebook) (e : Event) (s : Session n) :
    (rules.checkEnding e s).pending = s.pending := by
  unfold checkEnding
  split <;> rfl

theorem becomes_count (s : Session n) (i : Seat n) (e : Event) : s.Becomes (count s i e) :=
  .update (.count _ e.id)

@[simp] theorem pending_count (s : Session n) (i : Seat n) (e : Event) :
    (count s i e).pending = s.pending :=
  rfl

/-! ### Single events -/

/-- The text about a lost memory cannot be filled with a name, for some reason. -/
def CannotForget (rules : Rulebook) (name : String) (f : Failure) : Prop :=
  Pattern.fill rules.settings.memoryLostText name = .error f

theorem memoryLost_outcome (rules : Rulebook) {c : Character} {name : String}
    (h : c.name = name) :
    Play.Outcome (fun _ => True) (rules.CannotForget name) (rules.memoryLost c) := by
  unfold memoryLost
  rw [h]
  cases hfill : Pattern.fill rules.settings.memoryLostText name with
  | ok text => trivial
  | error f => exact hfill

/-- The queue entry that processing makes of an event. -/
structure Presents (id : String) (e : Event) (continuation : Bool) (item : Pending) : Prop where
  character_eq : item.character = id
  event_eq : item.event = e
  continuation_eq : item.continuation = continuation

theorem pendingOf_presents (rules : Rulebook) (s : Session n) (i : Seat n) (e : Event)
    (scope : Scope) (continuation : Bool) :
    Chance.Ensures (rules.pendingOf s i e scope continuation)
      (Presents (s.character i).id e continuation) :=
  .bind_of_forall fun _ => .bind_of_forall fun _ => .pure ⟨rfl, rfl, rfl⟩

/-! What the other self chooses is one of the options. -/

theorem length_options_pos {e : Event} (he : e.isInteractive = true) : 0 < e.options.length :=
  List.length_pos_iff.mpr (by simpa [Event.isInteractive] using he)

theorem visibleAmong_ensures (w : World n) (i : Seat n) (scope : Scope)
    (options : List (Choice × Nat)) :
    Chance.Ensures (visibleAmong w i scope options) (· ⊆ options.map Prod.snd) := by
  induction options with
  | nil => exact .pure (List.Subset.refl _)
  | cons option rest ih =>
    refine .bind_of_forall fun visible => .bind ih fun others hothers => .pure ?_
    rw [List.map_cons]
    split
    · exact List.cons_subset_cons _ hothers
    · exact List.subset_cons_of_subset _ hothers

theorem visibleOptions_ensures (rules : Rulebook) (s : Session n) (i : Seat n) (scope : Scope)
    (e : Event) :
    Chance.Ensures (rules.visibleOptions s i scope e) fun ks => ∀ k ∈ ks, k < e.options.length := by
  refine .mono (visibleAmong_ensures _ _ _ _) fun ks hks k hk => ?_
  obtain ⟨p, hp, rfl⟩ := List.mem_map.mp (hks hk)
  exact List.snd_lt_of_mem_zipIdx hp

theorem drawPosition_ensures {ks : List Nat} {m : Nat} (hks : ∀ k ∈ ks, k < m) (hm : 0 < m) :
    Chance.Ensures (drawPosition ks) (· < m) := by
  cases ks with
  | nil => exact .pure hm
  | cons k rest => exact .mono (.pick k rest) fun j hj => hks j hj

/-- A move leaves the queue as it was, whatever else it does. -/
structure Spares (s : Session n) (a : Aftermath n) : Prop where
  becomes : s.Becomes a.session
  pending_eq : a.session.pending = s.pending

theorem Spares.final (s : Session n) (scope : Scope) : Spares s (.final s scope) :=
  ⟨.refl s, rfl⟩

theorem Spares.after {s t : Session n} {a : Aftermath n} (h : s.Becomes t)
    (hq : t.pending = s.pending) (ha : Spares t a) : Spares s a :=
  ⟨h.trans ha.becomes, ha.pending_eq.trans hq⟩

theorem settleOption_evolves (rules : Rulebook) (s : Session n) (i : Seat n) (e : Event)
    (index : Nat) (scope : Scope) (alone : Bool) (fault : Failure → Prop) :
    Play.Ensures (rules.settleOption s i e index scope alone) (Spares s) fault := by
  unfold settleOption
  split
  · exact .pure (.final s scope)
  · rename_i option _
    refine .bind (.chance (runActions_becomes _ i scope e _ _).2) fun p hp => ?_
    refine .bind (.chance (.of_forall fun _ => trivial)) fun shown _ => .pure ?_
    have hlater := rules.becomes_absorb i e hp
    exact ⟨(hlater.trans (.note ..)).trans (rules.becomes_checkEnding e _), by simp⟩

theorem settleAlone_evolves (rules : Rulebook) (s : Session n) (i : Seat n) (e : Event)
    (scope : Scope) :
    Play.Ensures (rules.settleAlone s i e scope) (Spares s)
      (rules.CannotForget (s.character i).name) := by
  refine .bind (.chance (execute_becomes _ i scope _).2) fun pre hpre => ?_
  have hs := Session.Becomes.cast hpre
  refine .bind (.ofExcept (rules.memoryLost_outcome (hs.name_eq i))) fun lost _ => ?_
  refine .bind (.chance (.of_forall fun _ => trivial)) fun visible _ => ?_
  refine .bind (.chance (.of_forall fun _ => trivial)) fun index _ => ?_
  refine .mono (rules.settleOption_evolves _ i e index pre.scope true _) fun a ha => ?_
  exact .after ((hs.trans (.note ..)).trans (becomes_count _ i e)) (by simp) ha

/-- What processing an event comes to: the queue is spared, or the event itself is put in
front of it and nothing follows. -/
structure Settles (s : Session n) (i : Seat n) (e : Event) (a : Aftermath n) : Prop where
  becomes : s.Becomes a.session
  queue : a.session.pending = s.pending ∨
    e.isInteractive = true ∧ a.next = none ∧
      ∃ item, Presents (s.character i).id e false item ∧ a.session.pending = item :: s.pending

theorem Settles.of_spares {s : Session n} {i : Seat n} {e : Event} {a : Aftermath n}
    (h : Spares s a) : Settles s i e a :=
  ⟨h.becomes, .inl h.pending_eq⟩

theorem queue_evolves (rules : Rulebook) (s : Session n) (i : Seat n) {e : Event}
    (scope : Scope) (he : e.isInteractive = true) (fault : Failure → Prop) :
    Play.Ensures (rules.queue s i e scope) (Settles s i e) fault := by
  refine .bind (.chance (execute_becomes _ i scope _).2) fun pre hpre => ?_
  have hs := Session.Becomes.cast hpre
  refine .bind (.chance (rules.pendingOf_presents _ i e pre.scope false)) fun item hitem => ?_
  -- the item is the only thing in the queue that was not there before
  refine .pure ⟨(hs.trans (.push _ item)).trans (becomes_count _ i e), .inr ?_⟩
  exact ⟨he, rfl, item, hs.id_eq i ▸ hitem, rfl⟩

theorem settle_evolves (rules : Rulebook) (s : Session n) (i : Seat n) (e : Event)
    (scope : Scope) (split : Bool) :
    Play.Ensures (rules.settle s i e scope split) (Spares s)
      (rules.CannotForget (s.character i).name) := by
  refine .bind (.chance (execute_becomes _ i scope _).2) fun pre hpre => ?_
  refine .bind (.chance (runActions_becomes pre.world i pre.scope e _ _).2) fun p hp => ?_
  have hlater := rules.becomes_absorb i e (hpre.trans hp)
  refine .bind (.chance (.of_forall fun _ => trivial)) fun text _ => ?_
  refine .bind (.chance (.of_forall fun _ => trivial)) fun forgotten _ => ?_
  -- the actions before have not changed the name that is filled in
  have hretell : Play.Outcome (fun _ => True) (rules.CannotForget (s.character i).name)
      (rules.retell ((rules.absorb s i e p.world).character i) forgotten text) := by
    unfold retell
    split
    · exact rules.memoryLost_outcome (hlater.name_eq i)
    · trivial
  refine .bind (.ofExcept hretell) fun text _ => .pure ?_
  refine ⟨?_, by simp⟩
  exact ((hlater.trans (.note ..)).trans (becomes_count _ i e)).trans
    (rules.becomes_checkEnding e _)

/-- What processing an event does to a session. -/
theorem perform_evolves (rules : Rulebook) (s : Session n) (i : Seat n) (e : Event)
    (scope : Scope) :
    Play.Ensures (rules.perform s i e scope) (Settles s i e)
      (rules.CannotForget (s.character i).name) := by
  unfold perform
  simp only
  split
  · rename_i he
    refine .bind (.chance (.of_forall fun _ => trivial)) fun alone _ => ?_
    split
    · exact .mono (rules.settleAlone_evolves s i e scope) fun a => .of_spares
    · exact rules.queue_evolves s i scope he _
  · exact .mono (rules.settle_evolves s i e scope _) fun a => .of_spares

/-! ### Chains -/

section Follow

variable {rules : Rulebook} {i : Seat n} {depth : Nat} {a : Aftermath n} {e : Event}

theorem next?_eq_none (h : a.next = none) : rules.next? a = none := by
  unfold next?
  rw [h]
  rfl

theorem follow_of_end (hnext : rules.next? a = none) :
    rules.follow i depth a = pure a.session := by
  rw [follow, hnext]

theorem follow_of_isTooDeep (hnext : rules.next? a = some e) (hdeep : rules.isTooDeep depth) :
    rules.follow i depth a =
      if rules.settings.strict then throw (.chainTooLong e.id (depth + 1)) else pure a.session := by
  rw [follow, hnext]
  simp only [hdeep, dif_pos]

theorem follow_of_pause (hnext : rules.next? a = some e) (hdeep : ¬rules.isTooDeep depth)
    (hpause : (a.pause && !e.isInteractive) = true) :
    rules.follow i depth a = (do
      let item ← Play.chance (rules.pendingOf a.session i e a.scope true)
      pure (a.session.push item)) := by
  rw [follow, hnext]
  simp only [hdeep, hpause, dif_neg, not_false_eq_true, if_true]

theorem follow_of_visit (hnext : rules.next? a = some e) (hdeep : ¬rules.isTooDeep depth)
    (hpause : ¬(a.pause && !e.isInteractive) = true) :
    rules.follow i depth a =
      rules.perform a.session i e a.scope >>= rules.follow i (depth + 1) := by
  rw [follow, hnext]
  simp only [hdeep, hpause, dif_neg, not_false_eq_true]
  rfl

end Follow

end Rulebook

end EventScript
