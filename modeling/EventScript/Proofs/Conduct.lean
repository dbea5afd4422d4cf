/-
What moves do, variables included.

A move goes on with a session and with the variables of the chain that it carries out.
`Session.Deed` lists what it does to both at once: it carries out a script, changes a character
without touching relations, writes into the log, puts an event with the variables at hand in
front of the queue, takes the event in front with its variables out of the queue, or ends the
game.  Only a new turn is beyond that.

* `Rulebook.make_deeds` — a move that is no new turn does deeds, beginning with the variables
  that come with it;
* `Rulebook.make_keeps` — what deeds keep, and what only reads cast and queue, every move keeps.
-/
import EventScript.Proofs.Course

namespace EventScript

open Relation

variable {n : Nat}

/-! ### Deeds -/

/-- What moves do to a session and to the variables at hand, one thing at a time. -/
inductive Session.Deed : Session n × Scope → Session n × Scope → Prop where
  | script (s : Session n) {scope : Scope} {settings : Settings} {q : Progress n}
      (h : (Progress.start (s.world settings) scope).Acts q) :
      Deed (s, scope) ({ s with cast := q.world.cast }, q.scope)
  | change (s : Session n) (scope : Scope) (i : Seat n) {f : Character → Character}
      (h : Character.Change s.turn (s.character i) (f (s.character i)))
      (hrelations : (f (s.character i)).relations = (s.character i).relations) :
      Deed (s, scope) (s.update i f, scope)
  | note (s : Session n) (scope : Scope) (speaker text : String) (kind : EntryKind)
      (important : Bool) (effects : List String) :
      Deed (s, scope) (s.note speaker text kind important effects, scope)
  | push (s : Session n) (i : Seat n) {item : Pending}
      (hcharacter : item.character = (s.character i).id) :
      Deed (s, item.scope) (s.push item, item.scope)
  | leave (s : Session n) (scope : Scope) {item : Pending} {rest : List Pending}
      (h : s.pending = item :: rest) : Deed (s, scope) ({ s with pending := rest }, item.scope)
  | finish (s : Session n) (scope : Scope) : Deed (s, scope) ({ s with phase := .over }, scope)

/-- One deed after another, with some variables in the end. -/
def Session.Deeds (s : Session n) (scope : Scope) (t : Session n) : Prop :=
  ∃ last, ReflTransGen Session.Deed (s, scope) (t, last)

/-- Deeds come after deeds. -/
theorem Session.Deeds.after {s t u : Session n} {scope scope' : Scope} (h : t.Deeds scope' u)
    (hs : ReflTransGen Session.Deed (s, scope) (t, scope')) : s.Deeds scope u := by
  obtain ⟨last, hlast⟩ := h
  exact ⟨last, hs.trans hlast⟩

/-- The variables that come with a move. -/
def Move.scope : Move → Scope
  | .process _ _ scope => scope
  | _ => .empty

/-- What an event leaves behind has come out of deeds. -/
def Aftermath.Arises (s : Session n) (scope : Scope) (a : Aftermath n) : Prop :=
  ReflTransGen Session.Deed (s, scope) (a.session, a.scope)

namespace Rulebook

variable (rules : Rulebook)

/-! ### Parts of processing -/

theorem relations_overwork (c : Character) : c.overwork.relations = c.relations := by
  unfold Character.overwork
  simp only
  split <;> rfl

/-- After the actions of an event the session takes over the cast, with the effect of work. -/
theorem deeds_absorb {s : Session n} {scope : Scope} (i : Seat n) (e : Event) {p : Progress n}
    (h : (Progress.start (s.world rules.settings) scope).Acts p) :
    ReflTransGen Session.Deed (s, scope) (rules.absorb s i e p.world, p.scope) := by
  unfold absorb
  simp only
  split
  · exact .tail (.single (.script s h)) (.change _ _ i (.overwork _) (relations_overwork _))
  · exact .single (.script s h)

theorem deeds_checkEnding (e : Event) (s : Session n) (scope : Scope) :
    ReflTransGen Session.Deed (s, scope) (rules.checkEnding e s, scope) := by
  unfold checkEnding
  split
  · exact .single (.finish s scope)
  · exact .refl

theorem deed_count (s : Session n) (scope : Scope) (i : Seat n) (e : Event) :
    Session.Deed (s, scope) (count s i e, scope) :=
  .change s scope i (.count _ e.id) rfl

/-- The entry of an event belongs to a seat and keeps the variables at hand. -/
theorem pendingOf_deeds (s : Session n) (i : Seat n) (e : Event) (scope : Scope)
    (continuation : Bool) :
    Chance.Ensures (rules.pendingOf s i e scope continuation) fun item =>
      Session.Deed (s, scope) (s.push item, scope) :=
  .bind_of_forall fun title => .bind_of_forall fun text =>
    let item : Pending := ⟨(s.character i).id, e, scope, title, text, continuation⟩
    .pure (.push s i (show item.character = (s.character i).id from rfl))

/-! ### Single events -/

theorem settleOption_deeds (s : Session n) (i : Seat n) (e : Event) (index : Nat)
    (scope : Scope) (alone : Bool) :
    Play.Ensures (rules.settleOption s i e index scope alone) (Aftermath.Arises s scope)
      fun _ => True := by
  unfold settleOption
  split
  · exact .pure .refl
  · refine .bind (.chance (runActions_acts _ i scope e _ _).2) fun p hp => ?_
    refine .bind (.chance (.of_forall fun _ => trivial)) fun shown _ => .pure ?_
    have hlater := rules.deeds_absorb i e hp
    exact (hlater.tail (.note ..)).trans (rules.deeds_checkEnding e _ _)

theorem settleAlone_deeds (s : Session n) (i : Seat n) (e : Event) (scope : Scope) :
    Play.Ensures (rules.settleAlone s i e scope) (Aftermath.Arises s scope) fun _ => True := by
  refine .bind (.chance (execute_acts _ i scope _).2) fun pre hpre => ?_
  refine .bind (.trivial _) fun lost _ => ?_
  refine .bind (.trivial _) fun visible _ => ?_
  refine .bind (.trivial _) fun index _ => ?_
  refine .mono (rules.settleOption_deeds _ i e index pre.scope true) fun a ha => ?_
  exact .head (.script s hpre) (.head (.note ..) (.head (deed_count _ _ i e) ha))

theorem queue_deeds (s : Session n) (i : Seat n) (e : Event) (scope : Scope) :
    Play.Ensures (rules.queue s i e scope) (Aftermath.Arises s scope) fun _ => True := by
  refine .bind (.chance (execute_acts _ i scope _).2) fun pre hpre => ?_
  refine .bind (.chance (rules.pendingOf_deeds _ i e pre.scope false)) fun item hitem => .pure ?_
  exact .head (.script s hpre) (.head hitem (.single (deed_count _ _ i e)))

theorem settle_deeds (s : Session n) (i : Seat n) (e : Event) (scope : Scope) (split : Bool) :
    Play.Ensures (rules.settle s i e scope split) (Aftermath.Arises s scope) fun _ => True := by
  refine .bind (.chance (execute_acts _ i scope _).2) fun pre hpre => ?_
  refine .bind (.chance (runActions_acts pre.world i pre.scope e _ _).2) fun p hp => ?_
  refine .bind (.trivial _) fun text _ => ?_
  refine .bind (.trivial _) fun forgotten _ => ?_
  refine .bind (.trivial _) fun told _ => .pure ?_
  -- the session sees only what both commands have done together
  have hacts := (hpre.trans (Progress.Acts.start pre)).trans hp
  have hlater := rules.deeds_absorb i e hacts
  exact ((hlater.tail (.note ..)).tail (deed_count _ _ i e)).trans (rules.deeds_checkEnding e _ _)

theorem perform_deeds (s : Session n) (i : Seat n) (e : Event) (scope : Scope) :
    Play.Ensures (rules.perform s i e scope) (Aftermath.Arises s scope) fun _ => True := by
  unfold perform
  simp only
  split
  · refine .bind (.trivial _) fun alone _ => ?_
    split
    · exact rules.settleAlone_deeds s i e scope
    · exact rules.queue_deeds s i e scope
  · exact rules.settle_deeds s i e scope _

/-! ### Chains and moves -/

theorem follow_deeds (i : Seat n) (depth : Nat) (a : Aftermath n) :
    Play.Ensures (rules.follow i depth a) (a.session.Deeds a.scope) fun _ => True := by
  induction depth, a using follow.induct rules with
  | case1 depth a hnext =>
    rw [follow_of_end hnext]
    exact .pure ⟨_, .refl⟩
  | case2 depth a e hnext hdeep hstrict =>
    rw [follow_of_isTooDeep hnext hdeep, if_pos hstrict]
    exact .throw trivial
  | case3 depth a e hnext hdeep hstrict =>
    rw [follow_of_isTooDeep hnext hdeep, if_neg hstrict]
    exact .pure ⟨_, .refl⟩
  | case4 depth a e hnext hdeep hpause =>
    rw [follow_of_pause hnext hdeep hpause]
    exact .bind (.chance (rules.pendingOf_deeds a.session i e a.scope true)) fun item hitem =>
      .pure ⟨_, .single hitem⟩
  | case5 depth a e hnext hdeep hpause ih =>
    rw [follow_of_visit hnext hdeep hpause]
    refine .bind (rules.perform_deeds a.session i e a.scope) fun b hb => ?_
    exact .mono (ih b) fun t ht => ht.after hb

theorem process_deeds (s : Session n) (i : Seat n) (e : Event) (scope : Scope) :
    Play.Ensures (rules.process s i e scope) (s.Deeds scope) fun _ => True :=
  .bind (rules.perform_deeds s i e scope) fun a ha =>
    .mono (rules.follow_deeds i 0 a) fun _ ht => ht.after ha

theorem answer_deeds (s : Session n) (i : Seat n) (item : Pending) (index : Int) :
    Play.Ensures (rules.answer s i item index) (s.Deeds item.scope) fun _ => True := by
  unfold answer
  split
  · exact rules.process_deeds s i _ _
  · refine .bind (rules.settleOption_deeds _ i _ _ _ false) fun a ha => ?_
    exact .mono (rules.follow_deeds i 0 a) fun t ht => ht.after (.head (.note ..) ha)

theorem resolve_deeds (s : Session n) (index : Int) (scope : Scope) :
    Play.Ensures (rules.resolve s index) (fun t? => ∀ t ∈ t?, s.Deeds scope t)
      fun _ => True := by
  unfold resolve
  split
  · exact .pure (by simp)
  · rename_i item rest hpending
    split
    · exact .pure (by simp)
    · simp only
      split
      · exact .some (.mono (rules.answer_deeds _ _ item index) fun t ht =>
          ht.after (.single (.leave s scope hpending)))
      · refine .pure ?_
        rintro _ ⟨⟩
        exact ⟨_, .single (.leave s scope hpending)⟩

theorem command_deeds (s : Session n) (text id : String) :
    Play.Ensures (rules.command s text id) (fun t? => ∀ t ∈ t?, s.Deeds .empty t)
      fun _ => True := by
  unfold command
  cases rules.commandSeat? s id with
  | none => exact .pure (by simp)
  | some i =>
    refine .bind (.chance (execute_acts _ i .empty _).2) fun p hp => ?_
    exact .some (.mono (rules.follow_deeds _ 0 _) fun t ht =>
      ht.after (.head (.script s hp) (.single (.note ..))))

theorem trigger_deeds (s : Session n) (id : String) (forced : Option Event) :
    Play.Ensures (rules.trigger s id forced) (fun t? => ∀ t ∈ t?, s.Deeds .empty t)
      fun _ => True := by
  unfold trigger
  cases s.seat? id with
  | none => exact .pure (by simp)
  | some i =>
    refine .bind (.trivial _) fun chosen _ => ?_
    cases chosen with
    | none => exact .pure (by simp)
    | some e => exact .some (rules.process_deeds s i e .empty)

theorem processFor_deeds (s : Session n) (e : Event) (id : String) (scope : Scope) :
    Play.Ensures (rules.processFor s e id scope) (s.Deeds scope) fun _ => True := by
  unfold processFor
  split
  · exact rules.process_deeds s _ e scope
  · exact .pure ⟨_, .refl⟩

/-- A move that is no new turn does deeds. -/
theorem make_deeds (s : Session n) {m : Move} (hm : m ≠ .advance) :
    Play.Ensures (rules.make s m) (fun t? => ∀ t ∈ t?, s.Deeds m.scope t) fun _ => True := by
  cases m with
  | advance => exact absurd rfl hm
  | trigger id forced => exact rules.trigger_deeds s id forced
  | process e id scope => exact .some (rules.processFor_deeds s e id scope)
  | resolve index => exact rules.resolve_deeds s index _
  | command text id => exact rules.command_deeds s text id

theorem pending_advance {settings : Settings} {s t : Session n}
    (h : advance settings s = some t) : t.pending = s.pending := by
  unfold advance at h
  split at h
  · simp at h
  · simp only at h
    split at h
    · cases h
      rfl
    · cases h
      exact Session.pending_note ..

/-- What deeds keep, and what only depends on cast and queue, every move keeps. -/
theorem make_keeps {P : Session n → Prop} {s : Session n} {m : Move}
    (hdeeds : ∀ t, s.Deeds m.scope t → P t)
    (hadvance : ∀ t, t.cast = s.cast → t.pending = s.pending → P t) :
    Play.Ensures (rules.make s m) (fun t? => ∀ t ∈ t?, P t) fun _ => True := by
  by_cases hm : m = .advance
  · subst hm
    exact .pure fun t ht => hadvance t (cast_advance ht) (pending_advance ht)
  · exact .mono (rules.make_deeds s hm) fun t? h t ht => hdeeds t (h t ht)

end Rulebook

end EventScript
