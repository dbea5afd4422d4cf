/-
Variables stay live.

A variable is live if its value is a number, a text, a reference to a member of the cast by the
name that it has, or a list of such references.  Whoever sets a variable looks the members of the
cast up before, and nobody changes id or name, so live variables stay live: through commands, and
with the events in the queue that keep them, from move to move.

* `Scope.IsLive.acts` — scripts keep variables live;
* `Session.IsLive.deed` — so do the deeds of moves, for the variables at hand and those that wait;
* `variables_stay_live` — hence in a game that begins without waiting events, and into which
  nobody brings variables, all variables that wait are live.
-/
import EventScript.Proofs.Bounds
import EventScript.Proofs.Persistence

namespace EventScript

open Relation

variable {n : Nat}

/-! ### Values -/

section Transport

variable {cast cast' : Vector Character n}
  (h : ∀ i, (cast'.get i).identity = (cast.get i).identity)

include h

/-- A reference stays live as long as nobody changes who they are. -/
theorem Reference.IsLive.of_identity_eq {r : Reference} (hr : r.IsLive cast) : r.IsLive cast' := by
  obtain ⟨i, hid, hname⟩ := hr
  refine ⟨i, ?_, ?_⟩
  · exact (congrArg Prod.fst (h i)).trans hid
  · exact (congrArg (fun who => who.2.2.1) (h i)).trans hname

theorem Value.IsLive.of_identity_eq {v : Value} (hv : v.IsLive cast) : v.IsLive cast' := by
  cases hv with
  | int k => exact .int k
  | text s => exact .text s
  | reference hr => exact .reference (hr.of_identity_eq h)
  | list hrs => exact .list fun r hr => (hrs r hr).of_identity_eq h

end Transport

/-- All variables are live. -/
def Scope.IsLive (cast : Vector Character n) (scope : Scope) : Prop :=
  ∀ v ∈ scope.values, v.IsLive cast

namespace Scope.IsLive

theorem empty (cast : Vector Character n) : Scope.IsLive cast .empty := by
  intro v hv
  cases hv

theorem of_identity_eq {cast cast' : Vector Character n} {scope : Scope}
    (hscope : scope.IsLive cast) (h : ∀ i, (cast'.get i).identity = (cast.get i).identity) :
    scope.IsLive cast' :=
  fun v hv => (hscope v hv).of_identity_eq h

theorem act {p q : Progress n} (hp : p.scope.IsLive p.world.cast) (h : Progress.Act p q) :
    q.scope.IsLive q.world.cast := by
  have hidentity := (World.Becomes.of_acts (.single h)).identity_eq
  -- whatever becomes of the cast, what was live before is live afterwards
  have hold : p.scope.IsLive q.world.cast := hp.of_identity_eq hidentity
  cases h with
  | deed h =>
    cases h with
    | edit i f h hrelations => exact hold
    | feel holder object kind amount => exact hold
    | set key hv => exact Mapping.forall_values_put hp _ hv
  | jump next pause => exact hold
  | report outcomes => exact hold

/-- Scripts keep variables live. -/
theorem acts {p q : Progress n} (hp : p.scope.IsLive p.world.cast) (h : p.Acts q) :
    q.scope.IsLive q.world.cast := by
  induction h with
  | refl => exact hp
  | tail _ hact ih => exact ih.act hact

end Scope.IsLive

/-! ### Sessions -/

namespace Session

/-- The variables of all waiting events are live. -/
def IsLive (s : Session n) : Prop :=
  ∀ item ∈ s.pending, item.scope.IsLive s.cast

namespace IsLive

theorem of_identity_eq {s t : Session n} (hs : s.IsLive)
    (h : ∀ i, (t.character i).identity = (s.character i).identity)
    (hpending : ∀ item ∈ t.pending, item ∈ s.pending) : t.IsLive :=
  fun item hitem => (hs item (hpending item hitem)).of_identity_eq h

/-- A deed keeps the variables at hand live, and those of waiting events. -/
theorem deed {a b : Session n × Scope} (hs : a.1.IsLive) (hscope : a.2.IsLive a.1.cast)
    (h : Deed a b) : b.1.IsLive ∧ b.2.IsLive b.1.cast := by
  cases h with
  | script s hacts =>
    have hidentity := (World.Becomes.of_acts hacts).identity_eq
    exact ⟨hs.of_identity_eq hidentity fun _ hitem => hitem, hscope.acts hacts⟩
  | change s scope i h hrelations =>
    have hidentity := (Becomes.update h).identity_eq
    exact ⟨hs.of_identity_eq hidentity fun _ hitem => hitem, hscope.of_identity_eq hidentity⟩
  | note s scope speaker text kind important effects =>
    have hidentity := (Becomes.note s speaker text kind important effects).identity_eq
    refine ⟨hs.of_identity_eq hidentity fun item hitem => ?_, hscope.of_identity_eq hidentity⟩
    rwa [pending_note] at hitem
  | push s i hcharacter => exact ⟨List.forall_mem_cons.mpr ⟨hscope, hs⟩, hscope⟩
  | leave s scope hpending =>
    -- from now on the variables of the event that leaves the queue are at hand
    unfold IsLive at hs
    rw [hpending] at hs
    obtain ⟨hitem, hrest⟩ := List.forall_mem_cons.mp hs
    exact ⟨hrest, hitem⟩
  | finish s scope => exact ⟨hs, hscope⟩

theorem deeds {s t : Session n} {scope : Scope} (hs : s.IsLive) (hscope : scope.IsLive s.cast)
    (h : s.Deeds scope t) : t.IsLive := by
  obtain ⟨last, hdeeds⟩ := h
  have key : ∀ b, ReflTransGen Deed (s, scope) b → b.1.IsLive ∧ b.2.IsLive b.1.cast := by
    intro b hb
    induction hb with
    | refl => exact ⟨hs, hscope⟩
    | tail _ hdeed ih => exact ih.1.deed ih.2 hdeed
  exact (key _ hdeeds).1

end IsLive

end Session

/-- Variables stay live: a command that begins with live variables ends with live variables,
and in a game that begins without waiting events, into which nobody brings variables, the
variables of all waiting events are live at any time. -/
theorem variables_stay_live :
    (∀ {n : Nat} (w : World n) (subject : Seat n) (scope : Scope) (command : Text),
      scope.IsLive w.cast → Chance.Ensures (execute w subject scope command) fun q =>
        q.scope.IsLive q.world.cast) ∧
    ∀ {n : Nat} (moves : List (Rulebook × Move)) (s : Session n), s.pending = [] →
      (∀ move ∈ moves, move.2.scope = .empty) →
      Chance.Ensures (Session.play moves s) fun t =>
        ∀ item ∈ t.pending, item.scope.IsLive t.cast := by
  constructor
  · intro n w subject scope command hscope
    exact .mono (execute_acts w subject scope command).2 fun q hq => Scope.IsLive.acts hscope hq
  · intro n moves s hpending hmoves
    have hlive : s.IsLive := by
      intro item hitem
      rw [hpending] at hitem
      cases hitem
    have hgame := Session.play_ensures_of_mem (R := fun s t => s.IsLive → t.IsLive)
      (fun _ h => h) (fun h h' hs => h' (h hs)) moves
      (fun move hmove s => move.1.make_keeps
        (fun t ht hs => hs.deeds (hmoves move hmove ▸ Scope.IsLive.empty s.cast) ht)
        fun t hcast hpending hs => hs.of_identity_eq
          (fun i => congrArg (fun cast => (cast.get i).identity) hcast)
          fun _ hitem => hpending ▸ hitem) s
    exact .mono hgame fun t ht => ht hlive

/-- A purchase that goes on after a pause. -/
def market : Event :=
  { Event.plain "集市" with action := "设置变量 价格 = 3; 设置变量 角色 卖家 = 训练员; 继续 黎明" }

/-- Price and seller are remembered during the pause, and both are live. -/
theorem seller_is_remembered :
    ∃ t, ((Session.play [(nightRules, .process market "c1" .empty)] evening).run
        (.fresh fun _ => 0)).1 = t ∧
      t.pending.map (fun item => item.scope.keys) = [["价格", "卖家"]] ∧
      (∀ item ∈ t.pending, item.scope.IsLive t.cast) ∧
      Chance.Ensures (execute (evening.world .standard) 1 .empty market.action.toList) fun q =>
        q.scope.IsLive q.world.cast := by
  refine ⟨_, rfl, ?_, ?_, ?_⟩
  · decide +kernel
  · exact variables_stay_live.2 [(nightRules, .process market "c1" .empty)] evening rfl
      (List.forall_mem_singleton.mpr rfl) (.fresh fun _ => 0)
  · exact variables_stay_live.1 _ 1 .empty market.action.toList (Scope.IsLive.empty _)

end EventScript
