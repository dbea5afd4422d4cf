/-
Who the characters are.

Moves change attributes, tags, scores and counts, but never who somebody is: `Character.Persists`
says what stays of a character and what only grows.  The cast is closed if nobody has feelings
for a stranger, and a session if no event waits for a stranger either; scripts find the members
of the cast before they write, so closed it stays.

* `Character.Change.persists` — a character outlives every change that a move makes;
* `Cast.IsClosed.acts` and `Session.IsClosed.deed` — single acts of scripts and deeds of moves
  keep cast and session closed;
* `characters_keep_who_they_are` — hence whole games do.
-/
import EventScript.Proofs.Conduct
import EventScript.Proofs.Count
import EventScript.Proofs.History
import Mathlib.Data.List.Forall2

namespace EventScript

open Relation

variable {n : Nat}

/-! ### Characters -/

namespace Character

/-- A later moment of a character: who it is has stayed, and membership, counts and relations
have only grown. -/
structure Persists (old new : Character) : Prop where
  identity_eq : new.identity = old.identity
  inTeam : old.inTeam = true → new.inTeam = true
  timesFired_le : ∀ event, old.timesFired event ≤ new.timesFired event
  keys : old.relations.keys <+: new.relations.keys

theorem Persists.refl (c : Character) : c.Persists c :=
  ⟨rfl, fun h => h, fun _ => Int.le_refl _, List.prefix_rfl⟩

theorem Persists.trans {c c' c'' : Character} (h : c.Persists c') (h' : c'.Persists c'') :
    c.Persists c'' where
  identity_eq := h'.identity_eq.trans h.identity_eq
  inTeam hteam := h'.inTeam (h.inTeam hteam)
  timesFired_le event := Int.le_trans (h.timesFired_le event) (h'.timesFired_le event)
  keys := h.keys.trans h'.keys

theorem Persists.of_eq {c c' : Character} (hidentity : c'.identity = c.identity)
    (hteam : c'.inTeam = c.inTeam) (hfired : c'.fired = c.fired)
    (hrelations : c'.relations = c.relations) : c.Persists c' where
  identity_eq := hidentity
  inTeam h := hteam.trans h
  timesFired_le event := by
    have heq : c.timesFired event = c'.timesFired event := by
      rw [timesFired, timesFired, hfired]
    exact Int.le_of_eq heq
  keys := hrelations.symm ▸ List.prefix_rfl

theorem keys_prefix_put {α : Type} (m : Mapping α) (k : String) (v : α) :
    m.keys <+: (m.put k v).keys := by
  rw [Mapping.keys_put]
  split
  · exact List.prefix_rfl
  · exact List.prefix_append ..

theorem inTeam_setTag (c : Character) (template : String) (layers turn : Int) :
    (c.setTag template layers turn).inTeam = c.inTeam := by
  rw [setTag]
  by_cases hl : layers < 1
  · rw [if_pos hl]
    rfl
  · rw [if_neg hl]
    by_cases ht : c.hasTag template
    · rw [if_pos ht]
    · rw [if_neg ht]

theorem inTeam_overwork (c : Character) : c.overwork.inTeam = c.inTeam := by
  rw [overwork]
  by_cases h : 5 ≤ c.general.getD "体力" 0 ∧ 5 ≤ c.general.getD "心情" 0
  · rw [if_pos h]
  · rw [if_neg h]

/-- A character outlives every change that a move makes. -/
theorem Change.persists {turn : Int} {c c' : Character} (h : Change turn c c') :
    c.Persists c' := by
  have hidentity := h.identity_eq
  cases h with
  | edit hedit =>
    cases hedit with
    | general delta hname => exact .of_eq hidentity rfl rfl rfl
    | race delta hname => exact .of_eq hidentity rfl rfl rfl
    | relation other kind delta =>
      exact ⟨hidentity, fun h => h, fun _ => Int.le_refl _, keys_prefix_put ..⟩
    | tag template layers =>
      exact .of_eq hidentity (inTeam_setTag ..) (fired_setTag ..) (relations_setTag ..)
    | untag template => exact .of_eq hidentity rfl rfl rfl
    | join => exact ⟨hidentity, fun _ => rfl, fun _ => Int.le_refl _, List.prefix_rfl⟩
  | overwork =>
    exact .of_eq hidentity (inTeam_overwork c) (fired_overwork c) (Rulebook.relations_overwork c)
  | count event =>
    refine ⟨hidentity, fun h => h, fun id => ?_, List.prefix_rfl⟩
    rw [timesFired_countEvent]
    split <;> omega

theorem persists_of_changes {turn : Int} {c c' : Character}
    (h : ReflTransGen (Change turn) c c') : c.Persists c' := by
  induction h with
  | refl => exact .refl c
  | tail _ hstep ih => exact ih.trans hstep.persists

end Character

/-! ### Closed casts -/

/-- Nobody in the cast has feelings for a stranger. -/
def Cast.IsClosed (cast : Vector Character n) : Prop :=
  ∀ i, ∀ id ∈ (cast.get i).relations.keys, ∃ j, (cast.get j).id = id

namespace Cast.IsClosed

variable {cast : Vector Character n}

/-- A character may be replaced by one with the same id whose new feelings are for members of
the cast. -/
theorem set (h : IsClosed cast) (i : Seat n) {c : Character} (hid : c.id = (cast.get i).id)
    (hkeys : ∀ id ∈ c.relations.keys,
      id ∈ (cast.get i).relations.keys ∨ ∃ j, (cast.get j).id = id) :
    IsClosed (cast.set i.val c i.isLt) := by
  have hids : ∀ j, ((cast.set i.val c i.isLt).get j).id = (cast.get j).id := by
    intro j
    rw [cast_get_set]
    split
    · next hj => rw [hj, hid]
    · rfl
  intro j id hmem
  have hmember : ∃ k, (cast.get k).id = id := by
    rw [cast_get_set] at hmem
    split at hmem
    · exact (hkeys id hmem).elim (h i id) fun hfound => hfound
    · exact h j id hmem
  obtain ⟨k, hk⟩ := hmember
  exact ⟨k, (hids k).trans hk⟩

/-- Feelings that are left alone are for members of the cast as before. -/
theorem set_of_relations_eq (h : IsClosed cast) (i : Seat n) {c : Character}
    (hid : c.id = (cast.get i).id) (hrelations : c.relations = (cast.get i).relations) :
    IsClosed (cast.set i.val c i.isLt) :=
  h.set i hid fun _ hmem => .inl (hrelations ▸ hmem)

theorem deed {p q : Progress n} (hp : IsClosed p.world.cast) (h : Progress.Deed p q) :
    IsClosed q.world.cast := by
  cases h with
  | edit i f h hrelations =>
    have hidentity := Character.identity_eq_of_changes (h.lift id fun _ _ => .edit)
    exact hp.set_of_relations_eq i (congrArg Prod.fst hidentity) hrelations
  | feel holder object kind amount =>
    refine hp.set holder rfl fun id hmem => ?_
    -- the feelings are for the character in the seat of the object, or for whom they were for
    change id ∈ (Mapping.put ..).keys at hmem
    rw [Mapping.keys_put] at hmem
    split at hmem
    · exact .inl hmem
    · rcases List.mem_append.mp hmem with hold | hnew
      · exact .inl hold
      · exact .inr ⟨object, (List.mem_singleton.mp hnew).symm⟩
  | set key h => exact hp

/-- Scripts keep the cast closed. -/
theorem acts {p q : Progress n} (hp : IsClosed p.world.cast) (h : p.Acts q) :
    IsClosed q.world.cast := by
  induction h with
  | refl => exact hp
  | tail _ hact ih =>
    cases hact with
    | deed h => exact ih.deed h
    | jump next pause => exact ih
    | report outcomes => exact ih

end Cast.IsClosed

/-! ### Closed sessions -/

namespace Session

/-- Nobody has feelings for a stranger, and no event waits for one. -/
structure IsClosed (s : Session n) : Prop where
  cast : Cast.IsClosed s.cast
  pending : ∀ item ∈ s.pending, ∃ i, (s.character i).id = item.character

@[simp] theorem cast_note (s : Session n) (speaker text : String) (kind : EntryKind)
    (important : Bool) (effects : List String) :
    (s.note speaker text kind important effects).cast = s.cast := by
  unfold note
  simp only
  split <;> rfl

/-- The owners of waiting events are still there if nobody has changed who they are. -/
theorem IsClosed.of_id_eq {s t : Session n} (h : s.IsClosed) (hcast : Cast.IsClosed t.cast)
    (hid : ∀ i, (t.character i).id = (s.character i).id)
    (hpending : ∀ item ∈ t.pending, item ∈ s.pending) : t.IsClosed := by
  refine ⟨hcast, fun item hitem => ?_⟩
  obtain ⟨i, hi⟩ := h.pending item (hpending item hitem)
  exact ⟨i, (hid i).trans hi⟩

theorem IsClosed.of_cast_eq {s t : Session n} (h : s.IsClosed) (hcast : t.cast = s.cast)
    (hpending : t.pending = s.pending) : t.IsClosed :=
  h.of_id_eq (hcast ▸ h.cast) (fun i => congrArg (fun cast => (cast.get i).id) hcast)
    fun _ hitem => hpending ▸ hitem

theorem IsClosed.deed {a b : Session n × Scope} (ha : a.1.IsClosed) (h : Deed a b) :
    b.1.IsClosed := by
  cases h with
  | script s hacts =>
    have hbecomes := Becomes.cast (World.Becomes.of_acts hacts)
    exact ha.of_id_eq (ha.cast.acts hacts) hbecomes.id_eq fun _ hitem => hitem
  | change s scope i h hrelations =>
    have hid := congrArg Prod.fst h.identity_eq
    exact ha.of_id_eq (ha.cast.set_of_relations_eq i hid hrelations) (Becomes.update h).id_eq
      fun _ hitem => hitem
  | note s scope speaker text kind important effects =>
    exact ha.of_cast_eq (cast_note ..) (pending_note ..)
  | push s i hcharacter =>
    exact ⟨ha.cast, List.forall_mem_cons.mpr ⟨⟨i, hcharacter.symm⟩, ha.pending⟩⟩
  | leave s scope hpending =>
    refine ha.of_id_eq ha.cast (fun _ => rfl) fun item hitem => ?_
    rw [hpending]
    exact List.mem_cons_of_mem _ hitem
  | finish s scope => exact ha.of_cast_eq rfl rfl

theorem IsClosed.deeds {s t : Session n} {scope : Scope} (hs : s.IsClosed)
    (h : s.Deeds scope t) : t.IsClosed := by
  obtain ⟨last, hdeeds⟩ := h
  have key : ∀ b, ReflTransGen Deed (s, scope) b → b.1.IsClosed := by
    intro b hb
    induction hb with
    | refl => exact hs
    | tail _ hdeed ih => exact ih.deed hdeed
  exact key _ hdeeds

/-- Everybody in the cast has outlived what has happened, in the same order. -/
theorem forall₂_cast {R : Character → Character → Prop} {s t : Vector Character n}
    (h : ∀ i, R (s.get i) (t.get i)) : List.Forall₂ R s.toList t.toList := by
  refine List.forall₂_iff_get.mpr ⟨by simp, fun k hk hk' => ?_⟩
  have hk : k < n := by simpa using hk
  simpa [Vector.get] using h ⟨k, hk⟩

end Session

/-- Games do not change who the characters are: whatever moves are made, by whatever rules, the
cast has as many members in the same order, each is who it was, whoever is in the team stays in
it, no count falls and no relation is forgotten; and if at first nobody has feelings for a
stranger and no event waits for one, this stays so.  A command alone does not even count
events. -/
theorem characters_keep_who_they_are :
    (∀ {n : Nat} (moves : List (Rulebook × Move)) (s : Session n),
      Chance.Ensures (Session.play moves s) fun t =>
        List.Forall₂ Character.Persists s.cast.toList t.cast.toList ∧
          (s.IsClosed → t.IsClosed)) ∧
    ∀ {n : Nat} (w : World n) (subject : Seat n) (scope : Scope) (command : Text),
      Chance.Ensures (execute w subject scope command) fun q =>
        List.Forall₂ (fun old new => old.Persists new ∧ new.fired = old.fired)
          w.cast.toList q.world.cast.toList := by
  constructor
  · intro n moves s
    have hpersist := Session.play_ensures
      (R := fun s t => ∀ i, (s.character i).Persists (t.character i)) (fun _ _ => .refl _)
      (fun h h' i => (h i).trans (h' i))
      (fun rules s m => .mono (rules.make_changes s m) fun t? h t ht i =>
        Character.persists_of_changes (h t ht i)) moves s
    have hclosed := Session.play_ensures (R := fun s t => s.IsClosed → t.IsClosed)
      (fun _ h => h) (fun h h' hs => h' (h hs))
      (fun rules s m => rules.make_keeps (fun t ht hs => hs.deeds ht)
        fun t hcast hpending hs => hs.of_cast_eq hcast hpending) moves s
    exact fun d => ⟨Session.forall₂_cast (hpersist d), hclosed d⟩
  · intro n w subject scope command
    refine .mono (execute_becomes w subject scope command).2 fun q hq => ?_
    refine Session.forall₂_cast fun i => ⟨?_, hq.fired_eq i⟩
    exact Character.persists_of_changes ((hq.edits i).lift id fun _ _ => .edit)

theorem evening_isClosed : evening.IsClosed := by
  refine ⟨fun i id hid => ?_, by simp [evening]⟩
  have hnone : ∀ j, (evening.cast.get j).relations.keys = [] := by decide
  rw [hnone i] at hid
  cases hid

/-- A companion comes to like the trainer, and then visitors wait for an answer: both the
feeling and the visit are of members of the cast. -/
theorem an_evening_among_friends :
    ∃ t, ((Session.play [(nightRules, .command "关系变更 友情 5" "c1"),
        (nightRules, .process visitors "c1" .empty)] evening).run (.fresh fun _ => 0)).1 = t ∧
      (t.character 1).relations.keys = ["p1"] ∧ t.pending.map Pending.character = ["c1"] ∧
      List.Forall₂ Character.Persists evening.cast.toList t.cast.toList ∧
      evening.IsClosed ∧ t.IsClosed := by
  have hgame := characters_keep_who_they_are.1 [(nightRules, .command "关系变更 友情 5" "c1"),
    (nightRules, .process visitors "c1" .empty)] evening (.fresh fun _ => 0)
  refine ⟨_, rfl, ?_, ?_, hgame.1, evening_isClosed, hgame.2 evening_isClosed⟩
  · decide +kernel
  · decide +kernel

end EventScript
