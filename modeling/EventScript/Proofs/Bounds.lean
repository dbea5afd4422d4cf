/-
Bounds that hold in every game.

A character is within bounds if its general attributes lie between 0 and 100, its race
attributes are not negative, its tags are distinct and have layers, and the scores of its
relations lie between 0 and 100.

* `Character.WithinBounds.change` — every change that a move makes stays within bounds;
* `Template.WithinBounds.enter` — a character that enters from a template within bounds is
  within bounds;
* `games_stay_within_bounds` — so games begin within bounds and stay there.
-/
import EventScript.Proofs.Course
import EventScript.Session.Opening
import Mathlib.Data.List.Forall2

namespace EventScript

/-! ### Mappings -/

namespace Mapping

variable {α : Type}

/-- A mapping has all the keys of a list, with values that satisfy a predicate. -/
def Fulfils (m : Mapping α) (names : List String) (P : α → Prop) : Prop :=
  ∀ name ∈ names, ∃ v ∈ m.get? name, P v

theorem Fulfils.put {m : Mapping α} {names : List String} {P : α → Prop}
    (h : m.Fulfils names P) (k : String) {v : α} (hv : P v) : (m.put k v).Fulfils names P := by
  intro name hname
  by_cases hk : k = name
  · subst hk
    exact ⟨v, get?_put_self m k v, hv⟩
  · rw [get?_put_of_ne m hk]
    exact h name hname

theorem Fulfils.getD {m : Mapping α} {names : List String} {P : α → Prop} (h : m.Fulfils names P)
    {name : String} (hname : name ∈ names) (default : α) : P (m.getD name default) := by
  obtain ⟨v, hv, hP⟩ := h name hname
  unfold Mapping.getD
  rw [Option.mem_def.mp hv]
  exact hP

theorem mem_values_of_get? {m : Mapping α} {k : String} {v : α} (h : m.get? k = some v) :
    v ∈ m.values :=
  List.mem_map_of_mem (mem_of_get? h)

theorem forall_values_put {m : Mapping α} {P : α → Prop} (h : ∀ v ∈ m.values, P v) (k : String)
    {v : α} (hv : P v) : ∀ w ∈ (m.put k v).values, P w := by
  have key : ∀ l : List (String × α), (∀ w ∈ l.map Prod.snd, P w) →
      ∀ w ∈ (insertPair k v l).map Prod.snd, P w := by
    intro l hl
    induction l with
    | nil => simpa [insertPair] using hv
    | cons p rest ih =>
      obtain ⟨hp, hrest⟩ := List.forall_mem_cons.mp hl
      unfold insertPair
      split
      · exact List.forall_mem_cons.mpr ⟨hv, hrest⟩
      · exact List.forall_mem_cons.mpr ⟨hp, ih hrest⟩
  exact key m.entries h

instance (m : Mapping α) (names : List String) (P : α → Prop) [DecidablePred P] :
    Decidable (m.Fulfils names P) :=
  inferInstanceAs (Decidable (∀ name ∈ names, ∃ v ∈ m.get? name, P v))

end Mapping

/-! ### Characters -/

/-- A general attribute, or a score of a relation, within its bounds. -/
def IsScore (k : Int) : Prop :=
  0 ≤ k ∧ k ≤ 100

instance (k : Int) : Decidable (IsScore k) :=
  inferInstanceAs (Decidable (_ ∧ _))

theorem isScore_clamp (k : Int) : IsScore (clamp k) :=
  ⟨clamp_nonneg k, clamp_le k⟩

/-- Both scores of a relation are within their bounds. -/
structure Relationship.WithinBounds (r : Relationship) : Prop where
  friendship : IsScore r.friendship
  romance : IsScore r.romance

theorem Relationship.WithinBounds.adjust {r : Relationship} (h : r.WithinBounds)
    (kind : RelationKind) (delta : Int) : (r.adjust kind delta).WithinBounds := by
  cases kind with
  | friendship => exact ⟨isScore_clamp _, h.romance⟩
  | romance => exact ⟨h.friendship, isScore_clamp _⟩

namespace Character

/-- Everything about a character is within its bounds. -/
structure WithinBounds (c : Character) : Prop where
  general : c.general.Fulfils generalNames IsScore
  race : c.race.Fulfils raceNames (0 ≤ ·)
  distinct : (c.tags.map Tag.template).Nodup
  layered : ∀ t ∈ c.tags, 1 ≤ t.layers
  relations : ∀ r ∈ c.relations.values, r.WithinBounds

theorem hasTag_iff (c : Character) (template : String) :
    c.hasTag template = true ↔ template ∈ c.tags.map Tag.template := by
  unfold hasTag tag?
  simp [List.find?_isSome]

theorem map_template_relayer (template : String) (layers : Int) (tags : List Tag) :
    (relayer template layers tags).map Tag.template = tags.map Tag.template := by
  induction tags with
  | nil => rfl
  | cons t rest ih =>
    unfold relayer
    split
    · rfl
    · rw [List.map_cons, List.map_cons, ih]

theorem forall_relayer {P : Int → Prop} {template : String} {layers : Int} (hl : P layers)
    {tags : List Tag} (h : ∀ t ∈ tags, P t.layers) :
    ∀ t ∈ relayer template layers tags, P t.layers := by
  induction tags with
  | nil => exact h
  | cons t rest ih =>
    obtain ⟨ht, hrest⟩ := List.forall_mem_cons.mp h
    unfold relayer
    split
    · exact List.forall_mem_cons.mpr ⟨hl, hrest⟩
    · exact List.forall_mem_cons.mpr ⟨ht, ih hrest⟩

/-- No two tags are of one template, and every tag has a layer at least. -/
structure IsTallied (c : Character) : Prop where
  distinct : (c.tags.map Tag.template).Nodup
  layered : ∀ t ∈ c.tags, 1 ≤ t.layers

theorem IsTallied.removeTag {c : Character} (h : c.IsTallied) (template : String) :
    (c.removeTag template).IsTallied :=
  ⟨h.distinct.sublist (List.filter_sublist.map _),
    fun t ht => h.layered t (List.mem_filter.mp ht).1⟩

theorem IsTallied.setTag {c : Character} (h : c.IsTallied) (template : String)
    (layers turn : Int) : (c.setTag template layers turn).IsTallied := by
  unfold Character.setTag
  split
  · exact h.removeTag template
  · have hlayers : 1 ≤ layers := by omega
    split
    · -- a tag that is there keeps its place
      refine ⟨?_, forall_relayer hlayers h.layered⟩
      rw [map_template_relayer]
      exact h.distinct
    · -- a new tag comes last
      rename_i hnew
      have hmem : template ∉ c.tags.map Tag.template := fun ht =>
        hnew ((c.hasTag_iff template).mpr ht)
      refine ⟨?_, List.forall_mem_append.mpr ⟨h.layered, by simpa using hlayers⟩⟩
      rw [List.map_append, List.nodup_append]
      refine ⟨h.distinct, List.pairwise_singleton _ _, fun a ha b hb hab => hmem ?_⟩
      have htemplate : a = template := hab.trans (List.mem_singleton.mp hb)
      exact htemplate ▸ ha

/-- Of a character whose tags are changed, only the tags are different. -/
theorem setTag_eq (c : Character) (template : String) (layers turn : Int) :
    c.setTag template layers turn = { c with tags := (c.setTag template layers turn).tags } := by
  unfold Character.setTag
  split
  · rfl
  · split <;> rfl

namespace WithinBounds

variable {c : Character}

theorem adjustGeneral (h : c.WithinBounds) (name : String) (delta : Int) :
    (c.adjustGeneral name delta).WithinBounds :=
  { h with general := h.general.put name (isScore_clamp _) }

theorem adjustRace (h : c.WithinBounds) (name : String) (delta : Int) :
    (c.adjustRace name delta).WithinBounds :=
  { h with race := h.race.put name (Int.le_max_left ..) }

theorem adjustRelation (h : c.WithinBounds) (other : String) (kind : RelationKind)
    (delta : Int) : (c.adjustRelation other kind delta).WithinBounds := by
  have hr : (c.relation other).WithinBounds := by
    unfold relation Mapping.getD
    cases hget : c.relations.get? other with
    | none => exact ⟨(by decide : IsScore 0), (by decide : IsScore 0)⟩
    | some r => exact h.relations r (Mapping.mem_values_of_get? hget)
  exact { h with relations := Mapping.forall_values_put h.relations other (hr.adjust kind delta) }

theorem isTallied (h : c.WithinBounds) : c.IsTallied :=
  ⟨h.distinct, h.layered⟩

theorem removeTag (h : c.WithinBounds) (template : String) :
    (c.removeTag template).WithinBounds :=
  have htags := h.isTallied.removeTag template
  { h with distinct := htags.distinct, layered := htags.layered }

theorem setTag (h : c.WithinBounds) (template : String) (layers turn : Int) :
    (c.setTag template layers turn).WithinBounds := by
  have htags := h.isTallied.setTag template layers turn
  rw [setTag_eq]
  exact { h with distinct := htags.distinct, layered := htags.layered }

theorem overwork (h : c.WithinBounds) : c.overwork.WithinBounds := by
  unfold Character.overwork
  simp only
  split
  · -- there is enough of both, so neither falls below zero
    rename_i henough
    have hbody : IsScore (c.general.getD "体力" 0) := h.general.getD (by decide) 0
    have hmood : IsScore (c.general.getD "心情" 0) := h.general.getD (by decide) 0
    unfold IsScore at hbody hmood
    have hworn := h.general.put "体力" (v := c.general.getD "体力" 0 - 5) ⟨by omega, by omega⟩
    have htired := hworn.put "心情" (v := c.general.getD "心情" 0 - 5) ⟨by omega, by omega⟩
    have henergy := htired.getD (by decide : "精力" ∈ generalNames) 0
    unfold IsScore at henergy
    exact { h with general := htired.put "精力" ⟨by omega, by omega⟩ }
  · exact h

/-- Scripts keep characters within bounds. -/
theorem edit {turn : Int} {c c' : Character} (hc : c.WithinBounds)
    (h : Character.Edit turn c c') : c'.WithinBounds := by
  cases h with
  | general delta => exact hc.adjustGeneral _ delta
  | race delta => exact hc.adjustRace _ delta
  | relation other kind delta => exact hc.adjustRelation other kind delta
  | tag template layers => exact hc.setTag template layers turn
  | untag template => exact hc.removeTag template
  | join => exact { hc with }

/-- Moves keep characters within bounds. -/
theorem change {turn : Int} {c c' : Character} (hc : c.WithinBounds)
    (h : Character.Change turn c c') : c'.WithinBounds := by
  cases h with
  | edit h => exact hc.edit h
  | overwork => exact hc.overwork
  | count event => exact { hc with }

theorem changes {turn : Int} {c c' : Character} (hc : c.WithinBounds)
    (h : Relation.ReflTransGen (Character.Change turn) c c') : c'.WithinBounds := by
  induction h with
  | refl => exact hc
  | tail _ hchange ih => exact ih.change hchange

end WithinBounds

end Character

/-- All characters of a session are within their bounds. -/
def Session.WithinBounds {n : Nat} (s : Session n) : Prop :=
  ∀ i, (s.character i).WithinBounds

theorem Session.WithinBounds.play {n : Nat} {s : Session n} (h : s.WithinBounds)
    (moves : List (Rulebook × Move)) :
    Chance.Ensures (Session.play moves s) Session.WithinBounds := by
  have hstep : ∀ (rules : Rulebook) (s : Session n) m,
      Play.Ensures (rules.make s m) (fun t? => ∀ t ∈ t?, s.WithinBounds → t.WithinBounds)
        fun _ => True := by
    intro rules s m
    exact .mono (rules.make_changes s m) fun t? ht? t ht hs i => (hs i).changes (ht? t ht i)
  exact .mono (Session.play_ensures (fun _ hs => hs) (fun h h' hs => h' (h hs)) hstep moves s)
    fun t ht => ht h

/-! ### The beginning of a game -/

namespace Template

/-- The attributes that a template gives are within their bounds, and no initial tag is
repeated. -/
structure WithinBounds (t : Template) : Prop where
  general : t.general.Fulfils generalNames IsScore
  race : t.race.Fulfils raceNames (0 ≤ ·)
  distinct : t.initialTags.Nodup

theorem nodup_entranceTags {initial : List String} (h : initial.Nodup) (extra : List String) :
    (entranceTags initial extra).Nodup := by
  unfold entranceTags
  induction extra generalizing initial with
  | nil => exact h
  | cons tag rest ih =>
    rw [List.foldl_cons]
    split
    · exact ih h
    · rename_i hnew
      refine ih (List.nodup_append.mpr ⟨h, List.pairwise_singleton _ _, ?_⟩)
      intro a ha b hb hab
      rw [List.mem_singleton.mp hb] at hab
      exact hnew (List.contains_iff_mem.mpr (hab ▸ ha))

theorem withinBounds_applyBonus {c : Character} (h : c.WithinBounds)
    (bonus : String × String × Int) : (applyBonus c bonus).WithinBounds := by
  unfold applyBonus
  split
  · exact h.adjustGeneral _ _
  · exact h

/-- Who enters from a template within bounds is within bounds. -/
theorem WithinBounds.enter {t : Template} (h : t.WithinBounds) (e : Entrance) :
    (t.enter e).WithinBounds := by
  unfold Template.enter
  simp only
  -- the bonuses come on top of what the template gives
  refine List.foldlRecOn (motive := Character.WithinBounds) _ _ ?_
    fun c hc bonus _ => withinBounds_applyBonus hc bonus
  refine ⟨h.general, h.race, ?_, ?_, by simp [Mapping.empty, Mapping.values]⟩
  · rw [List.map_map]
    exact (List.map_id _).symm ▸ nodup_entranceTags h.distinct e.extraTags
  · simp

/-- A character has entered from a template. -/
def Makes (t : Template) (c : Character) : Prop :=
  ∃ e, c = t.enter e

end Template

namespace Opening

/-- Everyone in a cast has entered from a template of a list, in order. -/
def Uses (templates : List Template) (cast : List Character) : Prop :=
  List.Forall₂ Template.Makes templates cast

theorem withinBounds_of_uses {ts : List Template} {cast : List Character} (h : Uses ts cast)
    (hts : ∀ t ∈ ts, t.WithinBounds) : ∀ c ∈ cast, c.WithinBounds := by
  induction h with
  | nil => simp
  | cons hmakes _ ih =>
    obtain ⟨ht, hrest⟩ := List.forall_mem_cons.mp hts
    obtain ⟨e, rfl⟩ := hmakes
    exact List.forall_mem_cons.mpr ⟨ht.enter e, ih hrest⟩

theorem others_uses (templates : Mapping Template) (k : Nat) (used roster : List String) :
    ∃ ts ⊆ templates.values, Uses ts (others templates k used roster) := by
  induction roster generalizing k used with
  | nil => exact ⟨[], List.nil_subset _, .nil⟩
  | cons id rest ih =>
    unfold others
    split
    · exact ih k used
    · rename_i t ht
      split
      · exact ih k used
      · obtain ⟨ts, hts, huses⟩ := ih (k + 1) (id :: used)
        have hmem : t ∈ templates.values := Mapping.mem_values_of_get? ht
        exact ⟨t :: ts, List.cons_subset.mpr ⟨hmem, hts⟩, .cons ⟨_, rfl⟩ huses⟩

theorem chooseCompanion_mem (o : Opening) (templates : Mapping Template) (trainer : Template) :
    Chance.Ensures (o.chooseCompanion templates trainer) fun t? =>
      ∀ t ∈ t?, t ∈ templates.values := by
  unfold chooseCompanion
  split
  · rename_i t ht
    refine .pure ?_
    rintro _ ⟨⟩
    split at ht
    · cases ht
    · exact Mapping.mem_values_of_get? ht
  · -- nobody was asked for, or nobody known: one is drawn
    have hpool : companionPool templates trainer ⊆ templates.values := fun t ht =>
      (List.mem_filter.mp ht).1
    unfold drawTemplate
    split
    · exact .pure (by simp)
    · rename_i t rest hdraw
      refine .map (.mono (.pick t rest) fun u hu => ?_)
      rintro _ ⟨⟩
      exact hpool (hdraw ▸ hu)

/-- What can go wrong when a game is opened. -/
def Fault (o : Opening) (templates : Mapping Template) (settings : Settings) (f : Failure) :
    Prop :=
  templates.get? settings.trainerTemplate = none ∧ f = .noTrainer settings.trainerTemplate ∨
    o.readGender = .error f

theorem cast_uses (o : Opening) (templates : Mapping Template) (settings : Settings) :
    Play.Ensures (o.cast templates settings)
      (fun cast => ∃ ts ⊆ templates.values, Uses ts cast) (o.Fault templates settings) := by
  unfold cast
  split
  · rename_i hnone
    exact .throw (.inl ⟨hnone, rfl⟩)
  · rename_i trainer htrainer
    have hgender : Play.Outcome (fun _ => True) (o.Fault templates settings) o.readGender := by
      cases hread : o.readGender with
      | ok g => trivial
      | error f => exact .inr hread
    refine .bind (.ofExcept hgender) fun gender _ => ?_
    refine .bind (.chance (o.chooseCompanion_mem templates trainer)) fun companion hc => .pure ?_
    obtain ⟨ts, hts, huses⟩ := others_uses templates 1 _ o.roster
    refine ⟨trainer :: companion.toList ++ ts, ?_, List.rel_append ?_ huses⟩
    · have hfirst : trainer :: companion.toList ⊆ templates.values :=
        List.cons_subset.mpr ⟨Mapping.mem_values_of_get? htrainer, fun t ht =>
          hc t (Option.mem_toList.mp ht)⟩
      exact List.append_subset.mpr ⟨hfirst, hts⟩
    · refine .cons ⟨_, rfl⟩ (List.forall₂_map_right_iff.mpr (List.forall₂_same.mpr ?_))
      exact fun t _ => ⟨_, rfl⟩

/-- A new game is within bounds if the templates that it uses are. -/
theorem start_uses (o : Opening) (templates : Mapping Template) (settings : Settings) :
    Play.Ensures (o.start templates settings)
      (fun game => ∃ ts ⊆ templates.values, Uses ts game.2.cast.toList ∧
        ((∀ t ∈ ts, t.WithinBounds) → game.2.WithinBounds))
      (o.Fault templates settings) := by
  refine .bind (o.cast_uses templates settings) fun cast hcast => .pure ?_
  obtain ⟨ts, hsubset, huses⟩ := hcast
  refine ⟨ts, hsubset, huses, fun hts i => ?_⟩
  exact withinBounds_of_uses huses hts _ (List.getElem_mem i.isLt)

end Opening

/-- Games begin within bounds, if the templates that they use are, and stay there, whatever
moves are made and by whatever rules. -/
theorem games_stay_within_bounds :
    (∀ (o : Opening) (templates : Mapping Template) (settings : Settings),
      Play.Ensures (o.start templates settings)
        (fun game => ∃ ts ⊆ templates.values, Opening.Uses ts game.2.cast.toList ∧
          ((∀ t ∈ ts, t.WithinBounds) → game.2.WithinBounds))
        (o.Fault templates settings)) ∧
    ∀ {n : Nat} (s : Session n) (moves : List (Rulebook × Move)), s.WithinBounds →
      Chance.Ensures (Session.play moves s) Session.WithinBounds :=
  ⟨Opening.start_uses, fun _ moves hs => hs.play moves⟩

/-- The templates of a game that the player plays alone. -/
def soloTemplates : Mapping Template :=
  ⟨[("训练员", ⟨"训练员", "甲", .female, ["富豪"], defaultGeneral, defaultRace, none, true, []⟩)]⟩

theorem solo_game_stays_within_bounds :
    Play.Ensures (Opening.start ⟨"乙", "", ["贫穷"], "", ["训练员"]⟩ soloTemplates .standard)
      (fun game => game.2.WithinBounds ∧
        Chance.Ensures (Session.play [(⟨⟨[]⟩, .standard⟩, .command "属性变更 财富 500" "p1"),
          (⟨⟨[]⟩, .standard⟩, .advance)] game.2) Session.WithinBounds)
      (Opening.Fault ⟨"乙", "", ["贫穷"], "", ["训练员"]⟩ soloTemplates .standard) := by
  have htemplates : ∀ t ∈ soloTemplates.values, t.WithinBounds :=
    List.forall_mem_singleton.mpr ⟨by decide, by decide, by decide⟩
  refine .mono (games_stay_within_bounds.1 _ soloTemplates .standard) fun game hgame => ?_
  obtain ⟨ts, hsubset, -, hbounds⟩ := hgame
  have hs := hbounds fun t ht => htemplates t (hsubset ht)
  exact ⟨hs, games_stay_within_bounds.2 game.2 _ hs⟩

end EventScript
