/-
Tags as counters.

Statements about tags grant layers, change their number or take a tag away.  Whoever only asks for
numbers of layers may forget how tags are stored:

* `TagOrder` — one such statement for a character, and the turn in which it is carried out;
* `TagOrder.on` — all three kinds give the tag some number of layers (`TagOrder.execute_text`);
* `TagOrder.tagLayers_on` — which is what a map of counters does;
* `tag_orders_keep_a_tally` — the statement for sequences of orders, with what becomes of the order
  of the tags and of the turns since which they are there.

A tag of the name 若 can be taken away, but it can be neither granted nor changed: between spaces
that name begins the guard of a statement (`tag_named_like_the_guard`).
-/
import EventScript.Proofs.Bounds
import EventScript.Proofs.Wording
import Mathlib.Logic.Function.Basic

namespace EventScript

variable {n : Nat}

/-! ### Layers -/

namespace Character

variable {c : Character}

theorem tagLayers_of_not_hasTag {template : String} (h : ¬ c.hasTag template) :
    c.tagLayers template = 0 := by
  rw [hasTag, Bool.not_eq_true, Option.isSome_eq_false_iff, Option.isNone_iff_eq_none] at h
  rw [tagLayers, h]
  rfl

theorem IsTallied.hasTag_iff_tagLayers (h : c.IsTallied) (template : String) :
    c.hasTag template ↔ 1 ≤ c.tagLayers template := by
  constructor
  · intro hhas
    obtain ⟨t, ht⟩ := Option.isSome_iff_exists.mp hhas
    rw [tagLayers, ht]
    exact h.layered t (List.mem_of_find?_eq_some ht)
  · intro hlayers
    by_contra hhas
    rw [tagLayers_of_not_hasTag hhas] at hlayers
    omega

theorem find?_relayer (template : String) (layers : Int) (tags : List Tag) (other : String) :
    (relayer template layers tags).find? (fun t => t.template = other) =
      (tags.find? fun t => t.template = other).map fun t =>
        if other = template then { t with layers } else t := by
  induction tags with
  | nil => rfl
  | cons t rest ih =>
    rw [relayer]
    by_cases ht : t.template = template
    · rw [if_pos ht]
      by_cases hother : t.template = other
      · rw [List.find?_cons_of_pos (by simpa using hother),
          List.find?_cons_of_pos (by simpa using hother), Option.map_some,
          if_pos (hother.symm.trans ht)]
      · have hne : other ≠ template := fun e => hother (ht.trans e.symm)
        rw [List.find?_cons_of_neg (by simpa using hother),
          List.find?_cons_of_neg (by simpa using hother)]
        simp [hne]
    · rw [if_neg ht]
      by_cases hother : t.template = other
      · have hne : other ≠ template := fun e => ht (hother.trans e)
        rw [List.find?_cons_of_pos (by simpa using hother),
          List.find?_cons_of_pos (by simpa using hother), Option.map_some, if_neg hne]
      · rw [List.find?_cons_of_neg (by simpa using hother),
          List.find?_cons_of_neg (by simpa using hother), ih]

theorem tagLayers_removeTag (c : Character) (template other : String) :
    (c.removeTag template).tagLayers other =
      if other = template then 0 else c.tagLayers other := by
  have hfind : (c.removeTag template).tag? other =
      if other = template then none else c.tag? other := by
    rw [tag?, tag?, removeTag, List.find?_filter]
    split
    · rename_i heq
      rw [heq, List.find?_eq_none]
      simp
    · rename_i hne
      congr 1
      funext t
      by_cases ht : t.template = other
      · simp [ht, hne]
      · simp [ht]
  rw [tagLayers, hfind]
  split <;> rfl

/-- Setting a tag sets one counter, which never falls below zero. -/
theorem tagLayers_setTag (c : Character) (template : String) (layers turn : Int) :
    (c.setTag template layers turn).tagLayers =
      Function.update c.tagLayers template (max 0 layers) := by
  funext other
  rw [Function.update_apply, setTag]
  by_cases hl : layers < 1
  · have hmax : max 0 layers = 0 := by omega
    rw [if_pos hl, hmax, tagLayers_removeTag]
  · have hmax : max 0 layers = layers := by omega
    rw [if_neg hl, hmax]
    by_cases hhas : c.hasTag template
    · rw [if_pos hhas, tagLayers, tag?, find?_relayer]
      split
      · -- the tag is there, so its counter is the new one
        rename_i heq
        obtain ⟨t, ht⟩ := Option.isSome_iff_exists.mp hhas
        rw [tag?] at ht
        rw [heq, ht]
        rfl
      · rename_i hne
        rw [tagLayers, tag?]
        simp
    · rw [if_neg hhas, tagLayers, tag?, List.find?_append]
      rw [hasTag, Bool.not_eq_true, Option.isSome_eq_false_iff, Option.isNone_iff_eq_none,
        tag?] at hhas
      split
      · rename_i heq
        rw [heq, hhas]
        simp
      · rename_i hne
        rw [tagLayers, tag?, List.find?_cons_of_neg (by simpa using Ne.symm hne)]
        simp

/-- The tags of some templates, each with the turn since which it is there. -/
def standing (c : Character) (keep : String → Bool) : List (String × Int) :=
  (c.tags.filter fun t => keep t.template).map fun t => (t.template, t.since)

theorem standing_relayer (keep : String → Bool) (template : String) (layers : Int)
    (tags : List Tag) :
    ((relayer template layers tags).filter fun t => keep t.template).map
        (fun t => (t.template, t.since)) =
      (tags.filter fun t => keep t.template).map fun t => (t.template, t.since) := by
  induction tags with
  | nil => rfl
  | cons t rest ih =>
    rw [relayer]
    split
    · by_cases hkeep : keep t.template <;> simp [hkeep]
    · by_cases hkeep : keep t.template <;> simp [hkeep, ih]

/-- Setting a tag moves no other tag, and not the tag itself either if it is there and stays. -/
theorem standing_setTag {keep : String → Bool} {template : String} {layers : Int}
    (h : keep template → c.hasTag template ∧ 1 ≤ layers) (turn : Int) :
    (c.setTag template layers turn).standing keep = c.standing keep := by
  rw [setTag, standing, standing]
  by_cases hl : layers < 1
  · have hkeep : ¬ keep template := by
      intro hkeep
      have hlayers := (h hkeep).2
      omega
    rw [if_pos hl, removeTag, List.filter_filter]
    congr 1
    refine List.filter_congr fun t _ => ?_
    by_cases ht : t.template = template
    · simp [ht, hkeep]
    · simp [ht]
  · rw [if_neg hl]
    by_cases hhas : c.hasTag template
    · rw [if_pos hhas]
      exact standing_relayer keep template layers c.tags
    · have hkeep : ¬ keep template := fun hkeep => hhas (h hkeep).1
      rw [if_neg hhas]
      simp [hkeep]

/-- A tag that is not there comes last. -/
theorem tags_setTag_of_not_hasTag {template : String} (h : ¬ c.hasTag template) {layers : Int}
    (hl : 1 ≤ layers) (turn : Int) :
    (c.setTag template layers turn).tags = c.tags ++ [⟨template, turn, layers, []⟩] := by
  rw [setTag, if_neg (by omega), if_neg h]

/-- Nothing is there to be taken away. -/
theorem setTag_of_not_hasTag {template : String} (h : ¬ c.hasTag template) {layers : Int}
    (hl : layers < 1) (turn : Int) : c.setTag template layers turn = c := by
  have hall : c.tags.filter (fun t => decide (t.template ≠ template)) = c.tags := by
    rw [List.filter_eq_self]
    intro t ht
    rw [decide_eq_true_eq]
    rintro rfl
    exact h ((c.hasTag_iff _).mpr (List.mem_map_of_mem ht))
  rw [setTag, if_pos hl, removeTag, hall]

theorem setTag_max (c : Character) (template : String) (layers turn : Int) :
    c.setTag template (max 0 layers) turn = c.setTag template layers turn := by
  by_cases hl : layers < 1
  · rw [setTag, setTag, if_pos hl, if_pos (by omega)]
  · have hmax : max 0 layers = layers := by omega
    rw [hmax]

end Character

namespace Progress

variable {p : Progress n} {i : Seat n} {f g : Character → Character}

/-- Of an update only its effect on the one character counts. -/
theorem update_congr (p : Progress n) (h : f (p.world.character i) = g (p.world.character i)) :
    p.update i f = p.update i g := by
  rw [update, update, World.update, World.update, h]

theorem update_of_eq (p : Progress n) (h : f (p.world.character i) = p.world.character i) :
    p.update i f = p := by
  have hcast : p.world.cast.set i.val (p.world.character i) i.isLt = p.world.cast :=
    Vector.set_getElem_self _
  rw [update, World.update, h, hcast]

end Progress

namespace Operation

/-- Granting layers to a tag sets its layers. Where it is skipped, there is nothing to set. -/
theorem applyGrant_eq (actor : Seat n) (tag : String) (count : Int) (p : Progress n) :
    ∃ skipped, applyGrant actor tag count p =
      ⟨p.update actor fun c => c.setTag tag count p.world.turn, skipped⟩ := by
  rw [applyGrant]
  split
  · rename_i hnothing
    obtain ⟨hl, hhas⟩ := hnothing
    have hsame := Character.setTag_of_not_hasTag (by simpa using hhas) hl p.world.turn
    refine ⟨some .notApplicable, ?_⟩
    rw [p.update_of_eq hsame]
    rfl
  · exact ⟨none, rfl⟩

/-- A tag that is not there has no layers to count from. -/
theorem applyAdjustment_eq (actor : Seat n) (tag : String) (amount : Int) (p : Progress n) :
    ∃ skipped, applyAdjustment actor tag amount p =
      ⟨p.update actor fun c => c.setTag tag (c.tagLayers tag + amount) p.world.turn, skipped⟩ := by
  rw [applyAdjustment]
  cases htag : (p.world.character actor).tag? tag with
  | none =>
    have hhas : ¬ (p.world.character actor).hasTag tag := by
      rw [Character.hasTag, htag]
      decide
    have hzero : (p.world.character actor).tagLayers tag + amount = amount := by
      rw [Character.tagLayers_of_not_hasTag hhas, Int.zero_add]
    dsimp only
    split
    · rename_i hl
      refine ⟨some .notApplicable, ?_⟩
      rw [p.update_of_eq (Character.setTag_of_not_hasTag hhas (by omega) p.world.turn)]
      rfl
    · refine ⟨none, congrArg (Attempt.mk · none) (p.update_congr ?_)⟩
      rw [hzero]
  | some t =>
    have hlayers : (p.world.character actor).tagLayers tag = t.layers := by
      rw [Character.tagLayers, htag]
      rfl
    refine ⟨none, congrArg (Attempt.mk · none) (p.update_congr ?_)⟩
    rw [hlayers]

/-- Taking a tag away sets its layers to zero. -/
theorem apply_removeTag_eq (actor : Seat n) (tag : Text) (p : Progress n)
    (loop : Seat n → Progress n → Chance (Progress n)) :
    ∃ skipped, (Operation.removeTag tag).apply actor actor loop p =
      pure ⟨p.update actor fun c => c.setTag (String.ofList tag) 0 p.world.turn, skipped⟩ := by
  rw [apply]
  split
  · exact ⟨none, rfl⟩
  · rename_i hhas
    refine ⟨some .notApplicable, ?_⟩
    rw [p.update_of_eq (Character.setTag_of_not_hasTag hhas (by decide) p.world.turn)]
    rfl

end Operation

/-! ### Orders -/

/-- What a statement asks to be done with the layers of a tag. -/
inductive TagChange where
  /-- To be so many. -/
  | grant (count : Numeral)
  /-- To be so many more, or fewer. -/
  | adjust (delta : Numeral)
  /-- To be gone. -/
  | remove

/-- How many layers there are after the change of a counter. -/
def TagChange.count : TagChange → Int → Int
  | grant v, _ => max 0 v.value
  | adjust v, k => max 0 (k + v.value)
  | remove, _ => 0

/-- The numeral of a change. -/
def TagChange.numeral? : TagChange → Option Numeral
  | grant v => some v
  | adjust v => some v
  | remove => none

/-- A statement about a tag, and the turn in which it is carried out. -/
structure TagOrder where
  tag : Text
  change : TagChange
  turn : Int

namespace TagOrder

/-- The template of the tag. -/
def template (o : TagOrder) : String :=
  String.ofList o.tag

/-- The operation of the statement. -/
def operation (o : TagOrder) : Operation :=
  match o.change with
  | .grant v => .grantTag o.tag v.text
  | .adjust v => .adjustTag o.tag v.text
  | .remove => .removeTag o.tag

/-- The statement: `获得标签 T n`, `标签变更 T d` or `移除标签 T`. -/
def text (o : TagOrder) : Text :=
  o.operation.text true

/-- What the order does to a map of counters. -/
def count (o : TagOrder) (layers : String → Int) : String → Int :=
  Function.update layers o.template (o.change.count (layers o.template))

/-- What the order does to a character. -/
def on (o : TagOrder) (c : Character) : Character :=
  c.setTag o.template (o.change.count (c.tagLayers o.template)) o.turn

/-- The name of the tag can be written: there is something in it, and no white space, bracket,
quotation mark or semicolon; and the numeral is not the name of a variable. -/
structure IsWritable (o : TagOrder) (scope : Scope) : Prop where
  ne_nil : o.tag ≠ []
  parts : ∀ c ∈ o.tag, isBlank c = false ∧ isPlain c ∧ c ≠ ';'
  unnamed : ∀ v ∈ o.change.numeral?, scope.get? (String.ofList v.text) = none

/-- The statement has no guard: what is granted or changed is not the word for one. -/
def IsUnguarded (o : TagOrder) : Prop :=
  o.change.numeral?.isSome → o.tag ≠ "若".toList

section Order

variable (o : TagOrder) {c : Character}

theorem tagLayers_on (c : Character) : (o.on c).tagLayers = o.count c.tagLayers := by
  have hnonneg : max 0 (o.change.count (c.tagLayers o.template)) =
      o.change.count (c.tagLayers o.template) := by
    cases o.change <;> (dsimp only [TagChange.count]; omega)
  rw [on, Character.tagLayers_setTag, hnonneg, count]

theorem isTallied_on (h : c.IsTallied) : (o.on c).IsTallied :=
  h.setTag _ _ _

/-- Tags that are there before and after an order stay where they are. -/
theorem standing_on (h : c.IsTallied) {keep : String → Bool}
    (hbefore : ∀ template, keep template → 1 ≤ c.tagLayers template)
    (hafter : ∀ template, keep template → 1 ≤ o.count c.tagLayers template) :
    (o.on c).standing keep = c.standing keep := by
  refine Character.standing_setTag (fun hkeep => ⟨?_, ?_⟩) o.turn
  · exact (h.hasTag_iff_tagLayers _).mpr (hbefore _ hkeep)
  · have hlayers := hafter _ hkeep
    rwa [count, Function.update_self] at hlayers

/-- A tag that an order brings comes last, dated with its turn. -/
theorem tags_on (h : c.IsTallied) (habsent : c.tagLayers o.template = 0)
    (hpresent : 1 ≤ o.count c.tagLayers o.template) :
    (o.on c).tags = c.tags ++ [⟨o.template, o.turn, o.change.count 0, []⟩] := by
  have hnot : ¬ c.hasTag o.template := by
    rw [h.hasTag_iff_tagLayers, habsent]
    decide
  rw [count, Function.update_self, habsent] at hpresent
  rw [on, habsent]
  exact Character.tags_setTag_of_not_hasTag hnot hpresent o.turn

end Order

/-! ### Orders as statements -/

section Written

variable {o : TagOrder} {scope : Scope}

theorem IsWritable.isSolid (h : o.IsWritable scope) : o.tag.IsSolid := by
  have hsolid : ∀ c ∈ o.tag, isBlank c = false := fun c hc => (h.parts c hc).1
  refine ⟨⟨h.ne_nil, ?_, ?_⟩, hsolid⟩
  · exact Text.trim_eq_self (fun c hc => hsolid c (List.mem_of_mem_head? hc))
      (fun c hc => hsolid c (List.mem_of_mem_getLast? hc))
  · exact Text.isBalanced_of_isPlain fun c hc => (h.parts c hc).2.1

theorem IsWritable.isAdmissible (h : o.IsWritable scope) : o.operation.IsAdmissible := by
  obtain ⟨tag, change, turn⟩ := o
  cases change with
  | grant v => exact ⟨h.isSolid, v.isSpaced⟩
  | adjust v => exact ⟨h.isSolid, v.isSpaced⟩
  | remove => exact h.isSolid

theorem isLoop_operation (o : TagOrder) : o.operation.isLoop = false := by
  obtain ⟨tag, change, turn⟩ := o
  cases change <;> rfl

/-- The words behind the verb: the name of the tag, and the numeral if there is one. -/
def words (o : TagOrder) : List Text :=
  o.tag :: (o.change.numeral?.map Numeral.text).toList

theorem spelling_operation (o : TagOrder) : o.operation.spelling true = .words o.words := by
  obtain ⟨tag, change, turn⟩ := o
  cases change <;> rfl

theorem notMem_verb (o : TagOrder) {d : Char} (hd : d = ' ' ∨ d = ';') : d ∉ o.operation.verb := by
  obtain ⟨tag, change, turn⟩ := o
  rcases hd with rfl | rfl <;> cases change <;> (dsimp only [operation, Operation.verb]; decide)

/-- Neither spaces nor semicolons stand in the words of a statement. -/
theorem IsWritable.noMark (h : o.IsWritable scope) :
    ∀ word ∈ o.operation.verb :: o.words, ' ' ∉ word ∧ ';' ∉ word := by
  refine List.forall_mem_cons.mpr ⟨⟨o.notMem_verb (.inl rfl), o.notMem_verb (.inr rfl)⟩, ?_⟩
  refine List.forall_mem_cons.mpr ⟨⟨?_, fun hc => (h.parts ';' hc).2.2 rfl⟩, fun word hword => ?_⟩
  · exact fun hc => absurd (h.isSolid.solid ' ' hc) (by decide)
  · obtain ⟨v, -, rfl⟩ := Option.map_eq_some_iff.mp (Option.mem_toList.mp hword)
    exact ⟨v.notMem (by decide), v.notMem (by decide)⟩

/-- What stands between two others is the name of the tag, if there is a numeral. -/
theorem IsUnguarded.ne_guard (hfree : o.IsUnguarded) :
    ∀ word ∈ o.words.dropLast, word ≠ ['若'] := by
  intro word hword
  rw [words] at hword
  cases hnumeral : o.change.numeral? with
  | none =>
    rw [hnumeral] at hword
    cases hword
  | some v =>
    rw [hnumeral] at hword
    obtain rfl := List.mem_singleton.mp hword
    exact hfree (by rw [hnumeral]; rfl)

variable (o) in
/-- Whatever the kind of the order, its operation gives the tag the layers of the counter. -/
theorem apply_operation {p : Progress n} (hturn : p.world.turn = o.turn)
    (hscope : ∀ v ∈ o.change.numeral?, p.scope.get? (String.ofList v.text) = none)
    (actor : Seat n) (loop : Seat n → Progress n → Chance (Progress n)) :
    ∃ skipped, o.operation.apply actor actor loop p = pure ⟨p.update actor o.on, skipped⟩ := by
  obtain ⟨tag, change, turn⟩ := o
  dsimp only at hturn
  subst hturn
  cases change with
  | grant v =>
    obtain ⟨skipped, hgrant⟩ := Operation.applyGrant_eq actor (String.ofList tag) v.value p
    have hon : on ⟨tag, .grant v, p.world.turn⟩ =
        fun c => c.setTag (String.ofList tag) v.value p.world.turn :=
      funext fun c => c.setTag_max _ _ _
    refine ⟨skipped, ?_⟩
    rw [hon, ← hgrant, operation, Operation.apply, v.evaluateQuantity_eq (hscope v rfl), pure_bind]
  | adjust v =>
    obtain ⟨skipped, hadjust⟩ := Operation.applyAdjustment_eq actor (String.ofList tag) v.value p
    have hon : on ⟨tag, .adjust v, p.world.turn⟩ = fun c =>
        c.setTag (String.ofList tag) (c.tagLayers (String.ofList tag) + v.value) p.world.turn :=
      funext fun c => c.setTag_max _ _ _
    refine ⟨skipped, ?_⟩
    rw [hon, ← hadjust, operation, Operation.apply, v.evaluateQuantity_eq (hscope v rfl), pure_bind]
  | remove => exact Operation.apply_removeTag_eq actor tag p loop

/-- A command that is an order changes its character as the order does, and nothing else. -/
theorem execute_text (h : o.IsWritable scope) (hfree : o.IsUnguarded) {w : World n}
    (hturn : w.turn = o.turn) (i : Seat n) :
    ∃ skipped, execute w i scope o.text =
      pure ⟨w.update i o.on, scope, none, false,
        [⟨o.text, ⟨none, none, o.operation⟩, skipped⟩]⟩ := by
  obtain ⟨skipped, happly⟩ := o.apply_operation (p := .start w scope) hturn h.unnamed i
    fun i q => Script.run [] i q
  refine ⟨skipped, ?_⟩
  rw [text, execute_words h.isAdmissible o.isLoop_operation o.spelling_operation h.noMark
    hfree.ne_guard, happly]
  rfl

end Written

end TagOrder

/-! ### Sequences of orders -/

/-- Carries out order after order, each of them in its turn. -/
def obey (i : Seat n) : List TagOrder → World n → Scope → Chance (World n)
  | [], w, _ => pure w
  | o :: rest, w, scope => do
    let p ← execute { w with turn := o.turn } i scope o.text
    obey i rest p.world p.scope

/-- The counters after order after order. -/
def countAll (orders : List TagOrder) (layers : String → Int) : String → Int :=
  orders.foldl (fun layers o => o.count layers) layers

/-- A character after order after order. -/
def Character.obeying (orders : List TagOrder) (c : Character) : Character :=
  orders.foldl (fun c o => o.on c) c

section Orders

variable {orders : List TagOrder} {c : Character}

/-- The orders roll no dice, leave the variables alone and concern nobody but the character that
they are for. -/
theorem obey_spec {scope : Scope} (h : ∀ o ∈ orders, o.IsWritable scope ∧ o.IsUnguarded)
    (w : World n) (i : Seat n) :
    ∃ u, obey i orders w scope = pure u ∧
      u.character i = (w.character i).obeying orders ∧ ∀ j ≠ i, u.character j = w.character j := by
  induction orders generalizing w with
  | nil => exact ⟨w, rfl, rfl, fun _ _ => rfl⟩
  | cons o rest ih =>
    obtain ⟨⟨hwritable, hfree⟩, hrest⟩ := List.forall_mem_cons.mp h
    obtain ⟨skipped, hrun⟩ :=
      TagOrder.execute_text hwritable hfree (w := { w with turn := o.turn }) rfl i
    obtain ⟨u, hu, hi, hothers⟩ := ih hrest (({ w with turn := o.turn } : World n).update i o.on)
    refine ⟨u, ?_, ?_, fun j hj => ?_⟩
    · rw [obey, hrun, pure_bind]
      exact hu
    · rw [hi, World.character_update, if_pos rfl]
      rfl
    · rw [hothers j hj, World.character_update, if_neg hj]
      rfl

theorem tagLayers_obeying (orders : List TagOrder) (c : Character) :
    (c.obeying orders).tagLayers = countAll orders c.tagLayers := by
  induction orders generalizing c with
  | nil => rfl
  | cons o rest ih =>
    show ((o.on c).obeying rest).tagLayers = countAll rest (o.count c.tagLayers)
    rw [ih, o.tagLayers_on]

theorem isTallied_obeying (h : c.IsTallied) (orders : List TagOrder) :
    (c.obeying orders).IsTallied := by
  induction orders generalizing c with
  | nil => exact h
  | cons o rest ih => exact ih (o.isTallied_on h)

/-- Tags that are there all the time stay where they are. -/
theorem standing_obeying (h : c.IsTallied) {keep : String → Bool}
    (hkeep : ∀ before, before <+: orders → ∀ template, keep template →
      1 ≤ countAll before c.tagLayers template) :
    (c.obeying orders).standing keep = c.standing keep := by
  induction orders generalizing c with
  | nil => rfl
  | cons o rest ih =>
    have hnow := hkeep [] List.nil_prefix
    have hnext := hkeep [o] (List.prefix_append [o] rest)
    have hlater : ((o.on c).obeying rest).standing keep = (o.on c).standing keep := by
      refine ih (o.isTallied_on h) fun before hbefore => ?_
      rw [o.tagLayers_on]
      exact hkeep (o :: before) (List.cons_prefix_cons.mpr ⟨rfl, hbefore⟩)
    exact hlater.trans (o.standing_on h hnow hnext)

theorem obeying_concat (before : List TagOrder) (o : TagOrder) (c : Character) :
    c.obeying (before ++ [o]) = o.on (c.obeying before) := by
  rw [Character.obeying, List.foldl_append]
  rfl

/-- Tags are counters. For a character whose tags are distinct and have layers, and statements
`获得标签 T n`, `标签变更 T d` and `移除标签 T` for it in any turns: the layers of all tags are those
of a map of counters that a grant sets, an adjustment changes and a removal clears, and that never
falls below zero; the tags stay distinct and have layers; those that are there all the time keep
their order and the turns since which they are there; and a tag that comes, for the first time or
again, comes behind all others with the turn of its statement. The names of tags may be anything
that can be written as a word, but what is granted or adjusted must not be named 若. -/
theorem tag_orders_keep_a_tally {w : World n} {i : Seat n} (h : (w.character i).IsTallied)
    {scope : Scope} {orders : List TagOrder}
    (horders : ∀ o ∈ orders, o.IsWritable scope ∧ o.IsUnguarded) :
    ∃ u : World n, obey i orders w scope = pure u ∧
      (u.character i).tagLayers = countAll orders (w.character i).tagLayers ∧
      (u.character i).IsTallied ∧
      (∀ keep : String → Bool,
        (∀ before, before <+: orders → ∀ template, keep template →
          1 ≤ countAll before (w.character i).tagLayers template) →
        (u.character i).standing keep = (w.character i).standing keep) ∧
      (∀ before o u₀, orders = before ++ [o] → obey i before w scope = pure u₀ →
        (u₀.character i).tagLayers o.template = 0 → 1 ≤ (u.character i).tagLayers o.template →
        (u.character i).tags = (u₀.character i).tags ++
          [⟨o.template, o.turn, (u.character i).tagLayers o.template, []⟩]) ∧
      ∀ j ≠ i, u.character j = w.character j := by
  obtain ⟨u, hrun, hi, hothers⟩ := obey_spec horders w i
  refine ⟨u, hrun, ?_, ?_, fun keep hkeep => ?_, ?_, hothers⟩
  · rw [hi, tagLayers_obeying]
  · rw [hi]
    exact isTallied_obeying h orders
  · rw [hi, standing_obeying h hkeep]
  · rintro before o u₀ rfl hbefore habsent hpresent
    obtain ⟨u₁, hrun₁, hi₁, -⟩ :=
      obey_spec (fun o ho => horders o (List.mem_append_left _ ho)) w i
    obtain rfl : u₁ = u₀ := Chance.pure_inj (hrun₁.symm.trans hbefore)
    have hlast : u.character i = o.on (u₁.character i) := by
      rw [hi, hi₁, obeying_concat]
    have htally : (u₁.character i).IsTallied := hi₁ ▸ isTallied_obeying h before
    have hcount : (o.on (u₁.character i)).tagLayers o.template = o.change.count 0 := by
      rw [o.tagLayers_on, TagOrder.count, Function.update_self, habsent]
    rw [hlast, o.tagLayers_on] at hpresent
    rw [hlast, hcount, o.tags_on htally habsent hpresent]

end Orders

/-- A trainer gets tired, recovers by more than that, and gets tired again later. -/
def tiringOrders : List TagOrder :=
  [⟨"疲惫".toList, .grant ⟨"2".toList, 2, by decide, by decide⟩, 3⟩,
    ⟨"疲惫".toList, .adjust ⟨"-5".toList, -5, by decide, by decide⟩, 4⟩,
    ⟨"若".toList, .remove, 4⟩,
    ⟨"疲惫".toList, .adjust ⟨"+1".toList, 1, by decide, by decide⟩, 6⟩]

theorem tired_again :
    (trainerWorld.character 0).IsTallied ∧
    (∀ o ∈ tiringOrders, o.IsWritable .empty ∧ o.IsUnguarded) ∧
    tiringOrders.map TagOrder.text =
      ["获得标签 疲惫 2".toList, "标签变更 疲惫 -5".toList, "移除标签 若".toList, "标签变更 疲惫 +1".toList] ∧
    ∃ u : World 1, obey 0 tiringOrders trainerWorld .empty = pure u ∧
      (u.character 0).tagLayers "疲惫" = 1 := by
  have htally : (trainerWorld.character 0).IsTallied := ⟨by decide, by decide⟩
  have horders : ∀ o ∈ tiringOrders, o.IsWritable .empty ∧ o.IsUnguarded := by
    have hfree : "疲惫".toList ≠ "若".toList := by decide
    rw [tiringOrders]
    simp only [List.forall_mem_cons, List.not_mem_nil, false_implies, implies_true, and_true]
    refine ⟨⟨⟨by decide, by decide, fun _ _ => rfl⟩, fun _ => hfree⟩,
      ⟨⟨by decide, by decide, fun _ _ => rfl⟩, fun _ => hfree⟩,
      ⟨⟨by decide, by decide, fun _ _ => rfl⟩, ?_⟩,
      ⟨⟨by decide, by decide, fun _ _ => rfl⟩, fun _ => hfree⟩⟩
    rintro ⟨⟩
  obtain ⟨u, hrun, hlayers, -⟩ := tag_orders_keep_a_tally htally horders
  refine ⟨htally, horders, by decide, u, hrun, ?_⟩
  rw [hlayers]
  decide

/-- Three layers of a tag that is named like the word for guards. -/
def guardOrder : TagOrder :=
  ⟨"若".toList, .grant ⟨"3".toList, 3, by decide, by decide⟩, 1⟩

/-- The name of a tag is all that tells `获得标签 若 3` from a grant without arguments under a
guard, and it is read as the latter. The counter would be three, but there is no such tag. -/
theorem tag_named_like_the_guard :
    guardOrder.IsWritable .empty ∧ guardOrder.text = "获得标签 若 3".toList ∧
    (trainerWorld.character 0).IsTallied ∧
    countAll [guardOrder] (trainerWorld.character 0).tagLayers "若" = 3 ∧
    Chance.Ensures (obey 0 [guardOrder] trainerWorld .empty) fun u =>
      (u.character 0).tagLayers "若" = 0 := by
  refine ⟨⟨by decide, by decide, fun _ _ => rfl⟩, by decide, ⟨by decide, by decide⟩, by decide, ?_⟩
  have hone : splitStatements guardOrder.text = [guardOrder.text] := by decide
  have hread : Statement.read guardOrder.text =
      ⟨none, some "3".toList, .malformed "获得标签".toList⟩ := by decide
  have hstep : Step.read guardOrder.text =
      .mk guardOrder.text ⟨none, some "3".toList, .malformed "获得标签".toList⟩ [] := by
    rw [Step.read, hread]
  have hattempt : Chance.Ensures (Step.attempt (Step.read guardOrder.text) 0
      (.start { trainerWorld with turn := 1 } .empty)) fun a =>
        a.progress.world = { trainerWorld with turn := 1 } := by
    rw [hstep]
    -- whatever the guard says, a statement without arguments is skipped
    refine .bind_of_forall fun passes => ?_
    cases passes <;> exact .pure rfl
  have hrun : Chance.Ensures (execute { trainerWorld with turn := 1 } 0 .empty guardOrder.text)
      fun p => p.world = { trainerWorld with turn := 1 } := by
    rw [execute, Script.read_eq, hone, List.map_singleton]
    exact .bind hattempt fun a ha => .pure ha
  refine .bind hrun fun p hp => ?_
  rw [hp]
  exact .pure rfl

end EventScript
