/-
What the members of a list feel for each other.

A change of what a whole list feels goes through the list with two loops, one inside the other,
and changes the feelings of both sides each time.  All of it is one pass over the ordered pairs of
different members:

* `orderedPairs` — these pairs, each of them once (`nodup_orderedPairs`);
* `World.Felt` — what is known after some pairs have had their change, and that nothing else has
  changed (`World.felt_feelAll`);
* `group_changes_touch_each_pair_once` — the statement for commands, with the amounts as exact
  fractions that are rounded down.
-/
import EventScript.Proofs.Members
import Mathlib.Data.List.Nodup
import Mathlib.Data.Rat.Floor
import Mathlib.Tactic.Ring

namespace EventScript

variable {n : Nat}

/-! ### Amounts -/

/-- How much a change by a whole number is worth toward a character: a loss is worth itself, and
a gain grows with the charm of that character. Where romance meets a wedding ring, a fifth of it
is left. -/
def worth (amount : Int) (other : Character) (kind : RelationKind) (ringTag : String) : Int :=
  if amount ≤ 0 then amount
  else
    ⌊(amount : ℚ) * max 0 (other.general.getD "魅力" 0) / 10 *
      (if kind = .romance ∧ other.hasTag ringTag then 1 / 5 else 1)⌋

/-- The integer division of the game loses nothing against exact fractions. -/
theorem charmed_eq_worth (amount : Int) (other : Character) (kind : RelationKind)
    (ringTag : String) :
    charmed amount other kind.name ringTag = worth amount other kind ringTag := by
  have hname : (kind.name = RelationKind.romance.name) = (kind = .romance) := by
    cases kind <;> decide
  rw [charmed, worth]
  simp only [hname]
  generalize max 0 (other.general.getD "魅力" 0) = charm
  by_cases hloss : amount ≤ 0
  · rw [if_pos hloss, if_pos hloss]
  · rw [if_neg hloss, if_neg hloss]
    by_cases hring : kind = .romance ∧ other.hasTag ringTag
    · have hfifth : (amount : ℚ) * charm / 10 * (1 / 5) =
          ((amount * charm * 2 : Int) : ℚ) / ((100 : Nat) : ℚ) := by
        push_cast
        ring
      rw [if_pos hring, if_pos hring, hfifth, Rat.floor_intCast_div_natCast]
      rfl
    · have htenth : (amount : ℚ) * charm / 10 * 1 =
          ((amount * charm : Int) : ℚ) / ((10 : Nat) : ℚ) := by
        push_cast
        ring
      rw [if_neg hring, if_neg hring, htenth, Rat.floor_intCast_div_natCast]
      rfl

/-! ### Ordered pairs -/

/-- The ordered pairs of different members of a list, in the order in which a change of the whole
list comes to them: the first member with each of the others, both ways, and then the others. -/
def orderedPairs : List (Seat n) → List (Seat n × Seat n)
  | [] => []
  | first :: rest =>
    (rest.flatMap fun second => [(first, second), (second, first)]) ++ orderedPairs rest

section Pairs

variable {first i j : Seat n} {members rest : List (Seat n)}

theorem mem_pairsWith :
    (i, j) ∈ (rest.flatMap fun second => [(first, second), (second, first)]) ↔
      i = first ∧ j ∈ rest ∨ i ∈ rest ∧ j = first := by
  simp only [List.mem_flatMap, List.mem_cons, Prod.mk.injEq, List.not_mem_nil, or_false]
  constructor
  · rintro ⟨second, hsecond, ⟨rfl, rfl⟩ | ⟨rfl, rfl⟩⟩
    · exact .inl ⟨rfl, hsecond⟩
    · exact .inr ⟨hsecond, rfl⟩
  · rintro (⟨rfl, hj⟩ | ⟨hi, rfl⟩)
    · exact ⟨j, hj, .inl ⟨rfl, rfl⟩⟩
    · exact ⟨i, hi, .inr ⟨rfl, rfl⟩⟩

theorem mem_orderedPairs (h : members.Nodup) :
    (i, j) ∈ orderedPairs members ↔ i ∈ members ∧ j ∈ members ∧ i ≠ j := by
  induction members with
  | nil => simp [orderedPairs]
  | cons first rest ih =>
    obtain ⟨hfirst, hrest⟩ := List.nodup_cons.mp h
    rw [orderedPairs, List.mem_append, mem_pairsWith, ih hrest, List.mem_cons, List.mem_cons]
    constructor
    · rintro ((⟨rfl, hj⟩ | ⟨hi, rfl⟩) | ⟨hi, hj, hne⟩)
      · exact ⟨.inl rfl, .inr hj, fun e => hfirst (e ▸ hj)⟩
      · exact ⟨.inr hi, .inl rfl, fun e => hfirst (e ▸ hi)⟩
      · exact ⟨.inr hi, .inr hj, hne⟩
    · rintro ⟨rfl | hi, rfl | hj, hne⟩
      · exact absurd rfl hne
      · exact .inl (.inl ⟨rfl, hj⟩)
      · exact .inl (.inr ⟨hi, rfl⟩)
      · exact .inr ⟨hi, hj, hne⟩

/-- Each ordered pair comes up once. -/
theorem nodup_orderedPairs (h : members.Nodup) : (orderedPairs members).Nodup := by
  induction members with
  | nil => exact List.nodup_nil
  | cons first rest ih =>
    obtain ⟨hfirst, hrest⟩ := List.nodup_cons.mp h
    rw [orderedPairs, List.nodup_append']
    refine ⟨List.nodup_flatMap.mpr ⟨?_, ?_⟩, ih hrest, ?_⟩
    · intro second hsecond
      have hne : first ≠ second := fun e => hfirst (e ▸ hsecond)
      simp [hne]
    · refine hrest.imp_of_mem fun {a b} ha hb hab => ?_
      have hfa : first ≠ a := fun e => hfirst (e ▸ ha)
      have hfb : b ≠ first := fun e => hfirst (e ▸ hb)
      simp [Function.onFun, hab.symm, hfa, hfb]
    · rintro ⟨i, j⟩ hwith hpair
      obtain ⟨hi, hj, -⟩ := (mem_orderedPairs hrest).mp hpair
      rcases mem_pairsWith.mp hwith with ⟨rfl, -⟩ | ⟨-, rfl⟩
      · exact hfirst hi
      · exact hfirst hj

end Pairs

/-! ### What is felt -/

namespace World

/-- Changes what one character feels for another. -/
def feel (w : World n) (holder object : Seat n) (kind : RelationKind) (amount : Int) : World n :=
  w.update holder fun c => c.adjustRelation (w.character object).id kind
    (charmed amount (w.character object) kind.name w.settings.ringTag)

/-- Changes the feelings of pair after pair. -/
def feelAll (w : World n) (kind : RelationKind) (amount : Int) (pairs : List (Seat n × Seat n)) :
    World n :=
  pairs.foldl (fun w pair => w.feel pair.1 pair.2 kind amount) w

/-- In the second world some pairs have had the same change of their feelings since the first
one, each of them once, and nothing else is different. -/
structure Felt (kind : RelationKind) (amount : Int) (pairs : List (Seat n × Seat n))
    (w w' : World n) : Prop where
  turn_eq : w'.turn = w.turn
  settings_eq : w'.settings = w.settings
  frame : ∀ i, w'.character i = { w.character i with relations := (w'.character i).relations }
  felt : ∀ i j, (i, j) ∈ pairs →
    (w'.character i).relations.get? (w.character j).id =
      some (((w.character i).relation (w.character j).id).adjust kind
        (charmed amount (w.character j) kind.name w.settings.ringTag))
  unfelt : ∀ i id, (∀ j, (i, j) ∈ pairs → (w.character j).id ≠ id) →
    (w'.character i).relations.get? id = (w.character i).relations.get? id
  idle : ∀ i, (∀ j, (i, j) ∉ pairs) → w'.character i = w.character i

variable {w : World n} {kind : RelationKind} {amount : Int}

theorem feelAll_append (w : World n) (kind : RelationKind) (amount : Int)
    (first rest : List (Seat n × Seat n)) :
    w.feelAll kind amount (first ++ rest) =
      (w.feelAll kind amount first).feelAll kind amount rest :=
  List.foldl_append

theorem character_feel (w : World n) (holder object i : Seat n) (kind : RelationKind)
    (amount : Int) :
    (w.feel holder object kind amount).character i =
      if i = holder then (w.character holder).adjustRelation (w.character object).id kind
        (charmed amount (w.character object) kind.name w.settings.ringTag)
      else w.character i :=
  w.character_update holder i _

theorem frame_feel (w : World n) (holder object i : Seat n) (kind : RelationKind) (amount : Int) :
    (w.feel holder object kind amount).character i = { w.character i with
      relations := ((w.feel holder object kind amount).character i).relations } := by
  rw [character_feel]
  split
  · rename_i hi
    rw [hi]
    rfl
  · rfl

theorem id_feel (w : World n) (holder object i : Seat n) (kind : RelationKind) (amount : Int) :
    ((w.feel holder object kind amount).character i).id = (w.character i).id := by
  rw [frame_feel]

/-- What is felt for anybody else stays. -/
theorem get?_feel_of_ne {holder object i : Seat n} {id : String}
    (h : i = holder → (w.character object).id ≠ id) :
    ((w.feel holder object kind amount).character i).relations.get? id =
      (w.character i).relations.get? id := by
  rw [character_feel]
  split
  · rename_i hi
    rw [hi]
    exact Mapping.get?_put_of_ne _ (h hi) _
  · rfl

theorem get?_feel_self (w : World n) (holder object : Seat n) (kind : RelationKind)
    (amount : Int) :
    ((w.feel holder object kind amount).character holder).relations.get?
        (w.character object).id =
      some (((w.character holder).relation (w.character object).id).adjust kind
        (charmed amount (w.character object) kind.name w.settings.ringTag)) := by
  rw [character_feel, if_pos rfl]
  exact Mapping.get?_put_self _ _ _

theorem IsIdentified.feel (h : w.IsIdentified) (holder object : Seat n) :
    (w.feel holder object kind amount).IsIdentified := by
  refine ⟨fun i => ?_, fun i j hij => ?_⟩
  · rw [id_feel]
    exact h.ne_empty i
  · rw [id_feel, id_feel] at hij
    exact h.injective i j hij

/-- The induction is on the pairs. That the first pair does not come up again keeps its change
from being made twice, and that ids tell the characters apart keeps the changes of other pairs
away from it. -/
theorem felt_feelAll (h : w.IsIdentified) {pairs : List (Seat n × Seat n)} (hnodup : pairs.Nodup) :
    Felt kind amount pairs w (w.feelAll kind amount pairs) := by
  induction pairs generalizing w with
  | nil =>
    refine ⟨rfl, rfl, fun _ => rfl, fun i j hij => ?_, fun _ _ _ => rfl, fun _ _ => rfl⟩
    cases hij
  | cons pair rest ih =>
    obtain ⟨holder, object⟩ := pair
    obtain ⟨hnot, hrest⟩ := List.nodup_cons.mp hnodup
    set w₁ := w.feel holder object kind amount with hw₁
    have hlater : Felt kind amount rest w₁ (w₁.feelAll kind amount rest) :=
      ih (h.feel holder object) hrest
    have hid : ∀ j, (w₁.character j).id = (w.character j).id := fun j => by rw [hw₁, id_feel]
    have hother : ∀ j, (holder, j) ∈ rest → (w.character j).id ≠ (w.character object).id := by
      intro j hj heq
      exact hnot (h.injective _ _ heq ▸ hj)
    show Felt kind amount ((holder, object) :: rest) w (w₁.feelAll kind amount rest)
    refine ⟨hlater.turn_eq, hlater.settings_eq, fun i => ?_, fun i j hij => ?_, fun i id hi => ?_,
      fun i hi => ?_⟩
    · rw [hlater.frame i, hw₁, frame_feel]
    · rcases List.mem_cons.mp hij with heq | hin
      · obtain ⟨rfl, rfl⟩ := Prod.mk.inj heq
        rw [hlater.unfelt i _ fun k hk => by rw [hid]; exact hother k hk, hw₁, get?_feel_self]
      · have hfelt := hlater.felt i j hin
        have hsame : (w₁.character i).relation (w.character j).id =
            (w.character i).relation (w.character j).id := by
          have hkeep : (w₁.character i).relations.get? (w.character j).id =
              (w.character i).relations.get? (w.character j).id :=
            get?_feel_of_ne fun hi => (hother j (hi ▸ hin)).symm
          rw [Character.relation, Character.relation, Mapping.getD, Mapping.getD, hkeep]
        have hcharm : charmed amount (w₁.character j) kind.name w₁.settings.ringTag =
            charmed amount (w.character j) kind.name w.settings.ringTag := by
          rw [hw₁, frame_feel]
          rfl
        rw [hid, hsame, hcharm] at hfelt
        exact hfelt
    · rw [hlater.unfelt i id fun j hj => by rw [hid]; exact hi j (List.mem_cons_of_mem _ hj), hw₁,
        get?_feel_of_ne fun e => hi object (by rw [e]; exact List.mem_cons_self)]
    · have hne : i ≠ holder := by
        rintro rfl
        exact hi object List.mem_cons_self
      rw [hlater.idle i fun j hj => hi j (List.mem_cons_of_mem _ hj), hw₁, character_feel,
        if_neg hne]

end World

/-! ### The change as an operation -/

namespace Operation

variable {kind : RelationKind} {v : Numeral}

theorem progress_applyMutual (first second : Seat n) (kind : RelationKind) (amount : Int)
    (p : Progress n) :
    (applyMutual first second kind.name.toList amount p).progress =
      { p with world := p.world.feelAll kind amount [(first, second), (second, first)] } := by
  have hkind : kindOf? kind.name.toList = some kind := by cases kind <;> decide
  rw [applyMutual, applyRelation, hkind]
  dsimp only [Attempt.done]
  rw [applyRelation, hkind]
  rfl

theorem feelForEach_numeral (subject first : Seat n) {p : Progress n}
    (hv : p.scope.get? (String.ofList v.text) = none) (rest : List (Seat n)) :
    feelForEach subject first kind.name.toList v.text rest p =
      pure { p with
        world := p.world.feelAll kind v.value
          (rest.flatMap fun second => [(first, second), (second, first)]) } := by
  induction rest generalizing p with
  | nil => rfl
  | cons second rest ih =>
    rw [feelForEach, v.evaluateQuantity_eq hv, pure_bind, progress_applyMutual]
    exact ih hv

/-- With a numeral for the amount, the two loops are one pass over the ordered pairs. -/
theorem feelInGroup_numeral (subject : Seat n) {p : Progress n}
    (hv : p.scope.get? (String.ofList v.text) = none) (members : List (Seat n)) :
    feelInGroup subject kind.name.toList v.text members p =
      pure { p with world := p.world.feelAll kind v.value (orderedPairs members) } := by
  induction members generalizing p with
  | nil => rfl
  | cons first rest ih =>
    rw [feelInGroup, feelForEach_numeral subject first hv, pure_bind, orderedPairs,
      World.feelAll_append]
    exact ih hv

/-- A change of what the members of a list feel is carried out for all ordered pairs. -/
theorem apply_changeGroupRelation {p : Progress n} (h : p.world.IsIdentified) {list : Text}
    {members : List (Seat n)} (hlist : p.world.Lists (p.get list) members)
    (hv : p.scope.get? (String.ofList v.text) = none) (subject actor : Seat n)
    (loop : Seat n → Progress n → Chance (Progress n)) :
    (Operation.changeGroupRelation kind.name.toList list v.text).apply subject actor loop p =
      pure (.done { p with
        world := p.world.feelAll kind v.value (orderedPairs members) }) := by
  have hkind : kindOf? kind.name.toList = some kind := by cases kind <;> decide
  have hfound : p.references? list = some (members.map p.world.reference) :=
    hlist.references?_eq h
  have hseats : ((members.map p.world.reference).filterMap fun r => p.world.find? r.id) =
      members := by
    rw [List.filterMap_map]
    refine (List.filterMap_congr fun i _ => h.find?_id i).trans ?_
    exact List.filterMap_some
  simp only [apply, hfound, hkind, hseats]
  rw [feelInGroup_numeral subject hv, map_pure]

end Operation

/-! ### Commands -/

/-- A group change touches each ordered pair once. In a cast where ids tell the characters apart,
for a list of different characters and an amount that is a numeral and no name of a variable,
`双向关系变更(kind, 变量.L, v)` adds to what each member feels for each other one exactly what the
amount is worth toward that other one, within the bounds of scores. Nobody's feelings for anybody
else change, nor does anything but feelings, nor anybody outside of the list. The name of the list
may be anything that can be written as an argument; with a slash in it, though, two characters
would be meant. -/
theorem group_changes_touch_each_pair_once {w : World n} (h : w.IsIdentified) {scope : Scope}
    {list : Text} {members : List (Seat n)}
    (hlist : w.Lists (.ofVariable scope (String.ofList list)) members) (hnodup : members.Nodup)
    (kind : RelationKind) {v : Numeral} (hv : scope.get? (String.ofList v.text) = none)
    (subject : Seat n) :
    ∃ w' : World n,
      (∀ actor loop,
        (Operation.changeGroupRelation kind.name.toList list v.text).apply subject actor loop
            (.start w scope) =
          pure (.done (.start w' scope))) ∧
      (∀ marked, list.IsListKey → '/' ∉ list →
        execute w subject scope
            ((Operation.changeGroupRelation kind.name.toList list v.text).text marked) =
          pure ⟨w', scope, none, false,
            [⟨(Operation.changeGroupRelation kind.name.toList list v.text).text marked,
              ⟨none, none, .changeGroupRelation kind.name.toList list v.text⟩, none⟩]⟩) ∧
      (∀ i ∈ members, ∀ j ∈ members, i ≠ j → ∀ k,
        ((w'.character i).relation (w.character j).id).score k =
          if k = kind then
            clamp (((w.character i).relation (w.character j).id).score k +
              worth v.value (w.character j) kind w.settings.ringTag)
          else ((w.character i).relation (w.character j).id).score k) ∧
      (∀ i id, (i ∈ members → ∀ j ∈ members, i ≠ j → (w.character j).id ≠ id) →
        (w'.character i).relations.get? id = (w.character i).relations.get? id) ∧
      (∀ i, w'.character i = { w.character i with relations := (w'.character i).relations }) ∧
      (∀ i ∉ members, w'.character i = w.character i) ∧
      w'.turn = w.turn ∧ w'.settings = w.settings := by
  have hfelt : World.Felt kind v.value (orderedPairs members) w
      (w.feelAll kind v.value (orderedPairs members)) :=
    World.felt_feelAll h (nodup_orderedPairs hnodup)
  have happly : ∀ actor loop,
      (Operation.changeGroupRelation kind.name.toList list v.text).apply subject actor loop
          (.start w scope) =
        pure (.done (.start (w.feelAll kind v.value (orderedPairs members)) scope)) :=
    Operation.apply_changeGroupRelation (p := .start w scope) h hlist hv subject
  refine ⟨w.feelAll kind v.value (orderedPairs members), happly, fun marked hkey hslash => ?_,
    fun i hi j hj hij k => ?_, fun i id hid => hfelt.unfelt i id fun j hj => ?_, hfelt.frame,
    fun i hi => hfelt.idle i ?_, hfelt.turn_eq, hfelt.settings_eq⟩
  · have hkind : Text.IsArgument kind.name.toList := by cases kind <;> decide
    have hadmissible :
        (Operation.changeGroupRelation kind.name.toList list v.text).IsAdmissible :=
      ⟨hkind, ⟨hkey, hslash⟩, v.isArgument⟩
    have htop : ∀ {x : Char}, x ∉ "双向关系变更".toList → x ≠ '(' → x ≠ ')' → ∀ more : Text,
        topOccurrences (x :: more)
          ((Operation.changeGroupRelation kind.name.toList list v.text).text marked) = [] :=
      fun hverb hopen hclose more =>
        Operation.topOccurrences_text_call hadmissible rfl hverb hopen hclose more
    rw [execute_text hadmissible rfl (htop (by decide) (by decide) (by decide) _)
      (htop (by decide) (by decide) (by decide) _), happly]
    rfl
  · have hpair := (mem_orderedPairs hnodup).mpr ⟨hi, hj, hij⟩
    rw [Character.relation, Mapping.getD, hfelt.felt i j hpair, Option.getD_some,
      charmed_eq_worth]
    cases kind <;> cases k <;> rfl
  · obtain ⟨hi, hj, hne⟩ := (mem_orderedPairs hnodup).mp hj
    exact hid hi j hj hne
  · intro j hj
    exact hi ((mem_orderedPairs hnodup).mp hj).1

/-- Thirty, written out. -/
def thirty : Numeral :=
  ⟨"30".toList, 30, by decide, by decide⟩

/-- A list of the companion and the trainer. -/
def pairScope : Scope :=
  ⟨[("二人", .list ([⟨"c1", "特别周"⟩, ⟨"p1", "甲"⟩].map Value.reference))]⟩

/-- The companion and the trainer, who both have a charm of twenty, become friends by sixty
points. -/
theorem pair_befriended :
    pairWorld.IsIdentified ∧ pairWorld.Lists (.ofVariable pairScope "二人") [1, 0] ∧
    (Operation.changeGroupRelation "友情".toList "二人".toList thirty.text).text true =
      "双向关系变更(友情, 变量.二人, 30)".toList ∧
    ∃ w' : World 2,
      execute pairWorld 0 pairScope
          ((Operation.changeGroupRelation "友情".toList "二人".toList thirty.text).text true) =
        pure ⟨w', pairScope, none, false,
          [⟨(Operation.changeGroupRelation "友情".toList "二人".toList thirty.text).text true,
            ⟨none, none, .changeGroupRelation "友情".toList "二人".toList thirty.text⟩, none⟩]⟩ ∧
      ((w'.character 1).relation "p1").friendship = 60 := by
  have hkey : Text.IsListKey "二人".toList := ⟨by decide, by decide⟩
  have hlist : pairWorld.Lists (.ofVariable pairScope "二人") [1, 0] :=
    ⟨[⟨"c1", "特别周"⟩, ⟨"p1", "甲"⟩], rfl, rfl⟩
  have hnumeral : pairScope.get? (String.ofList thirty.text) = none := by decide
  have hworth : worth thirty.value (pairWorld.character 0) .friendship
      pairWorld.settings.ringTag = 60 := by
    rw [← charmed_eq_worth]
    rfl
  obtain ⟨w', -, hrun, hpairs, -⟩ := group_changes_touch_each_pair_once isIdentified_pairWorld
    hlist (by decide) .friendship hnumeral 0
  have hpair := hpairs 1 (by decide) 0 (by decide) (by decide) .friendship
  rw [if_pos rfl, hworth] at hpair
  exact ⟨isIdentified_pairWorld, hlist, by decide, w', hrun true hkey (by decide), hpair.trans rfl⟩

end EventScript
