/-
Lists of characters, and loops over them.

A loop carries its command out for the members that the list has at the start, whatever the
command does to the list meanwhile:

* `World.Lists` — a value is a list of references to given characters;
* `executeEach` — a command carried out for one character after another;
* `Operation.apply_forEach` — a loop does just that, and jumps inside of it are not followed;
* `loops_fold_over_their_list` — the law for operations and for statements, at any depth.
-/
import EventScript.Proofs.Evolution
import EventScript.Proofs.Wording

namespace EventScript

open Chance

variable {n : Nat}

/-! ### Who is meant -/

namespace World

/-- Every member of the cast has an id, and no two have the same one. -/
structure IsIdentified (w : World n) : Prop where
  ne_empty : ∀ i, (w.character i).id ≠ ""
  injective : ∀ i j, (w.character i).id = (w.character j).id → i = j

/-- The value is a list of references to the characters in some seats. A character may be
referred to more than once. -/
def Lists (w : World n) (v : Value) (members : List (Seat n)) : Prop :=
  ∃ rs : List Reference, v = .list (rs.map .reference) ∧
    rs.map Reference.id = members.map fun i => (w.character i).id

variable {w w' : World n} {members : List (Seat n)}

/-- An id leads to the character that has it. -/
theorem IsIdentified.find?_id (h : w.IsIdentified) (i : Seat n) :
    w.find? (w.character i).id = some i := by
  have hne : (w.character i).id.isEmpty = false := by
    rw [← Bool.not_eq_true, String.isEmpty_iff]
    exact h.ne_empty i
  have hfound : (w.seek? fun c => c.id == (w.character i).id).isSome :=
    List.find?_isSome.mpr ⟨i, List.mem_finRange i, beq_self_eq_true _⟩
  obtain ⟨j, hj⟩ := Option.isSome_iff_exists.mp hfound
  -- whoever is found has the id, and nobody else has it
  have hid : (w.character j).id = (w.character i).id := eq_of_beq (List.find?_some hj :)
  rw [find?, hne, if_neg Bool.false_ne_true, hj, h.injective _ _ hid]

theorem Becomes.id_eq (h : w.Becomes w') (i : Seat n) :
    (w'.character i).id = (w.character i).id :=
  congrArg Prod.fst (h.identity_eq i)

/-- Scripts do not mix the characters up. -/
theorem IsIdentified.becomes (h : w.IsIdentified) (hw : w.Becomes w') : w'.IsIdentified := by
  refine ⟨fun i => ?_, fun i j hij => ?_⟩
  · rw [hw.id_eq]
    exact h.ne_empty i
  · rw [hw.id_eq, hw.id_eq] at hij
    exact h.injective i j hij

/-- The members of a list are found, each as often as the list has it. -/
theorem Lists.references?_eq (h : w.IsIdentified) {v : Value} (hlist : w.Lists v members) :
    w.references? v = some (members.map w.reference) := by
  obtain ⟨rs, rfl, hids⟩ := hlist
  rw [references?]
  congr 1
  induction rs generalizing members with
  | nil =>
    cases members with
    | nil => rfl
    | cons i rest => cases hids
  | cons r more ih =>
    cases members with
    | nil => cases hids
    | cons i rest =>
      obtain ⟨hid, hrest⟩ := List.cons.inj hids
      have hfound : w.ofValue? (.reference r) = some i := by
        rw [ofValue?, hid]
        exact h.find?_id i
      rw [List.map_cons, List.filterMap_cons, hfound, Option.map_some, ih hrest, List.map_cons]

end World

/-! ### Loops -/

/-- Carries a command out for one character after another. Each of them finds the cast, the
variables and the dice that those before it have left; what becomes of their statements is put
together, and none of their jumps is followed. -/
def executeEach (command : Text) : List (Seat n) → World n → Scope → Chance (Progress n)
  | [], w, scope => pure (.start w scope)
  | i :: rest, w, scope => do
    let p ← execute w i scope command
    let q ← executeEach command rest p.world p.scope
    pure { q with outcomes := p.outcomes ++ q.outcomes }

/-- A script that goes on from a progress is a command that begins afresh there. -/
theorem Script.run_eq_execute (command : Text) (i : Seat n) (p : Progress n) :
    Script.run (Script.read command) i p =
      p.followedBy <$> execute p.world i p.scope command := by
  conv_lhs => rw [← p.followedBy_start]
  rw [Script.run_followedBy, execute]

theorem Progress.withoutJump_followedBy_followedBy (outer p q q' : Progress n) :
    outer.withoutJump ((p.followedBy q).followedBy q') =
      outer.withoutJump (p.followedBy { q' with outcomes := q.outcomes ++ q'.outcomes }) := by
  have houtcomes := List.append_assoc p.outcomes q.outcomes q'.outcomes
  rw [followedBy, followedBy, followedBy, houtcomes]
  rfl

namespace Operation

variable {members : List (Seat n)}

/-- The induction is on the members. What every command keeps are the ids, by which the
members still to come are found. -/
theorem applyForEach_eq_executeEach (command : Text) {rs : List Reference} (outer : Progress n)
    {p : Progress n} (h : p.world.IsIdentified)
    (hids : rs.map Reference.id = members.map fun i => (p.world.character i).id) :
    outer.withoutJump <$>
        applyForEach (fun i q => Script.run (Script.read command) i q) rs p =
      (fun q => outer.withoutJump (p.followedBy q)) <$>
        executeEach command members p.world p.scope := by
  induction members generalizing rs p with
  | nil =>
    cases rs with
    | nil => rw [applyForEach, executeEach, map_pure, map_pure, p.followedBy_start]
    | cons r more => cases hids
  | cons i rest ih =>
    cases rs with
    | nil => cases hids
    | cons r more =>
      obtain ⟨hid, hrest⟩ := List.cons.inj hids
      have hfirst : applyFor (fun i q => Script.run (Script.read command) i q) r p =
          p.followedBy <$> execute p.world i p.scope command := by
        rw [applyFor, hid, h.find?_id i]
        exact Script.run_eq_execute command i p
      rw [applyForEach, executeEach, hfirst, bind_map_left, map_bind, map_bind]
      refine Ensures.bind_congr (execute_becomes p.world i p.scope command).2 fun q hq => ?_
      have hmore : more.map Reference.id =
          rest.map fun i => ((p.followedBy q).world.character i).id := by
        rw [hrest]
        exact List.map_congr_left fun j _ => (hq.id_eq j).symm
      rw [ih (p := p.followedBy q) (h.becomes hq) hmore, map_bind, map_eq_pure_bind]
      refine bind_congr fun q' => ?_
      rw [map_pure, Progress.withoutJump_followedBy_followedBy]

/-- A loop over a list carries its command out for one member after another. What is recorded
in it is put behind the record so far, and the event to follow stays. -/
theorem apply_forEach {p : Progress n} (h : p.world.IsIdentified) {list : Text}
    (hlist : p.world.Lists (p.get list) members) (subject actor : Seat n) (command : Text) :
    (Operation.forEach list command).apply subject actor
        (fun i q => Script.run (Script.read command) i q) p = (do
      let q ← executeEach command members p.world p.scope
      pure (.done ⟨q.world, q.scope, p.next, p.pause, p.outcomes ++ q.outcomes⟩)) := by
  have hids : (members.map p.world.reference).map Reference.id =
      members.map fun i => (p.world.character i).id := List.map_map
  have hloop := applyForEach_eq_executeEach command p h hids
  have hfound : p.references? list = some (members.map p.world.reference) :=
    hlist.references?_eq h
  simp only [apply, hfound]
  rw [← bind_map_left p.withoutJump _ fun q => pure (Attempt.done q), hloop, bind_map_left]
  rfl

end Operation

/-- A loop that is a statement does so too, and reports itself behind what it has carried out. -/
theorem Script.run_forEach {p : Progress n} (h : p.world.IsIdentified) {list : Text}
    {members : List (Seat n)} (hlist : p.world.Lists (p.get list) members) (subject : Seat n)
    {raw command : Text} (hread : Statement.read raw = ⟨none, none, .forEach list command⟩) :
    Script.run [Step.read raw] subject p = (do
      let q ← executeEach command members p.world p.scope
      pure ⟨q.world, q.scope, p.next, p.pause,
        p.outcomes ++ q.outcomes ++ [⟨raw, ⟨none, none, .forEach list command⟩, none⟩]⟩) := by
  have hstep : Step.read raw =
      .mk raw ⟨none, none, .forEach list command⟩ (Script.read command) := by
    rw [Step.read, hread]
  have hattempt : Step.attempt (Step.read raw) subject p =
      (Operation.forEach list command).apply subject subject
        (fun i q => Script.run (Script.read command) i q) p := by
    rw [hstep, Step.attempt]
    rfl
  rw [Script.run, hattempt, Operation.apply_forEach h hlist, bind_assoc]
  refine bind_congr fun q => ?_
  rw [pure_bind, hstep, Script.run]
  rfl

/-- In a list call nothing is cut off and no guard is found. -/
theorem Statement.read_forEach {list command : Text} (hlist : list.IsListKey)
    (hcommand : command.IsArgument) (marked : Bool) :
    Statement.read ((Operation.forEach list command).text marked) =
      ⟨none, none, .forEach list command⟩ := by
  have hadmissible : (Operation.forEach list command).IsAdmissible := ⟨hlist, hcommand⟩
  have hverb : ' ' ∉ (Operation.forEach list command).verb := by
    show ' ' ∉ "列表执行".toList
    decide
  exact Operation.read_text hadmissible
    (Operation.topOccurrences_text_call hadmissible rfl hverb (by decide) (by decide) _)

/-- A loop is a fold over its list as the list stood at the start. In a cast where ids tell the
characters apart, carrying out `列表执行(L, c)` is carrying `c` out for the first member, then for
the second one and so on, each time with the cast, the variables and the dice that are left,
whatever `c` does to the list. The record is that of all these commands and then of the loop
itself, and the event that was to follow stays. A command keeps the characters apart, so what is
said here goes for loops inside of loops as well. -/
theorem loops_fold_over_their_list {p : Progress n} (h : p.world.IsIdentified) {list : Text}
    {members : List (Seat n)} (hlist : p.world.Lists (p.get list) members) (subject : Seat n)
    (command : Text) :
    (∀ actor,
      (Operation.forEach list command).apply subject actor
          (fun i q => Script.run (Script.read command) i q) p = (do
        let q ← executeEach command members p.world p.scope
        pure (.done ⟨q.world, q.scope, p.next, p.pause, p.outcomes ++ q.outcomes⟩))) ∧
    (∀ raw, Statement.read raw = ⟨none, none, .forEach list command⟩ →
      Script.run [Step.read raw] subject p = (do
        let q ← executeEach command members p.world p.scope
        pure ⟨q.world, q.scope, p.next, p.pause,
          p.outcomes ++ q.outcomes ++ [⟨raw, ⟨none, none, .forEach list command⟩, none⟩]⟩)) ∧
    (∀ marked, list.IsListKey → command.IsArgument →
      Statement.read ((Operation.forEach list command).text marked) =
        ⟨none, none, .forEach list command⟩) ∧
    Ensures (execute p.world subject p.scope command) fun q => q.world.IsIdentified :=
  ⟨fun actor => Operation.apply_forEach h hlist subject actor command,
    fun _ hread => Script.run_forEach h hlist subject hread,
    fun marked hkey hcommand => Statement.read_forEach hkey hcommand marked,
    .mono (execute_becomes p.world subject p.scope command).2 fun _ hq => h.becomes hq⟩

/-- A trainer and a companion. -/
def pairWorld : World 2 :=
  ⟨#v[.plain "p1" "训练员" "甲", .plain "c1" "特别周" "特别周"], 1, Settings.standard⟩

/-- A list that refers to the companion twice. -/
def companyScope : Scope :=
  ⟨[("伙伴", .list ([⟨"c1", "特别周"⟩, ⟨"p1", "甲"⟩, ⟨"c1", "特别周"⟩].map Value.reference))]⟩

theorem isIdentified_pairWorld : pairWorld.IsIdentified :=
  ⟨by decide, by decide⟩

/-- A command that tires its actor, takes it off the list and loops over what is left there. -/
def emptyingCommand : Text :=
  "属性变更 体力 -10; 列表排除(变量.伙伴, 当前角色); 列表执行(变量.伙伴, 跳转 e1)".toList

/-- The loop goes over the companion, the trainer and the companion again, although nobody is on the
list any more after the second time, and no event follows, although the first one has jumped. -/
theorem loop_that_empties_its_list :
    pairWorld.IsIdentified ∧
    pairWorld.Lists ((Progress.start pairWorld companyScope).get "伙伴".toList) [1, 0, 1] ∧
    ∃ p : Progress 2, ((Script.run
        [Step.read ((Operation.forEach "伙伴".toList emptyingCommand).text true)] 0
        (.start pairWorld companyScope)).run (.fresh fun _ => 0)).1 = p ∧
      (p.world.character 1).attribute? "体力" = some 80 ∧
      (p.world.character 0).attribute? "体力" = some 90 ∧
      p.references? "伙伴".toList = some [] ∧ p.next = none ∧
      p.outcomes.map (fun o => (o.raw.take 4, o.skipped)) =
        [("属性变更".toList, none), ("列表排除".toList, none), ("跳转 e".toList, none),
          ("列表执行".toList, none), ("属性变更".toList, none), ("列表排除".toList, none),
          ("列表执行".toList, none), ("属性变更".toList, none), ("列表排除".toList, none),
          ("列表执行".toList, none), ("列表执行".toList, none)] := by
  have hlist :
      pairWorld.Lists ((Progress.start pairWorld companyScope).get "伙伴".toList) [1, 0, 1] :=
    ⟨[⟨"c1", "特别周"⟩, ⟨"p1", "甲"⟩, ⟨"c1", "特别周"⟩], rfl, rfl⟩
  have hkey : Text.IsListKey "伙伴".toList := ⟨by decide, by decide⟩
  have hcommand : emptyingCommand.IsArgument := by decide +kernel
  obtain ⟨-, hstatement, hread, -⟩ := loops_fold_over_their_list
    (p := .start pairWorld companyScope) isIdentified_pairWorld hlist 0 emptyingCommand
  refine ⟨isIdentified_pairWorld, hlist, _, rfl, ?_⟩
  -- three runs of the command, and then the record of the loop itself
  rw [hstatement _ (hread true hkey hcommand)]
  decide +kernel

end EventScript
