/-
Commands that are put together from others.

A semicolon at the top level separates statements, so a command that closes what it opens can
be followed by any other, and carrying out both is carrying out one after the other:

* `Progress.followedBy` — a progress goes on where an earlier one has ended: the statements of
  both are on record, and the later jump is the one that counts;
* `Script.run_followedBy` — what a script does depends on the world and the variables that it
  meets, not on the jumps and outcomes before it;
* `Script.read_append` — a command is read as the statements of its parts;
* `commands_compose_sequentially` — so commands compose, in particular the compensation of the
  other self and the option that it has chosen.
-/
import EventScript.Proofs.Composition
import EventScript.Script.Execution
import EventScript.Session.Chain

namespace EventScript

variable {n : Nat}

/-! ### One progress after another -/

/-- A progress and then a later one, which began afresh where the first one ended. An event
that is to follow after the later one replaces the event from before. -/
def Progress.followedBy (p q : Progress n) : Progress n :=
  { q with
    next := q.next.or p.next
    pause := if q.next.isSome then q.pause else p.pause
    outcomes := p.outcomes ++ q.outcomes }

theorem Progress.followedBy_start (p : Progress n) : p.followedBy (.start p.world p.scope) = p := by
  obtain ⟨world, scope, next, pause, outcomes⟩ := p
  show Progress.mk world scope next pause (outcomes ++ []) = _
  rw [List.append_nil]

@[simp]
theorem Progress.world_followedBy (p q : Progress n) : (p.followedBy q).world = q.world :=
  rfl

@[simp]
theorem Progress.scope_followedBy (p q : Progress n) : (p.followedBy q).scope = q.scope :=
  rfl

@[simp]
theorem Progress.references?_followedBy (p q : Progress n) (key : Text) :
    (p.followedBy q).references? key = q.references? key :=
  rfl

@[simp]
theorem Progress.get_followedBy (p q : Progress n) (key : Text) :
    (p.followedBy q).get key = q.get key :=
  rfl

theorem Progress.record_followedBy (p q : Progress n) (o : Outcome) :
    (p.followedBy q).record o = p.followedBy (q.record o) := by
  have houtcomes := List.append_assoc p.outcomes q.outcomes [o]
  rw [record, record, followedBy, followedBy, houtcomes]

/-- An attempt that began afresh where a progress had ended. -/
def Attempt.behind (p : Progress n) (a : Attempt n) : Attempt n :=
  ⟨p.followedBy a.progress, a.skipped⟩

/-! ### Operations -/

namespace Operation

variable {p : Progress n}

theorem applyAttribute_followedBy (actor : Seat n) (name : String) (amount : Int)
    (q : Progress n) :
    applyAttribute actor name amount (p.followedBy q) =
      (applyAttribute actor name amount q).behind p := by
  rw [applyAttribute, applyAttribute]
  split
  · rfl
  · split
    · rfl
    · split <;> rfl

theorem applyRelation_followedBy (holder object : Seat n) (kind : Text) (amount : Int)
    (q : Progress n) :
    applyRelation holder object kind amount (p.followedBy q) =
      (applyRelation holder object kind amount q).behind p := by
  rw [applyRelation, applyRelation]
  cases kindOf? kind with
  | none => rfl
  | some k => rfl

theorem applyMutual_followedBy (first second : Seat n) (kind : Text) (amount : Int)
    (q : Progress n) :
    applyMutual first second kind amount (p.followedBy q) =
      (applyMutual first second kind amount q).behind p := by
  -- a kind that nobody knows makes the first half skip; otherwise both halves are done
  rw [applyMutual, applyMutual]
  simp only [applyRelation]
  cases kindOf? kind with
  | none => rfl
  | some k => rfl

theorem feelForEach_followedBy (subject first : Seat n) (kind value : Text)
    (others : List (Seat n)) (q : Progress n) :
    feelForEach subject first kind value others (p.followedBy q) =
      p.followedBy <$> feelForEach subject first kind value others q := by
  induction others generalizing q with
  | nil => rw [feelForEach, feelForEach, map_pure]
  | cons second rest ih =>
    rw [feelForEach, feelForEach, map_bind]
    refine bind_congr fun amount => ?_
    rw [applyMutual_followedBy]
    exact ih _

theorem feelInGroup_followedBy (subject : Seat n) (kind value : Text) (members : List (Seat n))
    (q : Progress n) :
    feelInGroup subject kind value members (p.followedBy q) =
      p.followedBy <$> feelInGroup subject kind value members q := by
  induction members generalizing q with
  | nil => rw [feelInGroup, feelInGroup, map_pure]
  | cons first rest ih =>
    rw [feelInGroup, feelInGroup, feelForEach_followedBy, map_bind, bind_map_left]
    exact bind_congr fun r => ih r

theorem applyGrant_followedBy (actor : Seat n) (tag : String) (count : Int) (q : Progress n) :
    applyGrant actor tag count (p.followedBy q) = (applyGrant actor tag count q).behind p := by
  rw [applyGrant, applyGrant, Progress.world_followedBy]
  split <;> rfl

theorem applyAdjustment_followedBy (actor : Seat n) (tag : String) (amount : Int)
    (q : Progress n) :
    applyAdjustment actor tag amount (p.followedBy q) =
      (applyAdjustment actor tag amount q).behind p := by
  rw [applyAdjustment, applyAdjustment, Progress.world_followedBy]
  cases (q.world.character actor).tag? tag with
  | none => dsimp only; split <;> rfl
  | some t => rfl

theorem applyPair_followedBy (first second : Option (Seat n)) (q : Progress n) :
    applyPair first second (p.followedBy q) = Attempt.behind p <$> applyPair first second q := by
  cases first with
  | none => rfl
  | some a =>
    cases second with
    | none => rfl
    | some b =>
      rw [applyPair, applyPair, apply_ite (Attempt.behind p <$> ·)]
      refine if_congr Iff.rfl rfl ?_
      rw [map_bind]
      refine bind_congr fun k => ?_
      rw [apply_ite (Attempt.behind p <$> ·)]
      rfl

theorem assignDrawn_followedBy (key : Text) (pool : List Reference) (q : Progress n) :
    assignDrawn key pool (p.followedBy q) = Attempt.behind p <$> assignDrawn key pool q := by
  cases pool with
  | nil => rfl
  | cons r rest => rfl

theorem assignMeaning_followedBy (subject : Seat n) (key value : Text) (q : Progress n) :
    assignMeaning subject key value (p.followedBy q) =
      p.followedBy (assignMeaning subject key value q) := by
  rw [assignMeaning, assignMeaning, Progress.world_followedBy, Progress.scope_followedBy]
  cases q.world.resolve? subject q.scope value with
  | none => rfl
  | some i => rfl

theorem assignPlain_followedBy (subject : Seat n) (type : Option VariableType)
    (key value : Text) (q : Progress n) :
    assignPlain subject type key value (p.followedBy q) =
      Attempt.behind p <$> assignPlain subject type key value q := by
  rw [assignPlain, assignPlain, assignMeaning_followedBy, Progress.references?_followedBy]
  split
  · rfl
  · cases Text.integerLiteral? value with
    | some k => rfl
    | none =>
      cases if type = some .list then q.references? (variableKey value) else none with
      | some rs => rfl
      | none => rfl

theorem applyAssign_followedBy (subject : Seat n) (type : Option VariableType)
    (key value : Text) (q : Progress n) :
    applyAssign subject type key value (p.followedBy q) =
      Attempt.behind p <$> applyAssign subject type key value q := by
  rw [applyAssign, applyAssign]
  split
  · exact assignDrawn_followedBy key _ q
  · split
    · exact assignDrawn_followedBy key _ q
    · split
      · rfl
      · split
        · rfl
        · split
          · exact assignDrawn_followedBy key _ q
          · exact assignPlain_followedBy subject type key value q

theorem applyCompute_followedBy (subject : Seat n) (key : Text) (negative : Bool) (value : Text)
    (q : Progress n) :
    applyCompute subject key negative value (p.followedBy q) =
      Attempt.behind p <$> applyCompute subject key negative value q := by
  rw [applyCompute, applyCompute, Progress.get_followedBy]
  cases q.get key with
  | int k => rfl
  | _ => rfl

theorem applyChanceJump_followedBy (subject : Seat n) (chance event : Text)
    (otherwise : Option Text) (q : Progress n) :
    applyChanceJump subject chance event otherwise (p.followedBy q) =
      Attempt.behind p <$> applyChanceJump subject chance event otherwise q := by
  simp only [applyChanceJump, map_bind]
  refine bind_congr fun k => bind_congr fun percent => ?_
  rw [apply_ite (Attempt.behind p <$> ·)]
  refine if_congr Iff.rfl rfl ?_
  cases otherwise with
  | some other => rfl
  | none => rfl

theorem membersWhere_followedBy (condition : Text) (rs : List Reference) (q : Progress n) :
    membersWhere (p.followedBy q) condition rs = membersWhere q condition rs := by
  induction rs with
  | nil => rfl
  | cons r rest ih =>
    rw [membersWhere, membersWhere, ih]
    rfl

/-- What a list operation carries out for each member goes on like the operation itself. -/
theorem applyForEach_followedBy {loop : Seat n → Progress n → Chance (Progress n)}
    (hloop : ∀ i q, loop i (p.followedBy q) = p.followedBy <$> loop i q) (rs : List Reference)
    (q : Progress n) :
    applyForEach loop rs (p.followedBy q) = p.followedBy <$> applyForEach loop rs q := by
  induction rs generalizing q with
  | nil => rw [applyForEach, applyForEach, map_pure]
  | cons r rest ih =>
    have hfirst : applyFor loop r (p.followedBy q) = p.followedBy <$> applyFor loop r q := by
      rw [applyFor, applyFor, Progress.world_followedBy]
      cases q.world.find? r.id with
      | some i => exact hloop i q
      | none => rfl
    rw [applyForEach, applyForEach, hfirst, map_bind, bind_map_left]
    exact bind_congr fun r => ih r

variable {loop : Seat n → Progress n → Chance (Progress n)}

/-- One case for each operation: what it reads of a progress is the world and the variables,
and those of the later progress are in force. -/
theorem apply_followedBy (hloop : ∀ i q, loop i (p.followedBy q) = p.followedBy <$> loop i q)
    (subject actor : Seat n) (op : Operation) (q : Progress n) :
    op.apply subject actor loop (p.followedBy q) =
      Attempt.behind p <$> op.apply subject actor loop q := by
  cases op with
  | changeAttribute name value =>
    simp only [apply, map_bind, map_pure, applyAttribute_followedBy]
    rfl
  | changeRelation kind holder object value =>
    simp only [apply, applyRelation_followedBy, Progress.world_followedBy,
      Progress.scope_followedBy]
    cases q.world.resolve? subject q.scope holder with
    | none => rfl
    | some i =>
      cases q.world.resolve? subject q.scope object with
      | none => rfl
      | some j => rfl
  | changePlayerRelation kind value =>
    simp only [apply, applyRelation_followedBy, Progress.world_followedBy,
      Progress.scope_followedBy]
    cases q.world.player? with
    | none => rfl
    | some j => rfl
  | changeMutualRelation kind first second value =>
    simp only [apply, applyMutual_followedBy, Progress.world_followedBy, Progress.scope_followedBy]
    cases q.world.resolve? subject q.scope first with
    | none => rfl
    | some i =>
      cases q.world.resolve? subject q.scope second with
      | none => rfl
      | some j => rfl
  | changeGroupRelation kind list value =>
    simp only [apply, feelInGroup_followedBy, Progress.references?_followedBy,
      Progress.world_followedBy]
    cases q.references? list with
    | none => rfl
    | some rs =>
      cases kindOf? kind with
      | none => rfl
      | some k => rfl
  | grantTag tag layers =>
    simp only [apply, map_bind, map_pure, applyGrant_followedBy]
    rfl
  | adjustTag tag delta =>
    simp only [apply, map_bind, map_pure, applyAdjustment_followedBy]
    rfl
  | removeTag tag =>
    rw [apply, apply, apply_ite (Attempt.behind p <$> ·)]
    rfl
  | assign type key value => exact applyAssign_followedBy subject type key value q
  | compute key negative value => exact applyCompute_followedBy subject key negative value q
  | jump event pause => rfl
  | chanceJump chance event otherwise =>
    exact applyChanceJump_followedBy subject chance event otherwise q
  | filterList list condition =>
    simp only [apply, membersWhere_followedBy, Progress.references?_followedBy]
    cases q.references? list with
    | none => rfl
    | some rs => rfl
  | excludeFromList list target =>
    simp only [apply, Progress.references?_followedBy, Progress.world_followedBy,
      Progress.scope_followedBy]
    cases q.references? list with
    | none => rfl
    | some rs =>
      cases q.world.resolve? subject q.scope target with
      | none => rfl
      | some i => rfl
  | truncateList list count =>
    simp only [apply, Progress.references?_followedBy, Progress.world_followedBy,
      Progress.scope_followedBy]
    cases q.references? list with
    | none => rfl
    | some rs => rfl
  | appendToList list target =>
    simp only [apply, Progress.references?_followedBy, Progress.world_followedBy,
      Progress.scope_followedBy]
    cases q.references? list with
    | none => rfl
    | some rs =>
      cases q.world.resolve? subject q.scope target with
      | none => rfl
      | some i => rfl
  | forEach list command =>
    simp only [apply, applyForEach_followedBy hloop, Progress.references?_followedBy]
    cases q.references? list with
    | none => rfl
    | some rs => rfl
  | joinTeam target =>
    simp only [apply, Progress.world_followedBy, Progress.scope_followedBy]
    cases q.world.resolve? subject q.scope target with
    | none => rfl
    | some i => rfl
  | pair first second => exact applyPair_followedBy _ _ q
  | unknown verb => rfl
  | malformed verb => rfl

end Operation

/-! ### Statements and scripts -/

theorem Statement.attempt_followedBy {loop : Seat n → Progress n → Chance (Progress n)}
    {p : Progress n} (hloop : ∀ i q, loop i (p.followedBy q) = p.followedBy <$> loop i q)
    (s : Statement) (subject : Seat n) (q : Progress n) :
    s.attempt subject loop (p.followedBy q) = Attempt.behind p <$> s.attempt subject loop q := by
  have hpasses : s.passes subject (p.followedBy q) = s.passes subject q := rfl
  have hactor : s.actor? subject (p.followedBy q) = s.actor? subject q := rfl
  rw [attempt, attempt, hpasses, hactor, map_bind]
  refine bind_congr fun passes => ?_
  cases passes with
  | false => rfl
  | true =>
    cases s.actor? subject q with
    | none => rfl
    | some actor => exact Operation.apply_followedBy hloop subject actor s.operation q

/-- What a script does depends on the world and the variables that it meets, not on what the
statements before it have jumped to or how they ended. -/
theorem Script.run_followedBy (p : Progress n) (script : List Step) (subject : Seat n)
    (q : Progress n) :
    Script.run script subject (p.followedBy q) = p.followedBy <$> Script.run script subject q := by
  -- scripts and single steps call each other, so both are carried through the induction
  induction script, subject, q using Script.run.induct
    (fun s subject q =>
      Step.attempt s subject (p.followedBy q) = Attempt.behind p <$> Step.attempt s subject q) with
  | case1 raw statement body subject q ih =>
    rw [Step.attempt, Step.attempt]
    exact statement.attempt_followedBy ih subject q
  | case2 subject q => rw [Script.run, Script.run, map_pure]
  | case3 s rest subject q hs hrest =>
    rw [Script.run, Script.run, hs, map_bind, bind_map_left]
    refine bind_congr fun a => ?_
    have hrecord := Progress.record_followedBy p a.progress (s.outcome a.skipped)
    show Script.run rest subject ((p.followedBy a.progress).record (s.outcome a.skipped)) = _
    rw [hrecord]
    exact hrest a

theorem Script.run_append (first second : List Step) (subject : Seat n) (p : Progress n) :
    Script.run (first ++ second) subject p =
      Script.run first subject p >>= Script.run second subject := by
  induction first generalizing p with
  | nil => rw [List.nil_append, Script.run, pure_bind]
  | cons s rest ih =>
    rw [List.cons_append, Script.run, Script.run, bind_assoc]
    exact bind_congr fun a => ih _

/-! ### Commands -/

/-- Reads the text of a single statement. -/
def Step.read (raw : Text) : Step :=
  match (Statement.read raw).operation with
  | .forEach _ body => .mk raw (Statement.read raw) (Script.read body)
  | _ => .mk raw (Statement.read raw) []

theorem Script.read_eq (command : Text) :
    Script.read command = (splitStatements command).map Step.read := by
  rw [Script.read]
  refine map_attach_of_forall fun raw _ => ?_
  dsimp only
  rw [Step.read]
  split
  · rename_i list body h
    rw [h]
  · rename_i hother
    split
    · rename_i list body h
      exact absurd h (hother list body)
    · rfl

/-- A text that closes what it opens and a semicolon end a statement. -/
theorem splitStatements_append {a : Text} (ha : (Nesting.start.read a).IsClosed) (b : Text) :
    splitStatements (a ++ ';' :: b) = splitStatements a ++ splitStatements b := by
  have hsplit : splitTop [';'] (a ++ ';' :: b) = splitTop [';'] a ++ splitTop [';'] b :=
    splitTop_append (List.cons_ne_nil _ _) (by decide) ha (by simp) b
  rw [splitStatements, hsplit, List.map_append, List.filter_append]
  rfl

theorem splitStatements_cons {c : Char} (hc : isBlank c) (t : Text) :
    splitStatements (c :: t) = splitStatements t := by
  rw [splitStatements, splitStatements, map_splitTop_cons (fun p => Text.trim_cons hc p)
    (isPlain_of_isBlank hc)]
  rintro rfl
  exact absurd hc (by decide)

theorem Script.read_append {a : Text} (ha : (Nesting.start.read a).IsClosed) (b : Text) :
    Script.read (a ++ ';' :: b) = Script.read a ++ Script.read b := by
  rw [read_eq, read_eq, read_eq, splitStatements_append ha, List.map_append]

theorem execute_append {a : Text} (ha : (Nesting.start.read a).IsClosed) (w : World n)
    (subject : Seat n) (scope : Scope) (b : Text) :
    execute w subject scope (a ++ ';' :: b) = (do
      let p ← execute w subject scope a
      let q ← execute p.world subject p.scope b
      pure (p.followedBy q)) := by
  rw [execute, Script.read_append ha, Script.run_append]
  refine bind_congr fun p => ?_
  -- the second script begins where the first one ended, and a fresh start there is no difference
  conv_lhs => rw [← p.followedBy_start]
  rw [Script.run_followedBy, map_eq_pure_bind]
  rfl

theorem execute_cons {c : Char} (hc : isBlank c) (w : World n) (subject : Seat n) (scope : Scope)
    (t : Text) : execute w subject scope (c :: t) = execute w subject scope t := by
  rw [execute, execute, Script.read_eq, Script.read_eq, splitStatements_cons hc]

/-- A command that closes what it opens, a semicolon and another command do what the two
commands do one after the other: the second one finds the cast and the variables that the
first one leaves, and rolls the dice on. All outcomes are on record, and the event to follow is
the one that was set last. The other self's option is carried out so, after the compensation. -/
theorem commands_compose_sequentially (w : World n) (subject : Seat n) (scope : Scope) :
    (∀ a b : Text, (Nesting.start.read a).IsClosed →
      execute w subject scope (a ++ ';' :: b) = (do
        let p ← execute w subject scope a
        let q ← execute p.world subject p.scope b
        pure (p.followedBy q))) ∧
    (∀ (rules : Rulebook) (option : Choice),
      (Nesting.start.read rules.settings.splitCompensation.toList).IsClosed →
      execute w subject scope (rules.optionCommand option true).toList = (do
        let p ← execute w subject scope rules.settings.splitCompensation.toList
        let q ← execute p.world subject p.scope option.action.toList
        pure (p.followedBy q))) := by
  refine ⟨fun a b ha => execute_append ha w subject scope b, fun rules option hclosed => ?_⟩
  have hcommand : (rules.optionCommand option true).toList =
      rules.settings.splitCompensation.toList ++ ';' :: ' ' :: option.action.toList := by
    rw [Rulebook.optionCommand, if_pos rfl, String.toList_append, String.toList_append,
      List.append_assoc]
    rfl
  rw [hcommand, execute_append hclosed]
  refine bind_congr fun p => ?_
  rw [execute_cons (c := ' ') (by decide)]

/-- The world of a trainer who is tired. -/
def tiredWorld : World 1 :=
  ⟨.singleton { Character.plain "p1" "训练员" "甲" with general := ⟨[("体力", 30), ("精力", 30)]⟩ }, 1,
    Settings.standard⟩

/-- A semicolon in a quotation ends nothing, and a jump of the second command replaces one of
the first. The compensation of the standard settings closes what it opens; the strength that it
gives is spent by the option. -/
theorem two_jumps :
    (Nesting.start.read "设置变量 变量.话 = \"好; 走\"; 跳转 e1".toList).IsClosed ∧
    (∃ p : Progress 1, ((execute trainerWorld 0 .empty ("设置变量 变量.话 = \"好; 走\"; 跳转 e1".toList ++
        ';' :: "属性变更 体力 -5; 继续 e2".toList)).run (.fresh fun _ => 0)).1 = p ∧
      p.scope.keys = ["话"] ∧ (p.world.character 0).attribute? "体力" = some 95 ∧
      p.next = some "e2".toList ∧ p.pause = true ∧ p.outcomes.length = 4) ∧
    (Nesting.start.read Settings.standard.splitCompensation.toList).IsClosed ∧
    ∃ p : Progress 1, ((execute tiredWorld 0 .empty (Rulebook.optionCommand ⟨⟨[]⟩, .standard⟩
        ⟨"离开", "属性变更 体力 -2; 继续 e2", ""⟩ true).toList).run (.fresh fun _ => 0)).1 = p ∧
      (p.world.character 0).attribute? "体力" = some 33 ∧
      p.next = some "e2".toList ∧ p.pause = true ∧ p.outcomes.length = 4 := by
  have hfirst :
      (Nesting.start.read "设置变量 变量.话 = \"好; 走\"; 跳转 e1".toList).IsClosed :=
    ⟨by decide, by decide⟩
  have hstandard : (Nesting.start.read Settings.standard.splitCompensation.toList).IsClosed :=
    ⟨by decide, by decide⟩
  obtain ⟨hjoin, -⟩ := commands_compose_sequentially trainerWorld 0 .empty
  obtain ⟨-, hoption⟩ := commands_compose_sequentially tiredWorld 0 .empty
  refine ⟨hfirst, ⟨_, rfl, ?_⟩, hstandard, _, rfl, ?_⟩
  · rw [hjoin _ _ hfirst]
    decide +kernel
  · rw [hoption ⟨⟨[]⟩, .standard⟩ ⟨"离开", "属性变更 体力 -2; 继续 e2", ""⟩ hstandard]
    decide +kernel

end EventScript
