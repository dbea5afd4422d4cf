/-
What a guard gates.

A statement may have a guard behind it, separated by ` 若 `.  If the token stands at the top level
neither of the statement nor of the guard, the two come apart where they were put together, and the
guard decides about that statement and nothing else:

* `Statement.expand_append` — the shorthand for the trainer does not get in the way;
* `Statement.read_guarded` — a statement with a guard is read as it would be alone, and the guard
  besides;
* `Progress.effect`, `execute_single` — what a command brings about, and what a command of a single
  statement does;
* `guards_gate_their_statement` — the guard is asked first, for the acting character; if it holds,
  the statement does what it does alone, and if not, nothing happens.

A statement that begins with a bracket has no verb.  It is skipped as malformed, and its guard is
lost with it (`Statement.read_guarded_of_bracket`).
-/
import EventScript.Proofs.Descent
import EventScript.Proofs.Roundtrip

namespace EventScript

variable {n : Nat}

/-- What opens and closes nothing does not change what a text leaves open behind it. -/
theorem Nesting.isClosed_read_append {a : Text} (ha : ∀ c ∈ a, isPlain c) (t : Text) :
    (start.read (a ++ t)).IsClosed ↔ (start.read t).IsClosed := by
  have hclosed : (start.read a).IsClosed := isClosed_start.read ha
  rw [read_append]
  constructor
  · rintro ⟨hdepth, hquote⟩
    exact ⟨(hclosed.depth_read t).symm.trans hdepth, (hclosed.quote_read t).symm.trans hquote⟩
  · rintro ⟨hdepth, hquote⟩
    exact ⟨(hclosed.depth_read t).trans hdepth, (hclosed.quote_read t).trans hquote⟩

namespace Statement

/-! ### The shorthand for the trainer -/

variable {s g t b : Text}

/-- White space ends the shorthand, so what follows does not matter. -/
theorem expand_append (hb : ∀ c ∈ b.head?, isBlank c) (t : Text) :
    expand (t ++ b) = expand t ++ b := by
  rcases expand_cases t with ⟨rest, rfl, hexpand⟩ | ⟨hnot, hexpand⟩
  · rw [hexpand, List.append_assoc, List.append_assoc, expand_shorthand]
  · have hnot' : ¬ trainerShorthand <+: t ++ b := by
      cases b with
      | nil => rwa [List.append_nil]
      | cons c rest =>
        have hc : c ∉ trainerShorthand := notMem_of_all_not (hb c rfl) (by decide)
        rwa [← List.isPrefixOf_iff_prefix, isPrefixOf_append_cons hc, List.isPrefixOf_iff_prefix]
    rw [hexpand, expand, Text.after?_eq_none hnot']

theorem trim_expand (t : Text) : (expand t.trim).trim = expand t.trim := by
  refine Text.trim_eq_self ?_ ?_
  · rw [head?_expand]
    exact Text.head?_trim t
  · have hlast : ∀ c ∈ t.trim.getLast?, isBlank c = false := Text.getLast?_trimEnd _
    rcases expand_cases t.trim with ⟨rest, htrim, hexpand⟩ | ⟨-, hexpand⟩
    · rw [hexpand]
      rw [htrim] at hlast
      cases rest with
      | nil =>
        rintro c ⟨⟩
        rfl
      | cons c rest =>
        rw [List.getLast?_append_of_ne_nil _ (List.cons_ne_nil c rest)] at hlast ⊢
        exact hlast
    · rw [hexpand]
      exact hlast

theorem isClosed_read_expand :
    (Nesting.start.read (expand t)).IsClosed ↔ (Nesting.start.read t).IsClosed := by
  rcases expand_cases t with ⟨rest, rfl, hexpand⟩ | ⟨-, hexpand⟩
  · rw [hexpand, Nesting.isClosed_read_append (by decide), Nesting.isClosed_read_append (by decide)]
  · rw [hexpand]

/-- In front of a text, what has no spaces and opens and closes nothing only moves the tokens. -/
theorem topOccurrences_guard_append {a : Text} (hspace : ' ' ∉ a) (hplain : ∀ c ∈ a, isPlain c)
    (t : Text) :
    topOccurrences guardToken (a ++ t) = (topOccurrences guardToken t).map (· + a.length) := by
  have hclosed : (Nesting.start.read a).IsClosed := Nesting.isClosed_start.read hplain
  have htoken : guardToken = ' ' :: ['若', ' '] := rfl
  rw [htoken, topOccurrences, topOccurrencesFrom_append_of_notMem hspace,
    topOccurrencesFrom_of_isClosed hclosed, Nat.zero_add]

/-- The longhand brings no token for a guard about. -/
theorem topOccurrences_expand (h : topOccurrences guardToken t = []) :
    topOccurrences guardToken (expand t) = [] := by
  rcases expand_cases t with ⟨rest, rfl, hexpand⟩ | ⟨-, hexpand⟩
  · rw [topOccurrences_guard_append (by decide) (by decide), List.map_eq_nil_iff] at h
    rw [hexpand, topOccurrences_guard_append (by decide) (by decide), h, List.map_nil]
  · rw [hexpand, h]

/-! ### Taking the guard off -/

/-- A verb can be found unless the text begins with a bracket. -/
theorem splitVerb?_ne_none (hblank : ∀ c ∈ t.head?, isBlank c = false) (hne : t ≠ [])
    (hbracket : t.head? ≠ some '(') : splitVerb? t ≠ none := by
  rw [splitVerb?]
  split
  · rintro ⟨⟩
  · obtain ⟨c, rest, rfl⟩ := List.exists_cons_of_ne_nil hne
    have hlone : isLoneVerbPart c := by
      have hc : c ≠ '(' := fun heq => hbracket (congrArg some heq)
      simp [isLoneVerbPart, hblank c rfl, hc]
    dsimp only
    rw [List.takeWhile_cons_of_pos hlone]
    rintro ⟨⟩

theorem splitVerb?_of_bracket (h : t.head? = some '(') : splitVerb? t = none := by
  obtain ⟨rest, rfl⟩ := List.head?_eq_some_iff.mp h
  rfl

/-- A statement and its guard come apart again, whatever white space is around them. -/
theorem splitGuard_expand_trim (hs : s.trim ≠ []) (hclosed : (Nesting.start.read s).IsClosed)
    (hg : g.trim ≠ []) (hguard : topOccurrences guardToken (' ' :: g) = []) :
    splitGuard (expand (s ++ (guardToken ++ g)).trim) = (expand s.trim, some g.trim) := by
  obtain ⟨a, b, hs', ha, hb⟩ := Text.exists_eq_trim s
  obtain ⟨c, d, hg', hc, hd⟩ := Text.exists_eq_trim g
  have hraw : (s ++ (guardToken ++ g)).trim = s.trim ++ (b ++ (guardToken ++ (c ++ g.trim))) := by
    have hshape : s ++ (guardToken ++ g) =
        a ++ ((s.trim ++ ((b ++ (guardToken ++ c)) ++ g.trim)) ++ d) := by
      conv_lhs => rw [hs', hg']
      simp only [List.append_assoc]
    rw [hshape, Text.trim_append_left ha, Text.trim_append_right hd,
      Text.trim_between (Text.trim_trim s) hs (Text.trim_trim g) hg]
    simp only [List.append_assoc]
  have hblank : ∀ x ∈ (b ++ (guardToken ++ (c ++ g.trim))).head?, isBlank x := by
    cases b with
    | nil =>
      rintro x ⟨⟩
      rfl
    | cons y rest =>
      rintro x ⟨⟩
      exact hb _ List.mem_cons_self
  have hbefore : (Nesting.start.read (expand s.trim ++ b)).IsClosed := by
    have hplain : ∀ x ∈ a, isPlain x := fun x hx => isPlain_of_isBlank (ha x hx)
    rw [← expand_append (fun x hx => hb x (List.mem_of_mem_head? hx)), isClosed_read_expand]
    rw [hs', Nesting.isClosed_read_append hplain] at hclosed
    exact hclosed
  have hbehind : topOccurrences guardToken (' ' :: (c ++ g.trim)) = [] := by
    have hshape : ' ' :: g = (' ' :: (c ++ g.trim)) ++ d := by
      conv_lhs => rw [hg']
      simp only [List.cons_append, List.append_assoc]
    rw [hshape] at hguard
    exact topOccurrencesFrom_of_append hguard
  have htrim : (c ++ g.trim).trim = g.trim := by
    rw [Text.trim_append_left hc, Text.trim_trim]
  have hsome : (c ++ g.trim).trim ≠ [] := by
    rw [htrim]
    exact hg
  rw [hraw, expand_append hblank, ← List.append_assoc, splitGuard_append hbefore hsome hbehind,
    htrim, Text.trim_append_right hb, trim_expand]

/-- A statement with a guard is read as it would be alone, with the guard besides. -/
theorem read_guarded (hs : s.trim ≠ []) (hclosed : (Nesting.start.read s).IsClosed)
    (htoken : topOccurrences guardToken s = []) (hg : g.trim ≠ [])
    (hguard : topOccurrences guardToken (' ' :: g) = []) (hbracket : s.trim.head? ≠ some '(') :
    (read s).guard = none ∧
      read (s ++ (guardToken ++ g)) = { read s with guard := some g.trim } := by
  have halone : splitGuard (expand s.trim) = (expand s.trim, none) :=
    splitGuard_of_none (topOccurrences_expand (topOccurrences_trim htoken))
  have hhead : ∀ c ∈ (expand s.trim).head?, isBlank c = false := by
    rw [head?_expand]
    exact Text.head?_trim s
  have hne : expand s.trim ≠ [] := by
    intro hnil
    rw [← List.head?_eq_none_iff, head?_expand, List.head?_eq_none_iff] at hnil
    exact hs hnil
  have hverb : splitVerb? (expand s.trim) ≠ none :=
    splitVerb?_ne_none hhead hne ((head?_expand _).symm ▸ hbracket)
  obtain ⟨⟨target, verb, rest⟩, hparts⟩ := Option.ne_none_iff_exists'.mp hverb
  rw [read, read, splitGuard_expand_trim hs hclosed hg hguard, halone]
  dsimp only
  rw [hparts]
  exact ⟨rfl, rfl⟩

/-- Where a bracket stands for the verb, the guard is gone. -/
theorem read_guarded_of_bracket (hclosed : (Nesting.start.read s).IsClosed) (hg : g.trim ≠ [])
    (hguard : topOccurrences guardToken (' ' :: g) = []) (hbracket : s.trim.head? = some '(') :
    read (s ++ (guardToken ++ g)) = ⟨none, none, .malformed []⟩ := by
  have hs : s.trim ≠ [] := by
    intro hnil
    rw [hnil] at hbracket
    cases hbracket
  have hverb : splitVerb? (expand s.trim) = none :=
    splitVerb?_of_bracket ((head?_expand _).trans hbracket)
  rw [read, splitGuard_expand_trim hs hclosed hg hguard]
  dsimp only
  rw [hverb]

/-! ### Carrying it out -/

/-- A guard is asked for the acting character before the target is looked for. -/
theorem attempt_guarded {p : Progress n} {loop : Seat n → Progress n → Chance (Progress n)}
    {st : Statement} (hst : st.guard = none) (g : Text) (subject : Seat n) :
    attempt { st with guard := some g } subject loop p = (do
      if ← evaluateCondition p.world none subject p.scope g then st.attempt subject loop p
      else pure (.skip p .guardFailed)) := by
  rw [attempt, attempt]
  refine bind_congr fun passes => ?_
  have hpasses : st.passes subject p = pure true := by
    rw [Statement.passes, hst]
  cases passes with
  | false => rfl
  | true =>
    rw [hpasses]
    rfl

end Statement

/-- What a command brings about: the cast, the variables, the event that is to follow, and for each
statement whether it was skipped, and why. -/
structure Effect (n : Nat) where
  world : World n
  scope : Scope
  next : Option Text
  pause : Bool
  skipped : List (Option SkipReason)

/-- What has been brought about so far. -/
def Progress.effect (p : Progress n) : Effect n :=
  ⟨p.world, p.scope, p.next, p.pause, p.outcomes.map (·.skipped)⟩

/-- What a statement brings about once it is on record. -/
def Attempt.effect (a : Attempt n) : Effect n :=
  { a.progress.effect with skipped := a.progress.effect.skipped ++ [a.skipped] }

theorem Progress.effect_record (p : Progress n) (o : Outcome) :
    (p.record o).effect = Attempt.effect ⟨p, o.skipped⟩ := by
  rw [effect, record, List.map_append]
  rfl

/-- Attempts the statement that a text is, with the script that it may carry out for each member of
a list. -/
def Statement.attemptText (t : Text) (subject : Seat n) (p : Progress n) : Chance (Attempt n) :=
  (read t).attempt subject
    (Script.loopBy (fun body => Script.run (Script.read body)) (read t).operation) p

/-- A command that nothing cuts attempts its statement and keeps record of it. -/
theorem execute_single {t : Text} (ht : t.trim ≠ []) (hcut : topOccurrences [';'] t = [])
    (w : World n) (subject : Seat n) (scope : Scope) :
    execute w subject scope t = (do
      let a ← Statement.attemptText t subject (.start w scope)
      pure (a.progress.record ⟨t.trim, Statement.read t, a.skipped⟩)) := by
  have hone : splitStatements t = [t.trim] := by
    rw [splitStatements, splitTop_of_topOccurrences_eq_nil hcut, List.map_singleton]
    simp [ht]
  have hread : Statement.read t.trim = Statement.read t := by
    rw [Statement.read, Statement.read, Text.trim_trim]
  rw [execute, Script.read_eq, hone, Script.run_map_read, Script.runEach, hread]
  refine bind_congr fun a => ?_
  rw [Script.runEach]

theorem effect_execute_single {t : Text} (ht : t.trim ≠ []) (hcut : topOccurrences [';'] t = [])
    (w : World n) (subject : Seat n) (scope : Scope) :
    Progress.effect <$> execute w subject scope t =
      Attempt.effect <$> Statement.attemptText t subject (.start w scope) := by
  rw [execute_single ht hcut, map_bind, ← bind_pure_comp]
  refine bind_congr fun a => ?_
  rw [map_pure, Progress.effect_record]

/-- A guard gates exactly the statement that it follows. If a statement closes what it opens, and
neither it nor the guard is cut by a semicolon or another token at the top level, the command first
asks the guard for the acting character, whatever target the statement has. If the guard holds, the
command brings about what the statement brings about alone, with the same dice; if not, it leaves
everything as it is and has one outcome, that the guard failed. The statement is read as it would be
alone, tokens in its brackets and quotations included. A statement that begins with a bracket is
different: it is malformed, and its guard is not asked. -/
theorem guards_gate_their_statement (w : World n) (subject : Seat n) (scope : Scope) {s g : Text}
    (hs : s.trim ≠ []) (hclosed : (Nesting.start.read s).IsClosed)
    (hcut : topOccurrences [';'] s = []) (htoken : topOccurrences Statement.guardToken s = [])
    (hg : g.trim ≠ []) (hcut' : topOccurrences [';'] g = [])
    (hguard : topOccurrences Statement.guardToken (' ' :: g) = []) :
    (s.trim.head? ≠ some '(' →
      Statement.read (s ++ (Statement.guardToken ++ g)) =
        { Statement.read s with guard := some g.trim } ∧
      Progress.effect <$> execute w subject scope (s ++ (Statement.guardToken ++ g)) = (do
        if ← evaluateCondition w none subject scope g then
          Progress.effect <$> execute w subject scope s
        else pure ⟨w, scope, none, false, [some .guardFailed]⟩)) ∧
    (s.trim.head? = some '(' →
      Progress.effect <$> execute w subject scope (s ++ (Statement.guardToken ++ g)) =
        pure ⟨w, scope, none, false, [some .malformed]⟩) := by
  have htokenClosed : (Nesting.start.read Statement.guardToken).IsClosed := ⟨by decide, by decide⟩
  have hcutBehind : topOccurrences [';'] (Statement.guardToken ++ g) = [] :=
    topOccurrences_append_eq_nil htokenClosed (by decide) hcut'
  have hcutAll := topOccurrences_append_eq_nil hclosed hcut hcutBehind
  have hne : (s ++ (Statement.guardToken ++ g)).trim ≠ [] := by
    intro hnil
    have hblank := Text.trim_eq_nil hnil
    refine hs ?_
    rw [← List.append_nil s, Text.trim_append_left fun c hc => hblank c (List.mem_append_left _ hc)]
    rfl
  rw [effect_execute_single hne hcutAll]
  constructor
  · intro hbracket
    obtain ⟨hnone, hread⟩ := Statement.read_guarded hs hclosed htoken hg hguard hbracket
    refine ⟨hread, ?_⟩
    rw [Statement.attemptText, hread, Statement.attempt_guarded hnone, map_bind,
      effect_execute_single hs hcut]
    show evaluateCondition w none subject scope g.trim >>= _ = _
    rw [evaluateCondition_trim]
    refine bind_congr fun holds => ?_
    cases holds with
    | true => rfl
    | false => rfl
  · intro hbracket
    rw [Statement.attemptText, Statement.read_guarded_of_bracket hclosed hg hguard hbracket]
    rfl

/-- A list operation whose body has a guard. -/
def guardedLoop : Text :=
  "列表执行(队友们, 属性变更 体力 -5 若 属性.体力 > 50)".toList

/-- What is asked before the loop. -/
def loopGuard : Text :=
  "变量.次数 < 3".toList

theorem guard_behind_a_loop :
    Statement.read (guardedLoop ++ (Statement.guardToken ++ loopGuard)) =
      ⟨none, some loopGuard,
        .forEach "队友们".toList "属性变更 体力 -5 若 属性.体力 > 50".toList⟩ ∧
    Progress.effect <$> execute trainerWorld 0 .empty
        (guardedLoop ++ (Statement.guardToken ++ loopGuard)) = (do
      if ← evaluateCondition trainerWorld none 0 .empty loopGuard then
        Progress.effect <$> execute trainerWorld 0 .empty guardedLoop
      else pure ⟨trainerWorld, .empty, none, false, [some .guardFailed]⟩) ∧
    Progress.effect <$> execute trainerWorld 0 .empty
        ("(x)".toList ++ (Statement.guardToken ++ "false".toList)) =
      pure ⟨trainerWorld, .empty, none, false, [some .malformed]⟩ := by
  have hloop := (guards_gate_their_statement trainerWorld 0 .empty (s := guardedLoop)
    (g := loopGuard) (by decide) ⟨by decide, by decide⟩ (by decide) (by decide) (by decide)
    (by decide) (by decide)).1 (by decide)
  have hbracket := (guards_gate_their_statement trainerWorld 0 .empty (s := "(x)".toList)
    (g := "false".toList) (by decide) ⟨by decide, by decide⟩ (by decide) (by decide) (by decide)
    (by decide) (by decide)).2 (by decide)
  have hread : Statement.read guardedLoop = ⟨none, none,
      .forEach "队友们".toList "属性变更 体力 -5 若 属性.体力 > 50".toList⟩ := by
    decide +kernel
  have htrim : loopGuard.trim = loopGuard := by decide
  refine ⟨?_, hloop.2, hbracket⟩
  rw [hloop.1, hread, htrim]

end EventScript
