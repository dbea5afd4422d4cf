/-
Statements written out.

A statement is written `[target.]verb arguments[ 若 guard]`.  The token for the guard may also
occur by chance, in a name or inside the guard itself, and some targets are read as something
else, so not every statement can be told from its text.  Where none of this happens, reading
undoes writing, and it does so nowhere else:

* `Statement.splitGuard_text`, `Statement.splitVerb?_body` — the parts come apart again;
* `Statement.isUnambiguous_of_read` — what a statement must be like for that;
* `reading_undoes_writing` — both directions.
-/
import EventScript.Proofs.Printing

namespace EventScript

/-! ### Operations -/

namespace Spelling

theorem head?_text (sp : Spelling) : sp.text.head? = some ' ' ∨ sp.text.head? = some '(' := by
  cases sp with
  | words ws => exact .inl rfl
  | call args => exact .inr rfl

theorem getLast?_text {sp : Spelling} (h : sp.IsFit) :
    ∀ c ∈ sp.text.getLast?, isBlank c = false := by
  cases sp with
  | words ws =>
    have hfield := Operation.isField_joinWords h.1 h.2
    rw [text, ← List.singleton_append, List.getLast?_append_of_ne_nil _ hfield.ne_nil]
    exact hfield.getLast?_eq
  | call args =>
    intro c hc
    obtain rfl := Option.some.inj ((Text.getLast?_append_wrap [] _).symm.trans hc)
    decide

theorem isBalanced_text {sp : Spelling} (h : sp.IsFit) : sp.text.IsBalanced := by
  cases sp with
  | words ws =>
    have hspace : Text.IsBalanced [' '] := by decide
    exact hspace.append (Operation.isField_joinWords h.1 h.2).isBalanced
  | call args => exact (isBalanced_joinArguments fun a ha => (h.2 a ha).isBalanced).wrap

end Spelling

namespace Operation

/-- The verbs have nothing in them that could end a verb or a target. -/
theorem verb_spec {op : Operation} (h : op.IsAdmissible) :
    op.verb ≠ [] ∧ (∀ c ∈ op.verb, Statement.isTargetPart c ∧ isPlain c) ∧
      op.verb.head? ≠ some '训' := by
  cases op with
  | jump event pause => cases pause <;> (dsimp only [verb]; decide)
  | unknown verb => exact h.elim
  | malformed verb => exact h.elim
  | _ => dsimp only [verb]; decide

end Operation

/-! ### Statements as they are written -/

namespace Statement

/-- The target of a statement with its point. -/
def address (s : Statement) : Text :=
  match s.target with
  | none => []
  | some t => t ++ ['.']

/-- A statement without its guard. -/
def body (marked : Bool) (s : Statement) : Text :=
  s.address ++ s.operation.text marked

/-- How a statement is written. -/
def text (marked : Bool) (s : Statement) : Text :=
  match s.guard with
  | none => s.body marked
  | some g => s.body marked ++ (guardToken ++ g)

/-- A target has no white space, no point and no round bracket, but it may be marked as a
variable. -/
structure IsTarget (t : Text) : Prop extends t.IsField where
  parts : (∀ c ∈ t, isTargetPart c) ∨ ∃ key, t = variableMark ++ key ∧ ∀ c ∈ key, isTargetPart c

/-- What the fields of a statement may be. -/
structure IsAdmissible (s : Statement) : Prop where
  target : ∀ t ∈ s.target, IsTarget t
  guard : ∀ g ∈ s.guard, g.IsField
  operation : s.operation.IsAdmissible

/-- Nothing in the text of a statement is taken for something else: its target is not the bare
mark of variables and does not begin like the shorthand for the trainer, and no token for a
guard stands behind the right one, or anywhere if there is no guard. -/
structure IsUnambiguous (marked : Bool) (s : Statement) : Prop where
  named : ∀ t ∈ s.target, t ≠ variableMark
  direct : ∀ t ∈ s.target, ¬ trainerShorthand <+: t
  guarded : ∀ g ∈ s.guard, topOccurrences guardToken (' ' :: g) = []
  unguarded : s.guard = none → topOccurrences guardToken (s.body marked) = []

variable {s : Statement} {marked : Bool}

theorem isBlank_eq_false_of_isTargetPart {c : Char} (h : isTargetPart c) : isBlank c = false := by
  rw [isTargetPart, Bool.and_eq_true, Bool.and_eq_true, Bool.and_eq_true, Bool.not_eq_true'] at h
  exact h.1.1.1

theorem isVerbPart_of_isTargetPart {c : Char} (h : isTargetPart c) : isVerbPart c := by
  rw [isTargetPart, Bool.and_eq_true] at h
  exact h.1

theorem isLoneVerbPart_of_isTargetPart {c : Char} (h : isTargetPart c) : isLoneVerbPart c := by
  rw [isTargetPart, Bool.and_eq_true, Bool.and_eq_true, Bool.and_eq_true] at h
  rw [isLoneVerbPart, Bool.and_eq_true]
  exact ⟨h.1.1.1, h.1.2⟩

theorem isField_text_operation {op : Operation} (h : op.IsAdmissible) (marked : Bool) :
    (op.text marked).IsField := by
  obtain ⟨hne, hparts, -⟩ := Operation.verb_spec h
  have hfit := Operation.isFit_spelling h marked
  have hspelling : (op.spelling marked).text ≠ [] := by
    intro hnil
    rcases (op.spelling marked).head?_text with hhead | hhead <;> (rw [hnil] at hhead; cases hhead)
  refine ⟨List.append_ne_nil_of_left_ne_nil hne _, Text.trim_eq_self ?_ ?_, ?_⟩
  · intro c hc
    rw [Operation.text, List.head?_append_of_ne_nil _ hne] at hc
    obtain ⟨hpart, -⟩ := hparts c (List.mem_of_mem_head? hc)
    exact isBlank_eq_false_of_isTargetPart hpart
  · rw [Operation.text, List.getLast?_append_of_ne_nil _ hspelling]
    exact Spelling.getLast?_text hfit
  · exact (Text.isBalanced_of_isPlain fun c hc => (hparts c hc).2).append
      (Spelling.isBalanced_text hfit)

theorem isField_body (h : s.IsAdmissible) (marked : Bool) : (s.body marked).IsField := by
  have hoperation := isField_text_operation h.operation marked
  rw [body, address]
  cases htarget : s.target with
  | none => exact hoperation
  | some t =>
    have hpoint : ∀ c ∈ ['.'], isPlain c := by decide
    dsimp only
    rw [List.append_assoc]
    exact (h.target t htarget).toIsField.append hoperation hpoint

theorem isField_text (h : s.IsAdmissible) (marked : Bool) : (s.text marked).IsField := by
  rw [text]
  cases hguard : s.guard with
  | none => exact isField_body h marked
  | some g =>
    have htoken : ∀ c ∈ guardToken, isPlain c := by decide
    exact (isField_body h marked).append (h.guard g hguard) htoken

/-! ### The target -/

/-- Where the text of a statement begins like the shorthand, its target does. -/
theorem exists_target_of_shorthand (h : s.IsAdmissible) {more : Text}
    (hshort : trainerShorthand <+: s.body marked ++ more) :
    ∃ t ∈ s.target, trainerShorthand <+: t := by
  rw [body, address] at hshort
  cases htarget : s.target with
  | none =>
    exfalso
    obtain ⟨hne, -, hhead⟩ := Operation.verb_spec h.operation
    obtain ⟨rest, hrest⟩ := hshort
    have hfirst := congrArg List.head? hrest
    rw [htarget] at hfirst
    dsimp only at hfirst
    rw [List.nil_append, Operation.text, List.append_assoc, List.head?_append_of_ne_nil _ hne]
      at hfirst
    exact hhead hfirst.symm
  | some t =>
    refine ⟨t, rfl, ?_⟩
    rw [htarget] at hshort
    dsimp only at hshort
    have hpoint : '.' ∉ trainerShorthand := by decide
    rw [List.append_assoc, List.append_assoc, List.singleton_append,
      ← List.isPrefixOf_iff_prefix, isPrefixOf_append_cons hpoint,
      List.isPrefixOf_iff_prefix] at hshort
    exact hshort

theorem expand_text (h : s.IsAdmissible) (hdirect : ∀ t ∈ s.target, ¬ trainerShorthand <+: t) :
    expand (s.text marked) = s.text marked := by
  have hnot : ¬ trainerShorthand <+: s.text marked := by
    intro hshort
    obtain ⟨more, hmore⟩ : ∃ more, s.text marked = s.body marked ++ more := by
      rw [text]
      cases s.guard with
      | none => exact ⟨[], (List.append_nil _).symm⟩
      | some g => exact ⟨_, rfl⟩
    rw [hmore] at hshort
    obtain ⟨t, ht, hin⟩ := exists_target_of_shorthand h hshort
    exact hdirect t ht hin
  rw [expand, Text.after?_eq_none hnot]

/-- What may follow a verb. -/
def EndsVerb (rest : Text) : Prop :=
  rest.head? = some ' ' ∨ rest.head? = some '('

theorem EndsVerb.exists_cons {rest : Text} (h : EndsVerb rest) {p : Char → Prop} (hspace : p ' ')
    (hbracket : p '(') : ∃ d more, rest = d :: more ∧ p d := by
  rcases h with h | h
  · obtain ⟨more, rfl⟩ := List.head?_eq_some_iff.mp h
    exact ⟨_, more, rfl, hspace⟩
  · obtain ⟨more, rfl⟩ := List.head?_eq_some_iff.mp h
    exact ⟨_, more, rfl, hbracket⟩

/-- A target, its point, a verb and what ends the verb come apart. -/
theorem splitTargetAfter?_append (mark : Text) {t verb rest : Text} (htne : t ≠ [])
    (hvne : verb ≠ []) (ht : ∀ c ∈ t, isTargetPart c) (hverb : ∀ c ∈ verb, isTargetPart c)
    (hrest : EndsVerb rest) :
    splitTargetAfter? mark (t ++ '.' :: (verb ++ rest)) = some (mark ++ t, verb, rest) := by
  obtain ⟨d, more, rfl, hd⟩ :=
    hrest.exists_cons (p := (isVerbPart · = false)) (by decide) (by decide)
  have hpoint : isTargetPart '.' = false := by decide
  have hverb' : ∀ c ∈ verb, isVerbPart c := fun c hc => isVerbPart_of_isTargetPart (hverb c hc)
  rw [splitTargetAfter?, takeWhile_append_mark ht hpoint, dropWhile_append_mark ht hpoint]
  show (if t.isEmpty || ((verb ++ d :: more).takeWhile isVerbPart).isEmpty then none
    else some (mark ++ t, (verb ++ d :: more).takeWhile isVerbPart,
      (verb ++ d :: more).dropWhile isVerbPart)) = _
  rw [takeWhile_append_mark hverb' hd, dropWhile_append_mark hverb' hd]
  simp [htne, hvne]

/-- A verb without a point behind it is no target. -/
theorem splitTargetAfter?_eq_none (mark : Text) {verb rest : Text}
    (hverb : ∀ c ∈ verb, isTargetPart c) (hrest : EndsVerb rest) :
    splitTargetAfter? mark (verb ++ rest) = none := by
  obtain ⟨d, more, rfl, hd, hpoint⟩ :=
    hrest.exists_cons (p := fun d => isTargetPart d = false ∧ d ≠ '.') (by decide) (by decide)
  rw [splitTargetAfter?, dropWhile_append_mark hverb hd]
  split
  · rename_i more' heq
    exact absurd (List.cons.inj heq).1 hpoint
  · rfl

/-- The mark of variables ends at the first point of a text. -/
theorem eq_of_after?_variableMark {t rest u : Text} (ht : ∀ c ∈ t, isTargetPart c)
    (h : Text.after? variableMark (t ++ '.' :: rest) = some u) : u = rest := by
  have hcut : t ++ '.' :: rest = "变量".toList ++ '.' :: u :=
    (Text.after?_eq_some_iff.mp h).trans rfl
  have hpoint : isTargetPart '.' = false := by decide
  have hmark : ∀ c ∈ "变量".toList, isTargetPart c := by decide
  have hdrop := congrArg (List.dropWhile isTargetPart) hcut
  rw [dropWhile_append_mark ht hpoint, dropWhile_append_mark hmark hpoint] at hdrop
  exact (List.cons.inj hdrop).2.symm

theorem splitTarget?_plain {t verb rest : Text} (htne : t ≠ []) (hvne : verb ≠ [])
    (ht : ∀ c ∈ t, isTargetPart c) (hverb : ∀ c ∈ verb, isTargetPart c) (hrest : EndsVerb rest) :
    splitTarget? (t ++ '.' :: (verb ++ rest)) = some (t, verb, rest) := by
  have hmarked : (Text.after? variableMark (t ++ '.' :: (verb ++ rest))).bind
      (splitTargetAfter? variableMark) = none := by
    rw [Option.bind_eq_none_iff]
    intro u hu
    rw [eq_of_after?_variableMark ht hu]
    exact splitTargetAfter?_eq_none _ hverb hrest
  rw [splitTarget?, hmarked, Option.none_or, splitTargetAfter?_append _ htne hvne ht hverb hrest,
    List.nil_append]

theorem splitTarget?_marked {key verb rest : Text} (hkne : key ≠ []) (hvne : verb ≠ [])
    (hkey : ∀ c ∈ key, isTargetPart c) (hverb : ∀ c ∈ verb, isTargetPart c)
    (hrest : EndsVerb rest) :
    splitTarget? (variableMark ++ (key ++ '.' :: (verb ++ rest))) =
      some (variableMark ++ key, verb, rest) := by
  have hafter : Text.after? variableMark (variableMark ++ (key ++ '.' :: (verb ++ rest))) =
      some (key ++ '.' :: (verb ++ rest)) := Text.after?_eq_some_iff.mpr rfl
  rw [splitTarget?, hafter, Option.bind_some,
    splitTargetAfter?_append _ hkne hvne hkey hverb hrest, Option.some_or]

theorem splitTarget?_eq_none {verb rest : Text} (hverb : ∀ c ∈ verb, isTargetPart c)
    (hrest : EndsVerb rest) : splitTarget? (verb ++ rest) = none := by
  have hmark : ¬ variableMark <+: verb ++ rest := by
    intro h
    obtain ⟨d, more, rfl, hd⟩ := hrest.exists_cons (p := (· ∉ variableMark)) (by decide) (by decide)
    rw [← List.isPrefixOf_iff_prefix, isPrefixOf_append_cons hd, List.isPrefixOf_iff_prefix] at h
    -- the mark has a point, and the verb has none
    exact absurd (hverb '.' (h.subset (by decide))) (by decide)
  rw [splitTarget?, Text.after?_eq_none hmark, Option.bind_none, Option.none_or,
    splitTargetAfter?_eq_none _ hverb hrest]

theorem splitVerb?_body (h : s.IsAdmissible) (hnamed : ∀ t ∈ s.target, t ≠ variableMark) :
    splitVerb? (s.body marked) =
      some (s.target, s.operation.verb, (s.operation.spelling marked).text) := by
  obtain ⟨hvne, hparts, -⟩ := Operation.verb_spec h.operation
  have hverb : ∀ c ∈ s.operation.verb, isTargetPart c := fun c hc => (hparts c hc).1
  have hrest : EndsVerb (s.operation.spelling marked).text :=
    (s.operation.spelling marked).head?_text
  rw [splitVerb?, body, address, Operation.text]
  cases htarget : s.target with
  | none =>
    obtain ⟨d, more, hmore, hd⟩ :=
      hrest.exists_cons (p := (isLoneVerbPart · = false)) (by decide) (by decide)
    have hlone : ∀ c ∈ s.operation.verb, isLoneVerbPart c :=
      fun c hc => isLoneVerbPart_of_isTargetPart (hverb c hc)
    rw [List.nil_append, splitTarget?_eq_none hverb hrest]
    dsimp only
    rw [hmore, takeWhile_append_mark hlone hd, dropWhile_append_mark hlone hd]
    simp [hvne]
  | some t =>
    have htarget' := h.target t htarget
    dsimp only
    rw [List.append_assoc, List.singleton_append]
    rcases htarget'.parts with hparts | ⟨key, rfl, hkey⟩
    · rw [splitTarget?_plain htarget'.ne_nil hvne hparts hverb hrest]
    · have hkne : key ≠ [] := by
        rintro rfl
        exact hnamed _ htarget (List.append_nil _)
      rw [List.append_assoc, splitTarget?_marked hkne hvne hkey hverb hrest]

/-! ### The guard -/

/-- Behind a text, a token occurs where it would occur in the rest alone. -/
theorem exists_topOccurrencesFrom_append (token : Text) (n : Nesting) (i : Nat) (a b : Text) :
    ∃ before, topOccurrencesFrom token n i (a ++ b) =
      before ++ topOccurrencesFrom token (n.read a) (i + a.length) b := by
  induction a generalizing n i with
  | nil => exact ⟨[], rfl⟩
  | cons c rest ih =>
    obtain ⟨before, hbefore⟩ := ih (n.step c) (i + 1)
    have hposition : i + (c :: rest).length = i + 1 + rest.length := by
      rw [List.length_cons]
      omega
    rw [List.cons_append, topOccurrencesFrom, hbefore, hposition]
    by_cases hhere : n.isTop c && token.isPrefixOf (c :: (rest ++ b))
    · rw [if_pos hhere]
      exact ⟨i :: before, rfl⟩
    · rw [if_neg hhere]
      exact ⟨before, rfl⟩

/-- Where a token for the guard was written it occurs, and after it only where it occurs in the
guard itself, with the last blank of the token in front of it. -/
theorem exists_topOccurrences_guarded {t : Text} (ht : (Nesting.start.read t).IsClosed) (g : Text) :
    ∃ before, topOccurrences guardToken (t ++ (guardToken ++ g)) =
      before ++ t.length :: (topOccurrences guardToken (' ' :: g)).map (· + (t.length + 2)) := by
  obtain ⟨before, hbefore⟩ :=
    exists_topOccurrencesFrom_append guardToken .start 0 t (guardToken ++ g)
  have hblank := ht.step (c := ' ') (by decide)
  have hword := hblank.step (c := '若') (by decide)
  have hhere : (Nesting.start.read t).isTop ' ' = true := ht.isTop (by decide)
  refine ⟨before, ?_⟩
  rw [topOccurrences, hbefore, Nat.zero_add]
  refine congrArg (before ++ ·) ?_
  show topOccurrencesFrom guardToken (Nesting.start.read t) t.length (' ' :: '若' :: ' ' :: g) = _
  have hbegin : guardToken.isPrefixOf (' ' :: '若' :: ' ' :: g) = true := by
    rw [List.isPrefixOf_iff_prefix]
    exact ⟨g, rfl⟩
  have hnot : guardToken.isPrefixOf ('若' :: ' ' :: g) = false := rfl
  rw [topOccurrencesFrom, hhere, hbegin, topOccurrencesFrom, hnot, Bool.and_false,
    topOccurrencesFrom_of_isClosed hword]
  rfl

theorem splitGuard_of_none {t : Text} (h : topOccurrences guardToken t = []) :
    splitGuard t = (t, none) := by
  rw [splitGuard, findLastTop?, h]
  rfl

/-- The guard comes off where it was put, with the white space around it. -/
theorem splitGuard_append {t g : Text} (ht : (Nesting.start.read t).IsClosed) (hg : g.trim ≠ [])
    (htoken : topOccurrences guardToken (' ' :: g) = []) :
    splitGuard (t ++ (guardToken ++ g)) = (t.trim, some g.trim) := by
  obtain ⟨before, hbefore⟩ := exists_topOccurrences_guarded ht g
  rw [splitGuard, findLastTop?, hbefore, htoken, List.map_nil, List.getLast?_concat]
  dsimp only
  rw [← List.append_assoc, ← List.length_append, List.drop_left, List.append_assoc,
    List.take_left]
  simp [hg]

theorem splitGuard_text (h : s.IsAdmissible)
    (hguarded : ∀ g ∈ s.guard, topOccurrences guardToken (' ' :: g) = [])
    (hunguarded : s.guard = none → topOccurrences guardToken (s.body marked) = []) :
    splitGuard (s.text marked) = (s.body marked, s.guard) := by
  rw [text]
  cases hguard : s.guard with
  | none => exact splitGuard_of_none (hunguarded hguard)
  | some g =>
    have hbody := isField_body h marked
    have hg := h.guard g hguard
    have hne : g.trim ≠ [] := hg.trim_eq.symm ▸ hg.ne_nil
    dsimp only
    rw [splitGuard_append hbody.isBalanced.isClosed hne (hguarded g hguard), hbody.trim_eq,
      hg.trim_eq]

theorem read_text (h : s.IsAdmissible) (hclear : s.IsUnambiguous marked) :
    read (s.text marked) = s := by
  rw [read, (isField_text h marked).trim_eq, expand_text h hclear.direct,
    splitGuard_text h hclear.guarded hclear.unguarded]
  dsimp only
  rw [splitVerb?_body h hclear.named]
  dsimp only
  rw [Operation.read_spelling h.operation]

/-! ### What cannot be read -/

theorem splitTargetAfter?_spec {mark t target verb rest : Text}
    (h : splitTargetAfter? mark t = some (target, verb, rest)) :
    ∃ key, target = mark ++ key ∧ key ≠ [] ∧ (∀ c ∈ key, isTargetPart c) ∧ key <+: t := by
  rw [splitTargetAfter?] at h
  split at h
  · dsimp only at h
    split at h
    · cases h
    · rename_i hne
      rw [Bool.or_eq_true, not_or, List.isEmpty_iff, List.isEmpty_iff] at hne
      obtain ⟨rfl, -, -⟩ := by simpa using h
      exact ⟨_, rfl, hne.1, fun c hc => List.mem_takeWhile_imp hc, List.takeWhile_prefix _⟩
  · cases h

/-- A target that is read stands at the beginning of the text, and it is not the bare mark of
variables. -/
theorem splitTarget?_spec {t target verb rest : Text}
    (h : splitTarget? t = some (target, verb, rest)) : target ≠ variableMark ∧ target <+: t := by
  rcases Option.or_eq_some_iff.mp h with h | ⟨-, h⟩
  · obtain ⟨u, hu, h⟩ := Option.bind_eq_some_iff.mp h
    obtain ⟨key, rfl, hne, -, hbegin⟩ := splitTargetAfter?_spec h
    rw [Text.after?_eq_some_iff.mp hu]
    refine ⟨?_, (List.prefix_append_right_inj _).mpr hbegin⟩
    rw [Ne, List.append_right_eq_self]
    exact hne
  · obtain ⟨key, rfl, -, hkey, hbegin⟩ := splitTargetAfter?_spec h
    refine ⟨?_, hbegin⟩
    rintro hmark
    exact absurd (hkey '.' (hmark ▸ by decide)) (by decide)

/-- A text begins with the shorthand, or it stays as it is. -/
theorem expand_cases (t : Text) :
    (∃ rest, t = trainerShorthand ++ rest ∧ expand t = trainerLonghand ++ rest) ∨
      ¬ trainerShorthand <+: t ∧ expand t = t := by
  by_cases h : trainerShorthand <+: t
  · obtain ⟨rest, rfl⟩ := h
    refine .inl ⟨rest, rfl, ?_⟩
    rw [expand, Text.after?_eq_some_iff.mpr rfl]
  · refine .inr ⟨h, ?_⟩
    rw [expand, Text.after?_eq_none h]

theorem expand_shorthand (rest : Text) :
    expand (trainerShorthand ++ rest) = trainerLonghand ++ rest := by
  rw [expand, Text.after?_eq_some_iff.mpr rfl]

theorem head?_expand (t : Text) : (expand t).head? = t.head? := by
  rcases expand_cases t with ⟨rest, rfl, hexpand⟩ | ⟨-, hexpand⟩
  · have hsame : trainerLonghand.head? = trainerShorthand.head? := by decide
    rw [hexpand, List.head?_append, List.head?_append, hsame]
  · rw [hexpand]

theorem not_shorthand_expand (t : Text) : ¬ trainerShorthand <+: expand t := by
  rcases expand_cases t with ⟨rest, -, hexpand⟩ | ⟨hnot, hexpand⟩
  · -- the longhand has a point where the shorthand goes on
    have hno : trainerShorthand.isPrefixOf (trainerLonghand ++ rest) = false := rfl
    rw [hexpand, ← List.isPrefixOf_iff_prefix, hno]
    exact Bool.false_ne_true
  · rwa [hexpand]

theorem isPrefix_of_splitGuard {t : Text} (ht : ∀ c ∈ t.head?, isBlank c = false) :
    (splitGuard t).1 <+: t := by
  rw [splitGuard]
  cases findLastTop? guardToken t with
  | none => exact List.prefix_rfl
  | some i =>
    refine (Text.isPrefix_trim fun c hc => ht c ?_).trans (List.take_prefix i t)
    obtain ⟨rest, hrest⟩ := List.head?_eq_some_iff.mp hc
    obtain ⟨more, rfl⟩ : c :: rest <+: t := hrest ▸ List.take_prefix i t
    rfl

/-- No text is read as a statement for the bare mark of variables, or for a target that begins
like the shorthand for the trainer. -/
theorem target_read {t : Text} (ht : t.IsField) :
    ∀ target ∈ (read t).target, target ≠ variableMark ∧ ¬ trainerShorthand <+: target := by
  intro target htarget
  have hhead : ∀ c ∈ (expand t).head?, isBlank c = false := by
    rw [head?_expand]
    exact ht.head?_eq
  rw [read, ht.trim_eq] at htarget
  dsimp only at htarget
  cases hverb : splitVerb? (splitGuard (expand t)).1 with
  | none =>
    rw [hverb] at htarget
    cases htarget
  | some parts =>
    obtain ⟨found, verb, rest⟩ := parts
    rw [hverb] at htarget
    obtain rfl : found = some target := htarget
    rw [splitVerb?] at hverb
    split at hverb
    · rename_i u verb' rest' hu
      obtain ⟨rfl, -, -⟩ := by simpa using hverb
      obtain ⟨hmark, hbegin⟩ := splitTarget?_spec hu
      refine ⟨hmark, fun hshort => ?_⟩
      exact not_shorthand_expand t (hshort.trans (hbegin.trans (isPrefix_of_splitGuard hhead)))
    · -- a verb alone has no target
      dsimp only at hverb
      split at hverb <;> simp at hverb

/-- A token that occurs begins where it occurs. -/
theorem prefix_drop_of_mem_topOccurrencesFrom {token : Text} {n : Nesting} {k i : Nat} {t : Text}
    (h : i ∈ topOccurrencesFrom token n k t) : k ≤ i ∧ token <+: t.drop (i - k) := by
  induction t generalizing n k with
  | nil => cases h
  | cons c rest ih =>
    have hlater : i ∈ topOccurrencesFrom token (n.step c) (k + 1) rest →
        k ≤ i ∧ token <+: (c :: rest).drop (i - k) := by
      intro hin
      obtain ⟨hle, hbegin⟩ := ih hin
      obtain ⟨j, rfl⟩ := Nat.exists_eq_add_of_le hle
      have hdistance : k + 1 + j - k = (k + 1 + j - (k + 1)) + 1 := by omega
      rw [hdistance, List.drop_succ_cons]
      exact ⟨by omega, hbegin⟩
    rw [topOccurrencesFrom] at h
    split at h
    · rename_i hhere
      rcases List.mem_cons.mp h with rfl | hin
      · rw [Nat.sub_self]
        exact ⟨Nat.le_refl _, List.isPrefixOf_iff_prefix.mp (Bool.and_eq_true_iff.mp hhere).2⟩
      · exact hlater hin
    · exact hlater h

/-- The guard that is read is the one split off, unless there is no verb. -/
theorem guard_read {t : Text} (ht : t.IsField) (h : (read t).operation ≠ .malformed []) :
    (read t).guard = (splitGuard (expand t)).2 := by
  rw [read, ht.trim_eq] at h ⊢
  dsimp only at h ⊢
  cases hverb : splitVerb? (splitGuard (expand t)).1 with
  | none =>
    rw [hverb] at h
    exact absurd rfl h
  | some parts => rfl

theorem snd_splitGuard {t : Text} {i : Nat} (h : findLastTop? guardToken t = some i) :
    (splitGuard t).2 =
      if (Text.trim (t.drop (i + guardToken.length))).isEmpty then none
      else some (Text.trim (t.drop (i + guardToken.length))) := by
  rw [splitGuard, h]

/-- Only a guard without the token is split off behind the token that was written for it: behind
a later one there is less. -/
theorem topOccurrences_guard_eq_nil {t g : Text} (ht : t.IsBalanced) (hg : g ≠ [])
    (h : (splitGuard (t ++ (guardToken ++ g))).2 = some g) :
    topOccurrences guardToken (' ' :: g) = [] := by
  rcases List.eq_nil_or_concat (topOccurrences guardToken (' ' :: g)) with hnil | ⟨js, j, hjs⟩
  · exact hnil
  · exfalso
    obtain ⟨before, hbefore⟩ := exists_topOccurrences_guarded ht.isClosed g
    have hlast : findLastTop? guardToken (t ++ (guardToken ++ g)) = some (j + (t.length + 2)) := by
      rw [findLastTop?, hbefore, hjs, List.concat_eq_append, List.map_append,
        List.map_singleton, ← List.cons_append, ← List.append_assoc, List.getLast?_concat]
    have htotal : (t ++ (guardToken ++ g)).length = t.length + (guardToken.length + g.length) := by
      rw [List.length_append, List.length_append]
    have hpos := List.length_pos_of_ne_nil hg
    have hle := Text.length_trim_le
      ((t ++ (guardToken ++ g)).drop (j + (t.length + 2) + guardToken.length))
    rw [List.length_drop] at hle
    rw [snd_splitGuard hlast] at h
    split at h
    · cases h
    · have hlength := congrArg List.length (Option.some.inj h)
      omega

/-- Without a token nothing is split off, and behind a token there is something. -/
theorem topOccurrences_eq_nil_of_unguarded {t : Text} (ht : t.IsField)
    (h : (splitGuard t).2 = none) : topOccurrences guardToken t = [] := by
  rcases List.eq_nil_or_concat (topOccurrences guardToken t) with hnil | ⟨js, j, hjs⟩
  · exact hnil
  · exfalso
    rw [List.concat_eq_append] at hjs
    have hlast : findLastTop? guardToken t = some j := by
      rw [findLastTop?, hjs, List.getLast?_concat]
    have hmem : j ∈ topOccurrences guardToken t := by
      rw [hjs]
      exact List.mem_append_right _ List.mem_cons_self
    obtain ⟨rest, hrest⟩ := (prefix_drop_of_mem_topOccurrencesFrom hmem).2
    rw [Nat.sub_zero] at hrest
    have hcut : t = t.take j ++ (guardToken ++ rest) := by
      rw [hrest, List.take_append_drop]
    have hend := ht.getLast?_eq
    rw [hcut, ← List.append_assoc] at hend
    rw [snd_splitGuard hlast, ← List.drop_drop, ← hrest, List.drop_left] at h
    split at h
    · rename_i hempty
      have hblank := Text.trim_eq_nil (List.isEmpty_iff.mp hempty)
      -- but neither the last character of the token nor white space ends the text
      cases rest with
      | nil =>
        rw [List.append_nil, List.getLast?_append_of_ne_nil _ (by decide)] at hend
        exact absurd (hend ' ' rfl) (by decide)
      | cons d more =>
        have hne : d :: more ≠ [] := List.cons_ne_nil _ _
        rw [List.getLast?_append_of_ne_nil _ hne] at hend
        have hnot := hend _ (List.getLast?_eq_some_getLast hne)
        rw [hblank _ (List.getLast_mem hne)] at hnot
        cases hnot
    · cases h

theorem isUnambiguous_of_read (h : s.IsAdmissible) (hread : read (s.text marked) = s) :
    s.IsUnambiguous marked := by
  have hfield := isField_text h marked
  have htarget := target_read hfield
  rw [hread] at htarget
  have hsome : (read (s.text marked)).operation ≠ .malformed [] := by
    rw [hread]
    intro hmalformed
    have hoperation := h.operation
    rw [hmalformed] at hoperation
    exact hoperation
  have hguard := guard_read hfield hsome
  rw [hread, expand_text h fun t ht => (htarget t ht).2] at hguard
  refine ⟨fun t ht => (htarget t ht).1, fun t ht => (htarget t ht).2, ?_, ?_⟩
  · intro g hg
    have hg : s.guard = some g := hg
    rw [text, hg] at hguard
    exact topOccurrences_guard_eq_nil (isField_body h marked).isBalanced (h.guard g hg).ne_nil
      hguard.symm
  · intro hnone
    rw [text, hnone] at hguard
    exact topOccurrences_eq_nil_of_unguarded (isField_body h marked) hguard.symm

end Statement

/-- Reading undoes writing: of all statements with admissible fields, those that are read from
their text are the ones in whose text nothing is taken for something else. -/
theorem reading_undoes_writing {s : Statement} (h : s.IsAdmissible) (marked : Bool) :
    Statement.read (s.text marked) = s ↔ s.IsUnambiguous marked :=
  ⟨Statement.isUnambiguous_of_read h, Statement.read_text h⟩

/-- A guarded statement for a character in a variable. -/
def guardedMeeting : Statement :=
  ⟨some "变量.队友".toList, some "属性.体力 > 5 && 变量.次数 < 3".toList,
    .changeMutualRelation "友情".toList "变量.甲".toList "训练员".toList "随机(1, 6)".toList⟩

theorem guarded_meeting_is_read :
    guardedMeeting.IsAdmissible ∧
    guardedMeeting.text false =
      "变量.队友.双向关系变更(友情, 变量.甲/训练员, 随机(1, 6)) 若 属性.体力 > 5 && 变量.次数 < 3".toList ∧
    Statement.read (guardedMeeting.text false) = guardedMeeting := by
  have hadmissible : guardedMeeting.IsAdmissible := by
    refine ⟨?_, ?_, by decide, ⟨by decide, by decide⟩, by decide, by decide⟩
    · intro t ht
      obtain rfl := Option.some.inj ht
      exact ⟨by decide, .inr ⟨"队友".toList, rfl, by decide⟩⟩
    · intro g hg
      obtain rfl := Option.some.inj hg
      decide
  refine ⟨hadmissible, by decide, (reading_undoes_writing hadmissible false).mpr ⟨?_, ?_, ?_, ?_⟩⟩
  · intro t ht
    obtain rfl := Option.some.inj ht
    decide
  · intro t ht
    obtain rfl := Option.some.inj ht
    decide
  · intro g hg
    obtain rfl := Option.some.inj hg
    decide
  · intro h
    cases h

/-- A guard with the token for a guard in it. -/
def guardedTwice : Statement :=
  ⟨none, some "a 若 b".toList, .changeAttribute "体力".toList ['5']⟩

/-- A statement without a guard, but with an attribute called like the word for one. -/
def namedLikeGuard : Statement :=
  ⟨none, none, .changeAttribute ['若'] ['5']⟩

/-- A statement for a character called like the shorthand for the trainer. -/
def namedLikeShorthand : Statement :=
  ⟨some Statement.trainerShorthand, none, .removeTag ['A']⟩

/-- Admissible fields alone are not enough. -/
theorem admissible_statements_are_misread :
    (guardedTwice.IsAdmissible ∧ Statement.read (guardedTwice.text false) ≠ guardedTwice) ∧
    (namedLikeGuard.IsAdmissible ∧ Statement.read (namedLikeGuard.text false) ≠ namedLikeGuard) ∧
    (namedLikeShorthand.IsAdmissible ∧
      Statement.read (namedLikeShorthand.text false) ≠ namedLikeShorthand) := by
  have htwice : guardedTwice.IsAdmissible := by
    refine ⟨fun t ht => ?_, fun g hg => ?_, by decide, by decide⟩
    · cases ht
    · obtain rfl := Option.some.inj hg
      decide
  have hguard : namedLikeGuard.IsAdmissible := by
    refine ⟨fun t ht => ?_, fun g hg => ?_, by decide, by decide⟩
    · cases ht
    · cases hg
  have hshorthand : namedLikeShorthand.IsAdmissible := by
    refine ⟨fun t ht => ?_, fun g hg => ?_, (by decide : Text.IsSolid ['A'])⟩
    · obtain rfl := Option.some.inj ht
      exact ⟨by decide, .inl (by decide)⟩
    · cases hg
  refine ⟨⟨htwice, fun h => ?_⟩, ⟨hguard, fun h => ?_⟩, hshorthand, fun h => ?_⟩
  · exact absurd ((Statement.isUnambiguous_of_read htwice h).guarded _ rfl) (by decide)
  · exact absurd ((Statement.isUnambiguous_of_read hguard h).unguarded rfl) (by decide)
  · exact (Statement.isUnambiguous_of_read hshorthand h).direct _ rfl List.prefix_rfl

end EventScript
