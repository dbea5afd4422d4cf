/-
Statements and scripts.

A statement is written `[target.]verb arguments[ 若 condition]`.  The target names the
character who acts in place of the acting one, and the condition guards the statement.  A
script is a list of statements separated by semicolons at the top level.

`Statement.read` takes a statement apart; `Script.read` also reads the scripts that
statements carry out for the members of a list, so that a script is a finite tree.  The
body of such a statement opens fewer brackets than the statement
(`Statement.openers_body_lt`).
-/
import EventScript.Script.Operation

namespace EventScript

/-- A statement taken apart. -/
structure Statement where
  target : Option Text
  guard : Option Text
  operation : Operation
  deriving DecidableEq, Repr

namespace Statement

/-! ### Parts of a statement -/

/-- The token between a statement and its guard. -/
def guardToken : Text := " 若 ".toList

/-- A short way to change an attribute of the trainer, and what it stands for. -/
def trainerShorthand : Text := "训练员属性变更".toList

@[inherit_doc trainerShorthand]
def trainerLonghand : Text := "训练员.属性变更".toList

/-- Writes the shorthand out. -/
def expand (t : Text) : Text :=
  match Text.after? trainerShorthand t with
  | some rest => trainerLonghand ++ rest
  | none => t

/-- Splits off the guard, at the last token for it. A blank guard is none. -/
def splitGuard (t : Text) : Text × Option Text :=
  match findLastTop? guardToken t with
  | some i =>
    let guard := Text.trim (t.drop (i + guardToken.length))
    (Text.trim (t.take i), if guard.isEmpty then none else some guard)
  | none => (t, none)

/-- The characters of a target. -/
def isTargetPart (c : Char) : Bool :=
  !isBlank c && c != '.' && c != '(' && c != ')'

/-- The characters of a verb after a target. -/
def isVerbPart (c : Char) : Bool :=
  !isBlank c && c != '.' && c != '('

/-- The characters of a verb without a target. -/
def isLoneVerbPart (c : Char) : Bool :=
  !isBlank c && c != '('

/-- Splits `target.verb rest`, where `mark` has been read of the target already. -/
def splitTargetAfter? (mark t : Text) : Option (Text × Text × Text) :=
  let target := t.takeWhile isTargetPart
  match t.dropWhile isTargetPart with
  | '.' :: more =>
    let verb := more.takeWhile isVerbPart
    if target.isEmpty || verb.isEmpty then none
    else some (mark ++ target, verb, more.dropWhile isVerbPart)
  | _ => none

/-- Splits `target.verb rest`. The target may be marked as a variable. -/
def splitTarget? (t : Text) : Option (Text × Text × Text) :=
  ((Text.after? variableMark t).bind (splitTargetAfter? variableMark)).or (splitTargetAfter? [] t)

/-- Splits a text into a target, if it has one, a verb and the rest. -/
def splitVerb? (t : Text) : Option (Option Text × Text × Text) :=
  match splitTarget? t with
  | some (target, verb, rest) => some (some target, verb, rest)
  | none =>
    let verb := t.takeWhile isLoneVerbPart
    if verb.isEmpty then none else some (none, verb, t.dropWhile isLoneVerbPart)

/-- Reads a statement. Without a verb it is malformed, whatever else it has. -/
def read (raw : Text) : Statement :=
  let (t, guard) := splitGuard (expand (Text.trim raw))
  match splitVerb? t with
  | some (target, verb, rest) => ⟨target, guard, .read verb rest⟩
  | none => ⟨none, none, .malformed []⟩

/-! ### Sizes -/

theorem openers_expand (t : Text) : openers (expand t) = openers t := by
  unfold expand
  split
  · rename_i rest h
    rw [Text.after?_eq_some_iff.1 h]
    simp only [openers, List.countP_append]
    have h₁ : List.countP isOpener trainerLonghand = 0 := by decide
    have h₂ : List.countP isOpener trainerShorthand = 0 := by decide
    rw [h₁, h₂]
  · rfl

theorem openers_splitGuard_le (t : Text) : openers (splitGuard t).1 ≤ openers t := by
  unfold splitGuard
  split
  · exact Nat.le_trans (openers_trim_le _) (openers_le_of_sublist (List.take_sublist _ _))
  · exact Nat.le_refl _

theorem splitTargetAfter?_sublist {mark t target verb rest : Text}
    (h : splitTargetAfter? mark t = some (target, verb, rest)) : rest.Sublist t := by
  unfold splitTargetAfter? at h
  simp only at h
  split at h
  · rename_i more hmore
    split at h
    · simp at h
    · obtain ⟨-, -, rfl⟩ := by simpa using h
      have h₁ : (more.dropWhile isVerbPart).Sublist more := List.dropWhile_sublist _
      have h₂ : more.Sublist (t.dropWhile isTargetPart) := hmore ▸ List.sublist_cons_self _ _
      exact (h₁.trans h₂).trans (List.dropWhile_sublist _)
  · simp at h

theorem splitVerb?_sublist {t verb rest : Text} {target : Option Text}
    (h : splitVerb? t = some (target, verb, rest)) : rest.Sublist t := by
  unfold splitVerb? splitTarget? at h
  split at h
  · rename_i a b c hs
    obtain ⟨-, -, rfl⟩ := by simpa using h
    rcases Option.or_eq_some_iff.1 hs with hs | ⟨-, hs⟩
    · obtain ⟨u, hu, hs⟩ := Option.bind_eq_some_iff.1 hs
      exact (splitTargetAfter?_sublist hs).trans (Text.after?_sublist hu)
    · exact splitTargetAfter?_sublist hs
  · simp only at h
    split at h
    · simp at h
    · obtain ⟨-, -, rfl⟩ := by simpa using h
      exact List.dropWhile_sublist _

theorem openers_joinArguments (args : List Text) :
    openers (Operation.joinArguments args) = openers args.flatten := by
  unfold Operation.joinArguments Text.joinWith
  induction args with
  | nil => rfl
  | cons a rest ih =>
    cases rest with
    | nil => simp
    | cons b rest =>
      rw [List.intercalate_cons_cons]
      simp only [openers, List.countP_append, List.flatten_cons] at ih ⊢
      rw [ih]
      have : List.countP isOpener [',', ' '] = 0 := by decide
      omega

theorem openers_flatten_map_trim_le (ts : List Text) :
    openers (ts.map Text.trim).flatten ≤ openers ts.flatten := by
  induction ts with
  | nil => simp
  | cons t ts ih =>
    have := openers_trim_le t
    simp only [openers, List.map_cons, List.flatten_cons, List.countP_append] at *
    omega

/-- The arguments in brackets, taken together, open fewer brackets than their text. -/
theorem openers_arguments_lt {t : Text} {args : List Text} (h : arguments? t = some args) :
    openers args.flatten < openers t := by
  unfold arguments? at h
  obtain ⟨inside, hinside, rfl⟩ := Option.map_eq_some_iff.1 h
  have h₁ := openers_flatten_map_trim_le (splitTop [','] inside)
  have h₂ := openers_le_of_sublist (splitTopFrom_flatten_sublist [','] .start 0 inside)
  have h₃ := openers_unwrap_lt hinside
  unfold splitTop at h₁ ⊢
  omega

theorem openers_forEach_lt_of_readListCall {make : Text → Text → Operation}
    {verb rest list command : Text}
    (hmake : ∀ a b, make a b = .forEach list command → b = command)
    (h : Operation.readListCall make verb rest = .forEach list command) :
    openers command < openers rest := by
  unfold Operation.readListCall at h
  split at h
  · rename_i l a more hargs
    simp only at h
    split at h
    · simp at h
    · obtain rfl := hmake _ _ h
      have h₁ := openers_trim_le (Operation.joinArguments (a :: more))
      rw [openers_joinArguments] at h₁
      have h₂ := openers_arguments_lt hargs
      simp only [openers, List.flatten_cons, List.countP_append] at h₁ h₂ ⊢
      omega
  · simp at h

/-- The command in an operation opens fewer brackets than the arguments it was read from. -/
theorem openers_forEach_lt {verb rest list command : Text}
    (h : Operation.read verb rest = .forEach list command) : openers command < openers rest := by
  unfold Operation.read at h
  split at h
  · rename_i v go hfind
    have hmem := List.mem_of_find?_eq_some hfind
    refine Nat.lt_of_lt_of_le ?_ (openers_trim_le rest)
    generalize Text.trim rest = arguments at h ⊢
    simp only [Operation.verbs, List.mem_cons, Prod.mk.injEq, List.not_mem_nil, or_false] at hmem
    rcases hmem with ⟨-, rfl⟩ | ⟨-, rfl⟩ | ⟨-, rfl⟩ | ⟨-, rfl⟩ | ⟨-, rfl⟩ | ⟨-, rfl⟩ | ⟨-, rfl⟩ |
      ⟨-, rfl⟩ | ⟨-, rfl⟩ | ⟨-, rfl⟩ | ⟨-, rfl⟩ | ⟨-, rfl⟩ | ⟨-, rfl⟩ | ⟨-, rfl⟩ | ⟨-, rfl⟩ |
      ⟨-, rfl⟩ | ⟨-, rfl⟩ | ⟨-, rfl⟩
    case inr.inr.inr.inr.inr.inr.inr.inr.inr.inr.inr.inr.inr.inr.inr.inl =>
      exact openers_forEach_lt_of_readListCall (fun _ _ e => (Operation.forEach.inj e).2) h
    all_goals
      exfalso
      simp only [Operation.readRelation, Operation.readRelationCall, Operation.readMutual,
        Operation.readAssignment, Operation.readComputation, Operation.readListCall,
        Operation.readJump] at h
      repeat' split at h
      all_goals simp at h
  · simp at h

/-- The command that a statement carries out for the members of a list opens fewer brackets
than the statement. -/
theorem openers_body_lt {raw list command : Text}
    (h : (read raw).operation = .forEach list command) : openers command < openers raw := by
  unfold read at h
  simp only at h
  split at h
  · rename_i target verb rest hs
    have h₁ := openers_forEach_lt h
    have h₂ := openers_le_of_sublist (splitVerb?_sublist hs)
    have h₃ := openers_splitGuard_le (expand (Text.trim raw))
    have h₄ := openers_expand (Text.trim raw)
    have h₅ := openers_trim_le raw
    omega
  · simp at h

end Statement

/-! ### Scripts -/

/-- A statement of a script, with its text and the script that it carries out for the
members of a list. -/
inductive Step where
  | mk (raw : Text) (statement : Statement) (body : List Step)
  deriving Repr

/-- The texts of the statements of a command. Blank ones do not count. -/
def splitStatements (command : Text) : List Text :=
  ((splitTop [';'] command).map Text.trim).filter (! ·.isEmpty)

theorem openers_le_of_mem_splitStatements {command raw : Text}
    (h : raw ∈ splitStatements command) : openers raw ≤ openers command := by
  obtain ⟨p, hp, rfl⟩ := List.mem_map.1 (List.mem_filter.1 h).1
  exact Nat.le_trans (openers_trim_le p) (openers_le_of_sublist (sublist_of_mem_splitTop hp))

/-- A command taken apart. -/
abbrev Script := List Step

/-- Reads a command. -/
def Script.read (command : Text) : Script :=
  (splitStatements command).attach.map fun ⟨raw, hraw⟩ =>
    match h : (Statement.read raw).operation with
    | .forEach _ body =>
      have := Statement.openers_body_lt h
      have := openers_le_of_mem_splitStatements hraw
      .mk raw (Statement.read raw) (read body)
    | _ => .mk raw (Statement.read raw) []
  termination_by openers command
  decreasing_by omega

end EventScript
