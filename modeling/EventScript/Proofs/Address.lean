/-
Whom a statement is for.

A statement may begin with a target and a point.  The target can be the name of a character, or a
variable that refers to one; both are found in the same way, and the statement behind the point is
read in the same way, so they can stand for each other:

* `Statement.read_addressed` — a target comes off, and what is behind it is read as it stands;
* `World.resolve?_variable`, `World.resolve?_put` — a variable leads to the character that has been
  put into it, and whoever a word meant before is still meant by it;
* `execute_assignment` — what an assignment of a character does;
* `variables_are_transparent_targets` — so a statement for the variable is a statement for the
  character.

There are two exceptions, `variables_are_sometimes_opaque`: a variable called like the word for a
guard cannot be assigned with blanks around its name, and a character called like the mark of
variables, with another point behind the verb, is taken for the mark.
-/
import EventScript.Proofs.Guard
import EventScript.Proofs.Members

namespace EventScript

variable {n : Nat}

/-! ### Targets -/

namespace Statement

variable {a s t body : Text}

theorem isTargetPart_of_isWord {c : Char} (h : isWord c) : isTargetPart c := by
  have hblank := isBlank_eq_false_of_isWord h
  have hne : ∀ d, isWord d = false → c ≠ d := by
    rintro d hd rfl
    rw [h] at hd
    cases hd
  simp [isTargetPart, hblank, hne '.' (by decide), hne '(' (by decide), hne ')' (by decide)]

/-- What is split off behind something without white space is what is split off alone. -/
theorem splitGuard_append_of_solid (ha : ∀ c ∈ a, isBlank c = false) (hplain : ∀ c ∈ a, isPlain c)
    (hs : ∀ c ∈ s.head?, isBlank c = false) :
    splitGuard (a ++ s) = (a ++ (splitGuard s).1, (splitGuard s).2) := by
  have hspace : ' ' ∉ a := fun hc => absurd (ha ' ' hc) (by decide)
  rw [splitGuard, splitGuard, findLastTop?, findLastTop?, topOccurrences_guard_append hspace hplain,
    List.getLast?_map]
  cases (topOccurrences guardToken s).getLast? with
  | none => rfl
  | some i =>
    have hhead : ∀ c ∈ (s.take i).head?, isBlank c = false := by
      intro c hc
      obtain ⟨rest, hrest⟩ := List.head?_eq_some_iff.mp hc
      obtain ⟨more, hmore⟩ := List.take_prefix i s
      exact hs c (by rw [← hmore, hrest]; rfl)
    have hdrop : i + a.length + guardToken.length = a.length + (i + guardToken.length) := by omega
    dsimp only [Option.map_some]
    rw [hdrop, List.drop_length_add_append, Nat.add_comm i, List.take_length_add_append,
      Text.trim_append_of_solid ha hhead]

/-- The text before the guard begins like the whole text. -/
theorem head?_splitGuard (hs : ∀ c ∈ s.head?, isBlank c = false) :
    (splitGuard s).1.head? = s.head? := by
  rw [splitGuard]
  cases hlast : findLastTop? guardToken s with
  | none => rfl
  | some i =>
    obtain ⟨-, hbegins⟩ := prefix_drop_of_mem_topOccurrencesFrom
      (List.mem_of_getLast? hlast : i ∈ topOccurrences guardToken s)
    cases s with
    | nil => simp [guardToken] at hbegins
    | cons c rest =>
      have hc := hs c rfl
      cases i with
      | zero =>
        -- the token begins with a space
        obtain rfl := (List.cons_prefix_cons.mp hbegins).1
        cases hc
      | succ i =>
        show (Text.trim (c :: rest.take i)).head? = some c
        exact Text.head?_trim_of_solid hs

/-- A target, its point and a verb come apart. -/
theorem splitTargetAfter?_verb (mark : Text) (htne : t ≠ []) (ht : ∀ c ∈ t, isTargetPart c)
    {c : Char} (hbody : body.head? = some c) (hc : isVerbPart c) :
    splitTargetAfter? mark (t ++ '.' :: body) =
      some (mark ++ t, body.takeWhile isVerbPart, body.dropWhile isVerbPart) := by
  have hpoint : isTargetPart '.' = false := by decide
  obtain ⟨rest, rfl⟩ := List.head?_eq_some_iff.mp hbody
  have hverb : ((c :: rest).takeWhile isVerbPart).isEmpty = false := by
    rw [List.takeWhile_cons_of_pos hc]
    rfl
  rw [splitTargetAfter?, takeWhile_append_mark ht hpoint, dropWhile_append_mark ht hpoint]
  show (if t.isEmpty || ((c :: rest).takeWhile isVerbPart).isEmpty then none else _) = _
  rw [hverb, List.isEmpty_eq_false_iff.mpr htne]
  rfl

/-- A word is a target, unless it is the mark of variables and what follows names one. -/
theorem splitTarget?_word {word : Text} (hword : word.IsWord) {c : Char}
    (hbody : body.head? = some c) (hc : isVerbPart c)
    (hmark : word = "变量".toList → splitTargetAfter? variableMark body = none) :
    splitTarget? (word ++ '.' :: body) =
      some (word, body.takeWhile isVerbPart, body.dropWhile isVerbPart) := by
  have hparts : ∀ d ∈ word, isTargetPart d := fun d hd => isTargetPart_of_isWord (hword.all d hd)
  have hmarked : (Text.after? variableMark (word ++ '.' :: body)).bind
      (splitTargetAfter? variableMark) = none := by
    rw [Option.bind_eq_none_iff]
    intro u hu
    rw [eq_of_after?_variableMark hparts hu]
    refine hmark ?_
    have hcut : word ++ '.' :: body = "变量".toList ++ '.' :: u :=
      (Text.after?_eq_some_iff.mp hu).trans rfl
    have hpoint : isTargetPart '.' = false := by decide
    have htake := congrArg (List.takeWhile isTargetPart) hcut
    rw [takeWhile_append_mark hparts hpoint, takeWhile_append_mark (by decide) hpoint] at htake
    exact htake
  rw [splitTarget?, hmarked, Option.none_or,
    splitTargetAfter?_verb _ hword.ne_nil hparts hbody hc, List.nil_append]

/-- A variable is a target. -/
theorem splitTarget?_variable {key : Text} (hkey : key.IsWord) {c : Char}
    (hbody : body.head? = some c) (hc : isVerbPart c) :
    splitTarget? (variableMark ++ key ++ '.' :: body) =
      some (variableMark ++ key, body.takeWhile isVerbPart, body.dropWhile isVerbPart) := by
  have hparts : ∀ d ∈ key, isTargetPart d := fun d hd => isTargetPart_of_isWord (hkey.all d hd)
  have hafter : Text.after? variableMark (variableMark ++ (key ++ '.' :: body)) =
      some (key ++ '.' :: body) := Text.after?_eq_some_iff.mpr rfl
  rw [List.append_assoc, splitTarget?, hafter, Option.bind_some,
    splitTargetAfter?_verb _ hkey.ne_nil hparts hbody hc, Option.some_or]

/-- A target comes off, with its point, and what is behind it is read as it stands. -/
theorem read_addressed (ht : ∀ c ∈ t, isBlank c = false ∧ isPlain c)
    (hshort : ¬ trainerShorthand <+: t) (hs : ∀ c ∈ s.head?, isBlank c = false)
    {verb rest : Text}
    (hsplit : splitTarget? (t ++ '.' :: (splitGuard s.trim).1) = some (t, verb, rest)) :
    read (t ++ '.' :: s) = ⟨some t, (splitGuard s.trim).2, .read verb rest⟩ := by
  have hblank : ∀ c ∈ t ++ ['.'], isBlank c = false :=
    List.forall_mem_append.mpr ⟨fun c hc => (ht c hc).1, by decide⟩
  have hplain : ∀ c ∈ t ++ ['.'], isPlain c :=
    List.forall_mem_append.mpr ⟨fun c hc => (ht c hc).2, by decide⟩
  have hraw : (t ++ '.' :: s).trim = (t ++ ['.']) ++ s.trim := by
    rw [List.append_cons, Text.trim_append_of_solid hblank hs]
  have hexpand : expand (t ++ ['.'] ++ s.trim) = t ++ ['.'] ++ s.trim := by
    have hpoint : '.' ∉ trainerShorthand := by decide
    rw [expand, Text.after?_eq_none]
    rwa [List.append_assoc, List.singleton_append, ← List.isPrefixOf_iff_prefix,
      isPrefixOf_append_cons hpoint, List.isPrefixOf_iff_prefix]
  rw [read, hraw, hexpand, splitGuard_append_of_solid hblank hplain (Text.head?_trim s)]
  dsimp only
  rw [List.append_assoc, List.singleton_append, splitVerb?, hsplit]

end Statement

namespace Statement

variable {s t : Text}

/-- Known verbs begin with characters of verbs. -/
theorem exists_head_of_verb (hverb : ∃ v ∈ Operation.verbs.map Prod.fst, v <+: s) :
    ∃ c, s.head? = some c ∧ isVerbPart c ∧ isBlank c = false := by
  have hall : ∀ v ∈ Operation.verbs.map Prod.fst,
      v.head?.any fun c => isVerbPart c && !isBlank c := by decide
  obtain ⟨v, hv, rest, rfl⟩ := hverb
  obtain ⟨c, hhead, hboth⟩ := (Option.any_eq_true _ _).mp (hall v hv)
  obtain ⟨more, rfl⟩ := List.head?_eq_some_iff.mp hhead
  rw [Bool.and_eq_true, Bool.not_eq_true'] at hboth
  exact ⟨c, rfl, hboth⟩

/-- If no target can be taken off a text, none can be taken off its beginning. -/
theorem splitTargetAfter?_eq_none_of_isPrefix {body : Text} (mark : Text) (hbody : body <+: s)
    (h : ∀ c rest, s.dropWhile isTargetPart = '.' :: c :: rest → isVerbPart c = false) :
    splitTargetAfter? mark body = none := by
  rw [splitTargetAfter?]
  split
  · rename_i more hdrop
    have hverb : (more.takeWhile isVerbPart).isEmpty := by
      cases more with
      | nil => rfl
      | cons c rest =>
        obtain ⟨behind, rfl⟩ := hbody
        have hlong : (body ++ behind).dropWhile isTargetPart = '.' :: c :: (rest ++ behind) := by
          rw [List.dropWhile_append, hdrop]
          rfl
        rw [List.takeWhile_cons_of_neg (by simp [h c _ hlong])]
        rfl
    dsimp only
    rw [hverb, Bool.or_true, if_pos rfl]
  · rfl

/-- Behind the point, a verb and its arguments are read the same whatever the target is. -/
theorem exists_read_addressed (hverb : ∃ v ∈ Operation.verbs.map Prod.fst, v <+: s) :
    ∃ guard operation,
      (∀ key : Text, key.IsWord →
        read (variableMark ++ key ++ '.' :: s) = ⟨some (variableMark ++ key), guard, operation⟩) ∧
      ∀ word : Text, word.IsWord → ¬ trainerShorthand <+: word →
        (word = "变量".toList →
          ∀ c rest, s.dropWhile isTargetPart = '.' :: c :: rest → isVerbPart c = false) →
        read (word ++ '.' :: s) = ⟨some word, guard, operation⟩ := by
  obtain ⟨c, hhead, hc, hblank⟩ := exists_head_of_verb hverb
  have hs : ∀ d ∈ s.head?, isBlank d = false := by
    rintro d hd
    rw [hhead] at hd
    obtain rfl := Option.some.inj hd
    exact hblank
  have hbody : (splitGuard s.trim).1.head? = some c := by
    rw [head?_splitGuard (Text.head?_trim s), Text.head?_trim_of_solid hs, hhead]
  have hprefix : (splitGuard s.trim).1 <+: s :=
    (isPrefix_of_splitGuard (Text.head?_trim s)).trans (Text.isPrefix_trim hs)
  have hword : ∀ {word : Text}, word.IsWord → ∀ d ∈ word, isBlank d = false ∧ isPlain d :=
    fun h d hd => ⟨isBlank_eq_false_of_isWord (h.all d hd), isPlain_of_isWord (h.all d hd)⟩
  refine ⟨(splitGuard s.trim).2, .read ((splitGuard s.trim).1.takeWhile isVerbPart)
    ((splitGuard s.trim).1.dropWhile isVerbPart), fun key hkey => ?_,
    fun word hplain hshort hmark => ?_⟩
  · have hmarked : ∀ d ∈ variableMark ++ key, isBlank d = false ∧ isPlain d :=
      List.forall_mem_append.mpr ⟨by decide, hword hkey⟩
    have hlong : ¬ trainerShorthand <+: variableMark ++ key := fun hstart =>
      absurd (List.cons_prefix_cons.mp hstart).1 (by decide)
    exact read_addressed hmarked hlong hs (splitTarget?_variable hkey hbody hc)
  · exact read_addressed (hword hplain) hshort hs (splitTarget?_word hplain hbody hc fun heq =>
      splitTargetAfter?_eq_none_of_isPrefix _ hprefix (hmark heq))

theorem trim_addressed_ne_nil (t s : Text) : (t ++ '.' :: s).trim ≠ [] := by
  intro hnil
  have hpoint := Text.trim_eq_nil hnil '.' (by simp)
  cases hpoint

/-- A statement for somebody is not cut, if what is behind the point is not. -/
theorem topOccurrences_addressed (ht : ∀ c ∈ t, isPlain c) (hsemicolon : ';' ∉ t)
    (hcut : topOccurrences [';'] s = []) : topOccurrences [';'] (t ++ '.' :: s) = [] := by
  have hclosed : (Nesting.start.read (t ++ ['.'])).IsClosed :=
    Nesting.isClosed_start.read (List.forall_mem_append.mpr ⟨ht, by decide⟩)
  have hbefore : topOccurrences [';'] (t ++ ['.']) = [] :=
    topOccurrencesFrom_of_notMem (by simpa using hsemicolon) [] .start 0
  rw [List.append_cons]
  exact topOccurrences_append_eq_nil hclosed hbefore hcut

end Statement

/-! ### Who is meant -/

namespace World

variable {w : World n} {subject i : Seat n} {scope : Scope}

/-- The words that mean a character whatever names and variables there are. -/
def reservedWords : List Text :=
  ["当前角色".toList, "训练员".toList, "玩家".toList]

theorem resolve?_of_mem_reservedWords {word : Text} (h : word.trim ∈ reservedWords)
    (scope' : Scope) : w.resolve? subject scope word = w.resolve? subject scope' word := by
  simp only [reservedWords, List.mem_cons, List.not_mem_nil, or_false] at h
  rcases h with h | h | h
  all_goals
    rw [resolve?, resolve?, h]
    rfl

/-- All other words are names first, then variables, then ids. -/
theorem resolve?_of_notMem_reservedWords {word : Text} (hne : word.trim ≠ [])
    (h : word.trim ∉ reservedWords) :
    w.resolve? subject scope word =
      ((w.findNamed? (String.ofList word.trim)).or (w.ofVariable? scope word.trim)).or
        (w.find? (String.ofList word.trim)) := by
  simp only [reservedWords, List.mem_cons, List.not_mem_nil, or_false, not_or] at h
  obtain ⟨hself, htrainer, hplayer⟩ := h
  rw [resolve?, if_neg (by simpa using hne), if_neg hself, if_neg htrainer, if_neg hplayer]

/-- A variable that has just been put leads to the character that it refers to. -/
theorem ofVariable?_put (h : w.IsIdentified) {word key : Text} (hkey : variableKey word = key) :
    w.ofVariable? (scope.put (String.ofList key) (.reference (w.reference i))) word = some i := by
  rw [ofVariable?, hkey, Mapping.get?_put_self]
  exact h.find?_id i

/-- A variable leads to the character that it refers to, unless somebody has its name with the
mark. -/
theorem resolve?_variable (h : w.IsIdentified) {key : Text} (hkey : key.IsWord)
    (hnobody : w.findNamed? (String.ofList (variableMark ++ key)) = none) :
    w.resolve? subject (scope.put (String.ofList key) (.reference (w.reference i)))
      (variableMark ++ key) = some i := by
  have htrim : Text.trim (variableMark ++ key) = variableMark ++ key :=
    (isField_keyText hkey.isField true).trim_eq
  have hpoint : '.' ∈ variableMark ++ key := List.mem_append_left _ (by decide)
  have hne : Text.trim (variableMark ++ key) ≠ [] := htrim.symm ▸ List.cons_ne_nil _ _
  have hfree : ∀ word ∈ reservedWords, '.' ∉ word := by decide
  have hname : variableKey (variableMark ++ key) = key :=
    variableKey_keyText hkey.isField hkey.isKey.unmarked true
  rw [resolve?_of_notMem_reservedWords hne (fun hmem => hfree _ hmem (htrim.symm ▸ hpoint)), htrim,
    hnobody, ofVariable?_put h hname]
  rfl

/-- Whoever a word means is still meant by it once a variable refers to that character, even if
the variable is called like the word. -/
theorem resolve?_put (h : w.IsIdentified) {word : Text} (hword : word.IsWord)
    (hi : w.resolve? subject scope word = some i) (key : Text) :
    w.resolve? subject (scope.put (String.ofList key) (.reference (w.reference i))) word =
      some i := by
  by_cases hreserved : word.trim ∈ reservedWords
  · rw [resolve?_of_mem_reservedWords hreserved scope, hi]
  have hname : variableKey word = word :=
    variableKey_keyText hword.isField hword.isKey.unmarked false
  have hne : word.trim ≠ [] := hword.trim_eq.symm ▸ hword.ne_nil
  rw [resolve?_of_notMem_reservedWords hne hreserved, hword.trim_eq] at hi ⊢
  cases hfound : w.findNamed? (String.ofList word) with
  | some j => rwa [hfound] at hi
  | none =>
    rw [hfound] at hi
    by_cases hsame : word = key
    · rw [ofVariable?_put h (hname.trans hsame)]
      rfl
    · have hother : String.ofList key ≠ String.ofList word := fun heq =>
        hsame (String.ofList_injective heq).symm
      rw [ofVariable?, hname, Mapping.get?_put_of_ne _ hother]
      rwa [ofVariable?, hname] at hi

theorem findNamed?_eq_none {name : String}
    (h : ∀ j, (w.character j).name ≠ name ∧ (w.character j).template ≠ name) :
    w.findNamed? name = none := by
  rw [findNamed?, seek?, List.find?_eq_none]
  intro j _
  rw [Bool.or_eq_true, beq_iff_eq, beq_iff_eq, not_or]
  exact (h j).symm

end World

/-! ### Assigning a character -/

/-- The command that puts a character into a variable. -/
def assignment (key value : Text) : Text :=
  "设置变量 角色 ".toList ++ (key ++ (" = ".toList ++ value))

section Assignment

variable {K T : Text}

theorem assignment_eq_text (K T : Text) :
    assignment K T = (Operation.assign (some .character) K T).text false := by
  have hwords : Operation.joinWords [VariableType.character.word, K, ['='], T] =
      "角色".toList ++ ' ' :: (K ++ ' ' :: ('=' :: ' ' :: T)) := by
    rw [Operation.joinWords_cons_cons, Operation.joinWords_cons_cons,
      Operation.joinWords_cons_cons, Operation.joinWords_singleton]
    rfl
  show _ = "设置变量".toList ++ ' ' :: Operation.joinWords _
  rw [Operation.keyText, if_neg Bool.false_ne_true, hwords]
  rfl

theorem isAdmissible_assignment (hK : K.IsWord) (hT : T.IsWord) :
    (Operation.assign (some .character) K T).IsAdmissible :=
  ⟨hK.isKey, hT.isField⟩

/-- A word that means a character and is not a whole number is put into a variable as a reference
to that character. -/
theorem applyAssign_character {subject i : Seat n} {p : Progress n} (key : Text) (hT : T.IsWord)
    (hinteger : Text.integerLiteral? T = none) (hdrawn : ¬ "列表随机取值".toList <+: T)
    (hi : p.world.resolve? subject p.scope T = some i) :
    Operation.applyAssign subject (some .character) key T p =
      pure (.done (p.set key (.reference (p.world.reference i)))) := by
  -- the other questions to the cast have brackets
  have hquestion : ∀ {start : Text}, '(' ∈ start → start.isPrefixOf T = false := by
    intro start hopen
    rw [← Bool.not_eq_true, List.isPrefixOf_iff_prefix]
    exact fun hstart => hT.notMem (by decide : isWord '(' = false) (hstart.subset hopen)
  have hno : ∀ {start : String}, '(' ∈ start.toList → ¬ Operation.beginsWith start T := by
    intro start hopen
    rw [Operation.beginsWith, hquestion hopen]
    exact Bool.false_ne_true
  have hnotDrawn : ¬ Operation.beginsWith "列表随机取值" T := by
    rwa [Operation.beginsWith, List.isPrefixOf_iff_prefix]
  rw [Operation.applyAssign, if_neg (hno (by decide)), if_neg (hno (by decide)),
    if_neg (hno (by decide)), if_neg (hno (by decide)), if_neg hnotDrawn, Operation.assignPlain,
    hquestion (by decide), hinteger]
  show pure (Attempt.done (Operation.assignMeaning subject key T p)) = _
  rw [Operation.assignMeaning, hi]

/-- The command puts a reference to the character into the variable, and does nothing else. -/
theorem execute_assignment {w : World n} {subject i : Seat n} {scope : Scope} (hK : K.IsWord)
    (hT : T.IsWord) (hguard : K ≠ ['若']) (hinteger : Text.integerLiteral? T = none)
    (hdrawn : ¬ "列表随机取值".toList <+: T) (hi : w.resolve? subject scope T = some i) :
    execute w subject scope (assignment K T) =
      pure (((Progress.start w scope).set K (.reference (w.reference i))).record
        ⟨assignment K T, ⟨none, none, .assign (some .character) K T⟩, none⟩) := by
  have hmarks : ' ' ∉ T ∧ ';' ∉ T := ⟨hT.notMem (by decide), hT.notMem (by decide)⟩
  have happly := applyAssign_character (p := .start w scope) K hT hinteger hdrawn hi
  rw [assignment_eq_text, execute_assign _ hK hguard hT.isField hmarks, happly, pure_bind]
  rfl

end Assignment

/-! ### Statements for somebody -/

/-- What is brought about behind a progress by a command that begins afresh there. -/
def Effect.behind (p : Progress n) (e : Effect n) : Effect n :=
  { e with
    next := e.next.or p.next
    pause := if e.next.isSome then e.pause else p.pause
    skipped := p.effect.skipped ++ e.skipped }

theorem Progress.effect_followedBy (p q : Progress n) :
    (p.followedBy q).effect = q.effect.behind p := by
  rw [effect, followedBy, List.map_append]
  rfl

/-- What a text brings about depends on the actor, the guard and the operation of its statement. -/
theorem Statement.attemptText_congr {t t' : Text} {subject : Seat n} {p : Progress n}
    (hguard : (read t).guard = (read t').guard) (hop : (read t).operation = (read t').operation)
    (hactor : (read t).actor? subject p = (read t').actor? subject p) :
    attemptText t subject p = attemptText t' subject p := by
  rw [attemptText, attemptText, attempt, attempt, passes, passes, hguard, hop, hactor]

/-- What follows an assignment begins afresh where the assignment has ended. -/
theorem effect_execute_assignment {w : World n} {subject : Seat n} {scope : Scope} {K T : Text}
    (hK : K.IsWord) (hT : T.IsWord) {p : Progress n}
    (hp : execute w subject scope (assignment K T) = pure p) (t : Text) :
    Progress.effect <$> execute w subject scope (assignment K T ++ ';' :: ' ' :: t) =
      Effect.behind p <$> Progress.effect <$> execute p.world subject p.scope t := by
  have hclosed : (Nesting.start.read (assignment K T)).IsClosed := by
    rw [assignment_eq_text]
    have hfield := Statement.isField_text_operation (isAdmissible_assignment hK hT) false
    exact hfield.isBalanced.isClosed
  rw [execute_append hclosed, hp, pure_bind, execute_cons (by decide), map_bind,
    Functor.map_map, map_eq_pure_bind]
  refine bind_congr fun q => ?_
  rw [map_pure, Progress.effect_followedBy]

/-- Puts a character into a variable, and then has a statement carried out for somebody. -/
def assignThen (key value target s : Text) : Text :=
  assignment key value ++ ';' :: ' ' :: (target ++ '.' :: s)

/-- The word `T` means a character, and an assignment to the variable `K` takes it for one; the
statement `s`, which may be addressed to either, begins with a known verb and is not cut. -/
structure Addressing (w : World n) (subject : Seat n) (scope : Scope) (K T s : Text) (i : Seat n) :
    Prop where
  identified : w.IsIdentified
  key : K.IsWord
  word : T.IsWord
  unnamed : ∀ j, (w.character j).name ≠ String.ofList (variableMark ++ K) ∧
    (w.character j).template ≠ String.ofList (variableMark ++ K)
  noInteger : Text.integerLiteral? T = none
  notDrawn : ¬ "列表随机取值".toList <+: T
  notShort : ¬ Statement.trainerShorthand <+: T
  meant : w.resolve? subject scope T = some i
  verb : ∃ v ∈ Operation.verbs.map Prod.fst, v <+: s
  uncut : topOccurrences [';'] s = []

/-- A variable is as good a target as the character in it. Once a character has been put into a
variable, a statement that begins with a known verb does the same behind the variable and a point
as behind the word for the character: the cast, the variables, the jump, what is skipped and why,
and the dice are the same, and both are carried out by that character. The word may be reserved, a
name, a template, an id or a variable, the same one even. The variable must not be called like the
word for a guard; and a character called like the mark of variables must not be taken for the
mark. -/
theorem variables_are_transparent_targets {w : World n} {subject i : Seat n} {scope : Scope}
    {K T s : Text} (h : Addressing w subject scope K T s i) (hguard : K ≠ ['若'])
    (hmark : T = "变量".toList → ∀ c rest,
      s.dropWhile Statement.isTargetPart = '.' :: c :: rest → Statement.isVerbPart c = false) :
    (∃ p : Progress n, execute w subject scope (assignment K T) = pure p ∧ p.world = w ∧
      (Statement.read (variableMark ++ K ++ '.' :: s)).actor? subject p = some i ∧
      (Statement.read (T ++ '.' :: s)).actor? subject p = some i) ∧
    Progress.effect <$> execute w subject scope (assignThen K T (variableMark ++ K) s) =
      Progress.effect <$> execute w subject scope (assignThen K T T s) := by
  obtain ⟨guard, operation, hread⟩ := Statement.exists_read_addressed h.verb
  have hreadK := hread.1 K h.key
  have hreadT := hread.2 T h.word h.notShort hmark
  have hassign := execute_assignment h.key h.word hguard h.noInteger h.notDrawn h.meant
  generalize hp : ((Progress.start w scope).set K (.reference (w.reference i))).record _ = p
    at hassign
  have hworld : p.world = w := hp ▸ rfl
  have hscope : p.scope = scope.put (String.ofList K) (.reference (w.reference i)) := hp ▸ rfl
  have hactorK : (Statement.read (variableMark ++ K ++ '.' :: s)).actor? subject p = some i := by
    rw [hreadK, Statement.actor?, hworld, hscope]
    exact World.resolve?_variable h.identified h.key (World.findNamed?_eq_none h.unnamed)
  have hactorT : (Statement.read (T ++ '.' :: s)).actor? subject p = some i := by
    rw [hreadT, Statement.actor?, hworld, hscope]
    exact World.resolve?_put h.identified h.word h.meant K
  refine ⟨⟨p, hassign, hworld, hactorK, hactorT⟩, ?_⟩
  have hplain : ∀ {word : Text}, word.IsWord → ∀ c ∈ word, isPlain c :=
    fun hword c hc => isPlain_of_isWord (hword.all c hc)
  have hsemicolon : ∀ {word : Text}, word.IsWord → ';' ∉ word :=
    fun hword => hword.notMem (by decide)
  have hcutK : topOccurrences [';'] (variableMark ++ K ++ '.' :: s) = [] := by
    refine Statement.topOccurrences_addressed ?_ ?_ h.uncut
    · exact List.forall_mem_append.mpr ⟨by decide, hplain h.key⟩
    · exact List.mem_append.not.mpr (not_or.mpr ⟨by decide, hsemicolon h.key⟩)
  have hcutT : topOccurrences [';'] (T ++ '.' :: s) = [] :=
    Statement.topOccurrences_addressed (hplain h.word) (hsemicolon h.word) h.uncut
  rw [assignThen, assignThen, effect_execute_assignment h.key h.word hassign,
    effect_execute_assignment h.key h.word hassign,
    effect_execute_single (Statement.trim_addressed_ne_nil _ _) hcutK,
    effect_execute_single (Statement.trim_addressed_ne_nil _ _) hcutT]
  rw [Statement.attemptText_congr]
  · rw [hreadK, hreadT]
  · rw [hreadK, hreadT]
  · exact hactorK.trans hactorT.symm

/-- A statement with a guard of its own. -/
def tiringRun : Text :=
  "属性变更 体力 -5 若 属性.体力 > 50".toList

/-- The companion is put into a variable that has the same name. -/
theorem companion_under_two_names :
    Addressing pairWorld 0 .empty "特别周".toList "特别周".toList tiringRun 1 ∧
    Progress.effect <$> execute pairWorld 0 .empty
        (assignThen "特别周".toList "特别周".toList (variableMark ++ "特别周".toList) tiringRun) =
      Progress.effect <$> execute pairWorld 0 .empty
        (assignThen "特别周".toList "特别周".toList "特别周".toList tiringRun) := by
  have haddressing : Addressing pairWorld 0 .empty "特别周".toList "特别周".toList tiringRun 1 :=
    ⟨isIdentified_pairWorld, by decide +kernel, by decide +kernel, by decide, by decide, by decide,
      by decide, by decide, by decide, by decide⟩
  have hname : "特别周".toList ≠ "变量".toList := by decide
  exact ⟨haddressing, (variables_are_transparent_targets haddressing (by decide)
    fun heq => absurd heq hname).2⟩

/-! ### Where a variable is not seen through -/

/-- What follows a command that does not change anything decides about the jump. -/
theorem ensures_next_append {w w' : World n} {subject : Seat n} {scope scope' : Scope}
    {a t : Text} {next : Option Text} (ha : (Nesting.start.read a).IsClosed)
    (hfirst : Chance.Ensures (execute w subject scope a) fun p =>
      p.world = w' ∧ p.scope = scope' ∧ p.next = none)
    (hsecond : Chance.Ensures (execute w' subject scope' t) fun q => q.next = next) :
    Chance.Ensures (execute w subject scope (a ++ ';' :: ' ' :: t)) fun p => p.next = next := by
  rw [execute_append ha]
  refine .bind hfirst fun p ⟨hworld, hscope, hnone⟩ => ?_
  rw [hworld, hscope, execute_cons (by decide)]
  refine .bind hsecond fun q hq => .pure ?_
  show q.next.or p.next = next
  rw [hq, hnone, Option.or_none]

theorem ensures_next_single {w : World n} {subject : Seat n} {scope : Scope} {t : Text}
    {next : Option Text} (ht : t.trim ≠ []) (hcut : topOccurrences [';'] t = [])
    (h : Chance.Ensures (Statement.attemptText t subject (.start w scope)) fun a =>
      a.progress.next = next) :
    Chance.Ensures (execute w subject scope t) fun q => q.next = next := by
  rw [execute_single ht hcut]
  exact .bind h fun a ha => .pure ha

/-- Commands that jump elsewhere do not bring the same about. -/
theorem effect_ne_of_next {c c' : Chance (Progress n)} {next next' : Option Text}
    (hc : Chance.Ensures c fun p => p.next = next)
    (hc' : Chance.Ensures c' fun p => p.next = next') (hne : next ≠ next') :
    Progress.effect <$> c ≠ Progress.effect <$> c' := by
  intro heq
  have hnext := congrArg (fun e : Chance (Effect n) => (e.run (.fresh fun _ => 0)).1.next) heq
  exact hne ((hc _).symm.trans (hnext.trans (hc' _)))

/-- A variable called like the word for a guard is not assigned: the assignment is malformed,
whatever its guard says. -/
theorem guard_is_no_variable :
    Progress.effect <$> execute trainerWorld 0 .empty
        (assignThen "若".toList "甲".toList (variableMark ++ "若".toList) "跳转 e1".toList) ≠
      Progress.effect <$> execute trainerWorld 0 .empty
        (assignThen "若".toList "甲".toList "甲".toList "跳转 e1".toList) := by
  have hclosed : (Nesting.start.read (assignment "若".toList "甲".toList)).IsClosed :=
    ⟨by decide, by decide⟩
  have hread : Statement.read (assignment "若".toList "甲".toList) =
      ⟨none, some "= 甲".toList, .malformed "设置变量".toList⟩ := by decide
  have hattempt : Chance.Ensures (Statement.attemptText (assignment "若".toList "甲".toList) 0
      (.start trainerWorld .empty)) fun a => a.progress = .start trainerWorld .empty := by
    rw [Statement.attemptText, hread]
    refine .bind_of_forall fun passes => ?_
    cases passes <;> exact .pure rfl
  have hfirst : Chance.Ensures (execute trainerWorld 0 .empty (assignment "若".toList "甲".toList))
      fun p => p.world = trainerWorld ∧ p.scope = .empty ∧ p.next = none := by
    rw [execute_single (by decide) (by decide)]
    refine .bind hattempt fun a ha => .pure ?_
    rw [ha]
    exact ⟨rfl, rfl, rfl⟩
  -- nobody is in the variable, but the name is known
  have hvariable : Chance.Ensures (execute trainerWorld 0 .empty
      (variableMark ++ "若".toList ++ '.' :: "跳转 e1".toList)) fun q => q.next = none := by
    have hread : Statement.read (variableMark ++ "若".toList ++ '.' :: "跳转 e1".toList) =
        ⟨some "变量.若".toList, none, .jump "e1".toList false⟩ := by decide
    refine ensures_next_single (by decide) (by decide) ?_
    rw [Statement.attemptText, hread]
    exact fun _ => rfl
  have hname : Chance.Ensures (execute trainerWorld 0 .empty
      ("甲".toList ++ '.' :: "跳转 e1".toList)) fun q => q.next = some "e1".toList := by
    have hread : Statement.read ("甲".toList ++ '.' :: "跳转 e1".toList) =
        ⟨some "甲".toList, none, .jump "e1".toList false⟩ := by decide
    refine ensures_next_single (by decide) (by decide) ?_
    rw [Statement.attemptText, hread]
    exact fun _ => rfl
  exact effect_ne_of_next (ensures_next_append hclosed hfirst hvariable)
    (ensures_next_append hclosed hfirst hname) (by decide)

/-- A trainer called like the mark of variables. -/
def markWorld : World 1 :=
  ⟨.singleton (.plain "p1" "训练员" "变量"), 1, Settings.standard⟩

/-- Where a character is called like the mark of variables, a verb with a point behind it is taken
for a variable. -/
theorem verb_is_no_variable :
    Progress.effect <$> execute markWorld 0 .empty
        (assignThen "队友".toList "变量".toList (variableMark ++ "队友".toList) "跳转.e1".toList) ≠
      Progress.effect <$> execute markWorld 0 .empty
        (assignThen "队友".toList "变量".toList "变量".toList "跳转.e1".toList) := by
  have hclosed : (Nesting.start.read (assignment "队友".toList "变量".toList)).IsClosed :=
    ⟨by decide, by decide⟩
  have hfirst : Chance.Ensures (execute markWorld 0 .empty (assignment "队友".toList "变量".toList))
      fun p => p.world = markWorld ∧
        p.scope = Mapping.put .empty "队友" (.reference ⟨"p1", "变量"⟩) ∧ p.next = none := by
    have hkey : Text.IsWord "队友".toList := by decide +kernel
    have hword : Text.IsWord "变量".toList := by decide +kernel
    have hmeant : markWorld.resolve? 0 .empty "变量".toList = some 0 := by decide
    rw [execute_assignment hkey hword (by decide) (by decide) (by decide) hmeant]
    exact .pure ⟨rfl, rfl, rfl⟩
  have hvariable : Chance.Ensures (execute markWorld 0
      (Mapping.put .empty "队友" (.reference ⟨"p1", "变量"⟩))
      (variableMark ++ "队友".toList ++ '.' :: "跳转.e1".toList)) fun q =>
        q.next = some ".e1".toList := by
    have hread : Statement.read (variableMark ++ "队友".toList ++ '.' :: "跳转.e1".toList) =
        ⟨some "变量.队友".toList, none, .jump ".e1".toList false⟩ := by decide
    refine ensures_next_single (by decide) (by decide) ?_
    rw [Statement.attemptText, hread]
    exact fun _ => rfl
  have hname : Chance.Ensures (execute markWorld 0
      (Mapping.put .empty "队友" (.reference ⟨"p1", "变量"⟩))
      ("变量".toList ++ '.' :: "跳转.e1".toList)) fun q => q.next = none := by
    have hread : Statement.read ("变量".toList ++ '.' :: "跳转.e1".toList) =
        ⟨some "变量.跳转".toList, none, .unknown "e1".toList⟩ := by decide
    refine ensures_next_single (by decide) (by decide) ?_
    rw [Statement.attemptText, hread]
    exact fun _ => rfl
  exact effect_ne_of_next (ensures_next_append hclosed hfirst hvariable)
    (ensures_next_append hclosed hfirst hname) (by decide)

/-- The first variable cannot be assigned, since its name is taken for the word for a guard. The
second one can be; but when the character is called by name, the verb is taken for the name of a
variable. -/
theorem variables_are_sometimes_opaque :
    (Addressing trainerWorld 0 .empty "若".toList "甲".toList "跳转 e1".toList 0 ∧
      Text.IsBalanced "跳转 e1".toList ∧
      Progress.effect <$> execute trainerWorld 0 .empty
          (assignThen "若".toList "甲".toList (variableMark ++ "若".toList) "跳转 e1".toList) ≠
        Progress.effect <$> execute trainerWorld 0 .empty
          (assignThen "若".toList "甲".toList "甲".toList "跳转 e1".toList)) ∧
    (Addressing markWorld 0 .empty "队友".toList "变量".toList "跳转.e1".toList 0 ∧
      Text.IsBalanced "跳转.e1".toList ∧
      Progress.effect <$> execute markWorld 0 .empty
          (assignThen "队友".toList "变量".toList (variableMark ++ "队友".toList) "跳转.e1".toList) ≠
        Progress.effect <$> execute markWorld 0 .empty
          (assignThen "队友".toList "变量".toList "变量".toList "跳转.e1".toList)) := by
  have htrainer : trainerWorld.IsIdentified := ⟨by decide, by decide⟩
  have hmark : markWorld.IsIdentified := ⟨by decide, by decide⟩
  have hguarded : Addressing trainerWorld 0 .empty "若".toList "甲".toList "跳转 e1".toList 0 :=
    ⟨htrainer, by decide +kernel, by decide +kernel, by decide, by decide, by decide, by decide,
      by decide, by decide, by decide⟩
  have hmarked : Addressing markWorld 0 .empty "队友".toList "变量".toList "跳转.e1".toList 0 :=
    ⟨hmark, by decide +kernel, by decide +kernel, by decide, by decide, by decide, by decide,
      by decide, by decide, by decide⟩
  exact ⟨⟨hguarded, by decide, guard_is_no_variable⟩, ⟨hmarked, by decide, verb_is_no_variable⟩⟩

end EventScript
