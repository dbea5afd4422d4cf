/-
Single statements in plain words.

A command often is one statement without a target and a guard, and its amount a whole number
that is written out.  Such a command does exactly what its operation does:

* `Numeral` — a text that is a whole number and nothing else, and can be read;
* `Numeral.readInteger?_between` — where a text starts with it, that number is read;
* `Numeral.evaluateQuantity_eq` — unless a variable has its digits for a name, it stands for that
  number;
* `Operation.read_text` — the written operation is read as a statement without target and guard;
* `execute_text` — and carrying out the command is carrying out the operation, in particular
  `execute_words` if its arguments are single words, and `execute_assign` for assignments.
-/
import EventScript.Proofs.Deed
import EventScript.Proofs.Roundtrip
import EventScript.Proofs.Sequence

namespace EventScript

/-! ### Digits -/

theorem digitValue?_of_isDigit {c : Char} (h : c.isDigit = true) :
    digitValue? c = some (c.toNat - '0'.toNat) := by
  have hbounds : 48 ≤ c.toNat ∧ c.toNat ≤ 57 := by
    simp only [Char.isDigit, Bool.and_eq_true, decide_eq_true_eq, UInt32.le_iff_toNat_le,
      ge_iff_le] at h
    exact h
  have hfirst : (digitZeros.find? fun z => decide (c.toNat < z + 10)) = some 48 := by
    rw [digitZeros, List.find?_cons_of_pos]
    exact decide_eq_true (by omega)
  rw [digitValue?, hfirst, Option.bind_some, if_pos hbounds.1]
  rfl

theorem isDigit_of_isDigit {c : Char} (h : c.isDigit = true) : isDigit c = true := by
  rw [isDigit, digitValue?_of_isDigit h]
  rfl

theorem digitsValue_eq_ofDigitChars {t : Text} (h : ∀ c ∈ t, c.isDigit = true) :
    digitsValue t = Nat.ofDigitChars 10 t 0 := by
  have key : ∀ m, t.foldl (fun n c => 10 * n + (digitValue? c).getD 0) m =
      Nat.ofDigitChars 10 t m := by
    induction t with
    | nil => exact fun m => rfl
    | cons c rest ih =>
      obtain ⟨hc, hrest⟩ := List.forall_mem_cons.mp h
      intro m
      rw [List.foldl_cons, digitValue?_of_isDigit hc, ih hrest, Nat.ofDigitChars_cons]
      rfl
  exact key 0

/-- What follows a text does not change its sign. -/
theorem Text.readSign_append {t : Text} (h : t ≠ []) (u : Text) :
    readSign (t ++ u) = ((readSign t).1, (readSign t).2 ++ u) := by
  obtain ⟨c, rest, rfl⟩ := List.exists_cons_of_ne_nil h
  rw [readSign.eq_def (c :: rest)]
  split
  · rename_i more heq
    obtain ⟨rfl, rfl⟩ := List.cons.inj heq
    rfl
  · rename_i more heq
    obtain ⟨rfl, rfl⟩ := List.cons.inj heq
    rfl
  · rename_i hminus hplus
    refine readSign.eq_3 _ ?_ ?_
    · exact fun more heq => hminus rest (by rw [(List.cons.inj heq).1])
    · exact fun more heq => hplus rest (by rw [(List.cons.inj heq).1])

/-! ### Numerals -/

/-- A text that is a whole number and nothing else, with no more digits than can be read, and the
number. -/
structure Numeral where
  text : Text
  value : Int
  reads : Text.integerLiteral? text = some value
  short : text.IsShort

/-- The characters of numerals. -/
def isNumeralPart (c : Char) : Bool :=
  isDigit c || c == '+' || c == '-'

/-- White space does not stand in numerals. -/
theorem isBlank_eq_false_of_isNumeralPart {c : Char} (h : isNumeralPart c) :
    isBlank c = false := by
  have hall : ∀ k ∈ blankPoints, ((digitZeros.find? fun z => decide (k < z + 10)).bind fun z =>
      if z ≤ k then some (k - z) else none) = none := by decide +kernel
  rw [← Bool.not_eq_true]
  intro hblank
  rw [isNumeralPart, Bool.or_eq_true, Bool.or_eq_true, beq_iff_eq, beq_iff_eq] at h
  rcases h with (hdigit | rfl) | rfl
  · rw [isDigit, digitValue?, hall _ (toNat_mem_of_isBlank hblank)] at hdigit
    cases hdigit
  · cases hblank
  · cases hblank

theorem topOccurrencesFrom_of_notMem {x : Char} {t : Text} (hx : x ∉ t) (more : Text)
    (s : Nesting) (i : Nat) : topOccurrencesFrom (x :: more) s i t = [] := by
  have h := topOccurrencesFrom_append_of_notMem hx more s i []
  rw [List.append_nil] at h
  rw [h]
  rfl

/-- Where a token begins, it has to go on. -/
theorem topOccurrencesFrom_append_mark {x : Char} {a b more : Text} (ha : x ∉ a)
    (hb : ¬ more <+: b) (s : Nesting) (i : Nat) :
    topOccurrencesFrom (x :: more) s i (a ++ x :: b) =
      topOccurrencesFrom (x :: more) ((s.read a).step x) (i + a.length + 1) b := by
  have hnot : (x :: more).isPrefixOf (x :: b) = false := by
    rw [← Bool.not_eq_true, List.isPrefixOf_iff_prefix, List.cons_prefix_cons]
    exact fun h => hb h.2
  rw [topOccurrencesFrom_append_of_notMem ha, topOccurrencesFrom, hnot, Bool.and_false]
  rfl

/-- Among words with single spaces between them, only the word for a guard begins one. -/
theorem not_isPrefix_guard {word : Text} (hsolid : ' ' ∉ word) (hne : word ≠ ['若']) (rest : Text) :
    ¬ ['若', ' '] <+: word ++ ' ' :: rest := by
  intro hstart
  cases word with
  | nil => exact absurd (List.cons_prefix_cons.mp hstart).1 (by decide)
  | cons c more =>
    rw [List.cons_append, List.cons_prefix_cons] at hstart
    obtain ⟨rfl, hspace⟩ := hstart
    cases more with
    | nil => exact hne rfl
    | cons d more =>
      rw [List.cons_append, List.cons_prefix_cons] at hspace
      exact hsolid (by rw [← hspace.1]; simp)

namespace Numeral

variable (v : Numeral)

theorem readSign_eq : ∃ negative digits, Text.readSign v.text = (negative, digits) ∧
    digits ≠ [] ∧ (∀ c ∈ digits, isDigit c) ∧
    v.value = Text.withSign negative (digitsValue digits) := by
  obtain ⟨text, value, reads, -⟩ := v
  rw [Text.integerLiteral?] at reads
  dsimp only at reads
  split at reads
  · rename_i h
    rw [Bool.and_eq_true, Bool.not_eq_true', List.isEmpty_eq_false_iff, List.all_eq_true] at h
    exact ⟨_, _, rfl, h.1, h.2, (Option.some.inj reads).symm⟩
  · cases reads

theorem ne_nil : v.text ≠ [] := by
  intro h
  have hreads := v.reads
  rw [h] at hreads
  cases hreads

theorem parts : ∀ c ∈ v.text, isNumeralPart c := by
  obtain ⟨negative, digits, hsign, -, hdigits, -⟩ := v.readSign_eq
  have hpart : ∀ c ∈ digits, isNumeralPart c := by
    intro c hc
    rw [isNumeralPart, hdigits c hc]
    rfl
  rw [Text.readSign.eq_def] at hsign
  split at hsign
  · rename_i rest htext
    obtain ⟨-, rfl⟩ := Prod.mk.inj hsign
    rw [htext]
    exact List.forall_mem_cons.mpr ⟨rfl, hpart⟩
  · rename_i rest htext
    obtain ⟨-, rfl⟩ := Prod.mk.inj hsign
    rw [htext]
    exact List.forall_mem_cons.mpr ⟨rfl, hpart⟩
  · obtain ⟨-, rfl⟩ := Prod.mk.inj hsign
    exact hpart

theorem notMem {d : Char} (hd : isNumeralPart d = false) : d ∉ v.text := by
  intro hmem
  rw [v.parts d hmem] at hd
  cases hd

theorem isSolid : v.text.IsSolid := by
  have hsolid : ∀ c ∈ v.text, isBlank c = false := fun c hc =>
    isBlank_eq_false_of_isNumeralPart (v.parts c hc)
  refine ⟨⟨v.ne_nil, ?_, ?_⟩, hsolid⟩
  · exact Text.trim_eq_self (fun c hc => hsolid c (List.mem_of_mem_head? hc))
      (fun c hc => hsolid c (List.mem_of_mem_getLast? hc))
  · refine Text.isBalanced_of_isPlain fun c hc => ?_
    exact isPlain_of_notMem (notMem_of_all_not (v.parts c hc) (by decide))

theorem isArgument : v.text.IsArgument :=
  ⟨v.isSolid.toIsField, topOccurrencesFrom_of_notMem (v.notMem (by decide)) [] .start 0⟩

theorem isSpaced : v.text.IsSpaced := by
  refine ⟨v.isSolid.toIsField, [v.text], ?_, (Operation.joinWords_singleton _).symm⟩
  exact List.forall_mem_singleton.mpr v.isSolid.isRun

/-- What begins otherwise than numerals do is not the start of one. -/
theorem not_isPrefix {x : Char} (hx : isNumeralPart x = false) (more : Text) :
    ¬ (x :: more) <+: v.text :=
  fun h => v.notMem hx (h.subset List.mem_cons_self)

/-- A numeral is no reading of a character. -/
theorem read?_eq_none : Accessor.read? v.text = none := by
  have hnone : ∀ {x : Char} (more : Text), isNumeralPart x = false →
      Text.after? (x :: more) v.text = none :=
    fun more hx => Text.after?_eq_none (v.not_isPrefix hx more)
  -- a selector would end at a point
  have hselector : v.text.dropWhile isSelectorPart = [] := by
    rw [List.dropWhile_eq_nil_iff]
    intro c hc
    have hstop : c ∉ selectorStops := notMem_of_all_not (v.parts c hc) (by decide)
    have hblank := isBlank_eq_false_of_isNumeralPart (v.parts c hc)
    simp [isSelectorPart, hblank, hstop]
  have hsplit : splitSelector v.text = (none, v.text) := by
    rw [splitSelector, v.isSolid.trim_eq, hselector]
  have hreading : Reading.read? v.text = none := by
    have hstat : Text.after? "属性.".toList v.text = none := hnone _ (by decide)
    have hlayers : Text.after? "标签组(".toList v.text = none := hnone _ (by decide)
    have hrelation : Text.after? "关系.".toList v.text = none := hnone _ (by decide)
    rw [Reading.read?, hstat, hlayers, hrelation]
  rw [Accessor.read?, hsplit]
  dsimp only
  rw [hreading]
  rfl

theorem quantity_eq : Quantity.read v.text = .bare v.text := by
  have hmark : variableMark.isPrefixOf v.text = false := by
    rw [← Bool.not_eq_true, List.isPrefixOf_iff_prefix]
    exact v.not_isPrefix (by decide) _
  have hrandom : (randomWord ++ ['(']).isPrefixOf v.text = false := by
    rw [← Bool.not_eq_true, List.isPrefixOf_iff_prefix]
    exact v.not_isPrefix (by decide) _
  have hteam : v.text ≠ "队伍人数".toList := by
    intro h
    exact v.not_isPrefix (x := '队') (by decide) "伍人数".toList (h ▸ List.prefix_rfl)
  rw [Quantity.read.eq_def]
  simp only [v.isSolid.trim_eq, hmark, hrandom, hteam, List.isEmpty_eq_false_iff.mpr v.ne_nil,
    Quantity.readSimple, v.read?_eq_none, Bool.false_eq_true, if_false]

section Between

variable {before after : Text}

/-- White space in front of a numeral, and what follows it, do not change its sign. -/
theorem readSign_between (hbefore : ∀ c ∈ before, isBlank c) (after : Text) :
    Text.readSign (Text.trimStart (before ++ (v.text ++ after))) =
      ((Text.readSign v.text).1, (Text.readSign v.text).2 ++ after) := by
  have hstart : Text.trimStart (before ++ (v.text ++ after)) = v.text ++ after := by
    rw [Text.trimStart, List.dropWhile_append_of_pos hbefore]
    refine Text.trimStart_eq_self fun c hc => ?_
    rw [List.head?_append_of_ne_nil _ v.ne_nil] at hc
    exact v.isSolid.solid c (List.mem_of_mem_head? hc)
  rw [hstart, Text.readSign_append v.ne_nil]

/-- If no more digits follow, the digits that a text starts with are those of the numeral. -/
theorem leadingDigits_between (hbefore : ∀ c ∈ before, isBlank c)
    (hafter : ∀ c ∈ after.head?, isDigit c = false) :
    Text.leadingDigits (before ++ (v.text ++ after)) = (Text.readSign v.text).2 := by
  obtain ⟨negative, digits, hsign, -, hdigits, -⟩ := v.readSign_eq
  have hrest : after.takeWhile isDigit = [] := by
    cases after with
    | nil => rfl
    | cons c rest => exact List.takeWhile_cons_of_neg (by simp [hafter c rfl])
  rw [Text.leadingDigits, v.readSign_between hbefore, hsign,
    List.takeWhile_append_of_pos hdigits, hrest, List.append_nil]

/-- A text that starts with a numeral, after white space, starts with its number, if no more digits
follow. -/
theorem leadingInteger_between (hbefore : ∀ c ∈ before, isBlank c)
    (hafter : ∀ c ∈ after.head?, isDigit c = false) (default : Int) :
    Text.leadingInteger (before ++ (v.text ++ after)) default = v.value := by
  obtain ⟨negative, digits, hsign, hne, -, hvalue⟩ := v.readSign_eq
  rw [Text.leadingInteger, Text.leadingInteger?, v.leadingDigits_between hbefore hafter,
    v.readSign_between hbefore, hsign]
  dsimp only
  rw [if_neg (by simpa using hne), hvalue]
  rfl

theorem leadingInteger_eq : Text.leadingInteger v.text 0 = v.value := by
  have hnothing : ∀ c ∈ ([] : Text).head?, isDigit c = false := by simp
  have halone := v.leadingInteger_between (List.forall_mem_nil _) hnothing 0
  rwa [List.append_nil, List.nil_append] at halone

/-- The number is read there, since it is short enough. -/
theorem readInteger?_between (hbefore : ∀ c ∈ before, isBlank c)
    (hafter : ∀ c ∈ after.head?, isDigit c = false) (default : Int) :
    Text.readInteger? (before ++ (v.text ++ after)) default = some v.value := by
  have hnothing : ∀ c ∈ ([] : Text).head?, isDigit c = false := by simp
  have halone := v.leadingDigits_between (List.forall_mem_nil _) hnothing
  rw [List.append_nil, List.nil_append] at halone
  -- the text around a numeral adds no digits to it
  have hshort : Text.IsShort (before ++ (v.text ++ after)) := by
    rw [Text.IsShort, v.leadingDigits_between hbefore hafter, ← halone]
    exact v.short
  rw [Text.readInteger?, if_pos hshort, v.leadingInteger_between hbefore hafter]

end Between

/-- Unless it is the name of a variable, a numeral can be read. -/
theorem isReadable_bare {scope : Scope} (hscope : scope.get? (String.ofList v.text) = none) :
    (Quantity.bare v.text).IsReadable scope := by
  rw [Quantity.IsReadable, Quantity.IsReadableBare, hscope]
  exact v.short

/-- A numeral stands for its number, unless it is the name of a variable. -/
theorem evaluateQuantity_eq {n : Nat} {scope : Scope}
    (hscope : scope.get? (String.ofList v.text) = none) (w : World n) (subject : Seat n) :
    evaluateQuantity w subject scope v.text = pure v.value := by
  rw [evaluateQuantity, v.quantity_eq, Quantity.value, Quantity.bareValue, hscope,
    Option.bind_none, Option.getD_none, v.leadingInteger_eq]

end Numeral

/-! ### Statements without target and guard -/

section Written

variable {op : Operation} {marked : Bool}

/-- A written operation is read as a statement of its own, if nothing in it is taken for the
token of a guard. -/
theorem Operation.read_text (h : op.IsAdmissible)
    (hguard : topOccurrences Statement.guardToken (op.text marked) = []) :
    Statement.read (op.text marked) = ⟨none, none, op⟩ := by
  have hadmissible : Statement.IsAdmissible ⟨none, none, op⟩ := by
    refine ⟨?_, ?_, h⟩
    · rintro t ⟨⟩
    · rintro g ⟨⟩
  have hclear : Statement.IsUnambiguous marked ⟨none, none, op⟩ := by
    refine ⟨?_, ?_, ?_, fun _ => hguard⟩
    · rintro t ⟨⟩
    · rintro t ⟨⟩
    · rintro g ⟨⟩
  have htext : Statement.text marked ⟨none, none, op⟩ = op.text marked := List.nil_append _
  rw [← htext]
  exact Statement.read_text hadmissible hclear

/-- In an operation with arguments between brackets, nothing that begins like no verb stands at
the top level. -/
theorem Operation.topOccurrences_text_call (h : op.IsAdmissible) {args : List Text}
    (hcall : op.spelling marked = .call args) {x : Char} (hverb : x ∉ op.verb) (hopen : x ≠ '(')
    (hclose : x ≠ ')') (more : Text) : topOccurrences (x :: more) (op.text marked) = [] := by
  obtain ⟨-, hparts, -⟩ := Operation.verb_spec h
  have hfit := Operation.isFit_spelling h marked
  rw [hcall] at hfit
  have hargs := isBalanced_joinArguments fun a ha => (hfit.2 a ha).isBalanced
  have hclosed : (Nesting.start.read op.verb).IsClosed :=
    Nesting.isClosed_start.read fun c hc => (hparts c hc).2
  rw [topOccurrences, Operation.text, hcall, topOccurrencesFrom_append_of_notMem hverb]
  exact topOccurrencesFrom_wrap hargs hclosed hopen hclose more _

/-- Words with single spaces between them bring no guard about, unless one that stands between two
others is the word for a guard. -/
theorem topOccurrencesFrom_guard_joinWords {word : Text} {ws : List Text} (hword : ' ' ∉ word)
    (hsolid : ∀ w ∈ ws, ' ' ∉ w) (hguard : ∀ w ∈ ws.dropLast, w ≠ ['若']) (s : Nesting) (i : Nat) :
    topOccurrencesFrom Statement.guardToken s i (word ++ ' ' :: Operation.joinWords ws) = [] := by
  have htoken : Statement.guardToken = ' ' :: ['若', ' '] := rfl
  induction ws generalizing word s i with
  | nil =>
    rw [htoken, topOccurrencesFrom_append_mark hword (by decide)]
    rfl
  | cons v rest ih =>
    obtain ⟨hv, hrest⟩ := List.forall_mem_cons.mp hsolid
    -- the last word has no space behind it, so it may be any
    cases rest with
    | nil =>
      have hlast : ¬ ['若', ' '] <+: v := fun hstart => hv (hstart.subset (by decide))
      rw [Operation.joinWords_singleton, htoken, topOccurrencesFrom_append_mark hword hlast,
        topOccurrencesFrom_of_notMem hv]
    | cons u more =>
      obtain ⟨hfirst, hlater⟩ := List.forall_mem_cons.mp hguard
      rw [Operation.joinWords_cons_cons, htoken,
        topOccurrencesFrom_append_mark hword (not_isPrefix_guard hv hfirst _)]
      exact ih hv hrest hlater _ _

theorem notMem_joinWords {d : Char} (hspace : d ≠ ' ') {ws : List Text} (h : ∀ w ∈ ws, d ∉ w) :
    d ∉ Operation.joinWords ws := by
  induction ws with
  | nil => exact List.not_mem_nil
  | cons v rest ih =>
    obtain ⟨hv, hrest⟩ := List.forall_mem_cons.mp h
    cases rest with
    | nil => rwa [Operation.joinWords_singleton]
    | cons u more =>
      rw [Operation.joinWords_cons_cons]
      exact List.not_mem_append hv (List.not_mem_cons_of_ne_of_not_mem hspace (ih hrest))

/-- Arguments that are single words bring no guard about, if the word for a guard is none of them or
the last one. -/
theorem Operation.topOccurrences_guard_text {ws : List Text}
    (hwords : op.spelling marked = .words ws)
    (hverb : ' ' ∉ op.verb) (hsolid : ∀ w ∈ ws, ' ' ∉ w) (hguard : ∀ w ∈ ws.dropLast, w ≠ ['若']) :
    topOccurrences Statement.guardToken (op.text marked) = [] := by
  rw [topOccurrences, Operation.text, hwords]
  exact topOccurrencesFrom_guard_joinWords hverb hsolid hguard _ _

/-- Words without semicolons are not cut. -/
theorem Operation.topOccurrences_cut_text {ws : List Text} (hwords : op.spelling marked = .words ws)
    (hverb : ';' ∉ op.verb) (h : ∀ w ∈ ws, ';' ∉ w) :
    topOccurrences [';'] (op.text marked) = [] := by
  refine topOccurrencesFrom_of_notMem ?_ [] .start 0
  rw [Operation.text, hwords]
  exact List.not_mem_append hverb
    (List.not_mem_cons_of_ne_of_not_mem (by decide) (notMem_joinWords (by decide) h))

/-- A text that nothing cuts is one statement. -/
theorem splitStatements_of_isField {t : Text} (ht : t.IsField)
    (hcut : topOccurrences [';'] t = []) : splitStatements t = [t] := by
  rw [splitStatements, splitTop_of_topOccurrences_eq_nil hcut, List.map_singleton, ht.trim_eq]
  simp [ht.ne_nil]

variable {n : Nat}

/-- A statement without target and guard attempts its operation. -/
theorem Step.attempt_read {raw : Text} (hread : Statement.read raw = ⟨none, none, op⟩)
    (hloop : op.isLoop = false) (subject : Seat n) (p : Progress n) :
    Step.attempt (Step.read raw) subject p =
      op.apply subject subject (fun i q => Script.run [] i q) p := by
  have hstep : Step.read raw = .mk raw ⟨none, none, op⟩ [] := by
    rw [Step.read, hread]
    cases op with
    | forEach list command => cases hloop
    | _ => rfl
  rw [hstep, Step.attempt]
  rfl

/-- A command that is one written operation carries it out and keeps record of it. -/
theorem execute_text (h : op.IsAdmissible) (hloop : op.isLoop = false)
    (hguard : topOccurrences Statement.guardToken (op.text marked) = [])
    (hcut : topOccurrences [';'] (op.text marked) = []) (w : World n) (subject : Seat n)
    (scope : Scope) :
    execute w subject scope (op.text marked) = (do
      let a ← op.apply subject subject (fun i q => Script.run [] i q) (.start w scope)
      pure (a.progress.record ⟨op.text marked, ⟨none, none, op⟩, a.skipped⟩)) := by
  have hread := Operation.read_text h hguard
  have hone := splitStatements_of_isField (Statement.isField_text_operation h marked) hcut
  have houtcome : ∀ skipped, (Step.read (op.text marked)).outcome skipped =
      ⟨op.text marked, ⟨none, none, op⟩, skipped⟩ := by
    intro skipped
    rw [Step.read, hread]
    split <;> rfl
  rw [execute, Script.read_eq, hone, List.map_singleton, Script.run,
    Step.attempt_read hread hloop]
  refine bind_congr fun a => ?_
  rw [Script.run, houtcome]

/-- A command that is an operation with single words for arguments carries it out, if the word for a
guard is none of them or the last one. -/
theorem execute_words (h : op.IsAdmissible) (hloop : op.isLoop = false) {ws : List Text}
    (hwords : op.spelling marked = .words ws)
    (hmarks : ∀ word ∈ op.verb :: ws, ' ' ∉ word ∧ ';' ∉ word)
    (hguard : ∀ word ∈ ws.dropLast, word ≠ ['若']) (w : World n) (subject : Seat n)
    (scope : Scope) :
    execute w subject scope (op.text marked) = (do
      let a ← op.apply subject subject (fun i q => Script.run [] i q) (.start w scope)
      pure (a.progress.record ⟨op.text marked, ⟨none, none, op⟩, a.skipped⟩)) := by
  obtain ⟨⟨hspace, hsemicolon⟩, hrest⟩ := List.forall_mem_cons.mp hmarks
  have hnone := Operation.topOccurrences_guard_text hwords hspace
    (fun v hv => (hrest v hv).1) hguard
  have hcut := Operation.topOccurrences_cut_text hwords hsemicolon fun v hv => (hrest v hv).2
  exact execute_text h hloop hnone hcut w subject scope

/-- An assignment to a variable whose name is a word, other than the word for a guard, of a value
without spaces and semicolons assigns that value. -/
theorem execute_assign (type : Option VariableType) {K T : Text} (hK : K.IsWord)
    (hguard : K ≠ ['若']) (hT : T.IsField) (hmarks : ' ' ∉ T ∧ ';' ∉ T) (w : World n)
    (subject : Seat n) (scope : Scope) :
    execute w subject scope ((Operation.assign type K T).text false) = (do
      let a ← Operation.applyAssign subject type K T (.start w scope)
      pure (a.progress.record ⟨(Operation.assign type K T).text false,
        ⟨none, none, .assign type K T⟩, a.skipped⟩)) := by
  have hwords : (Operation.assign type K T).spelling false =
      .words (type.toList.map VariableType.word ++ [K, ['='], T]) := by
    cases type <;> rfl
  have hverb : ' ' ∉ "设置变量".toList ∧ ';' ∉ "设置变量".toList := by decide
  have htypes : ∀ word ∈ type.toList.map VariableType.word,
      (' ' ∉ word ∧ ';' ∉ word) ∧ word ≠ ['若'] := by
    refine List.forall_mem_map.mpr fun type _ => ?_
    cases type <;> decide
  have hparts : ∀ word ∈ [K, ['='], T], ' ' ∉ word ∧ ';' ∉ word := by
    simp only [List.forall_mem_cons]
    exact ⟨⟨hK.notMem (by decide), hK.notMem (by decide)⟩, by decide, hmarks, List.forall_mem_nil _⟩
  have hfree : ∀ word ∈ [K, ['=']], word ≠ ['若'] :=
    List.forall_mem_cons.mpr ⟨hguard, List.forall_mem_singleton.mpr (by decide)⟩
  have hadmissible : (Operation.assign type K T).IsAdmissible := ⟨hK.isKey, hT⟩
  refine execute_words hadmissible rfl hwords ?_ ?_ w subject scope
  · exact List.forall_mem_cons.mpr
      ⟨hverb, List.forall_mem_append.mpr ⟨fun word hword => (htypes word hword).1, hparts⟩⟩
  · rw [List.dropLast_append_of_ne_nil (List.cons_ne_nil _ _)]
    exact List.forall_mem_append.mpr ⟨fun word hword => (htypes word hword).2, hfree⟩

end Written

end EventScript
