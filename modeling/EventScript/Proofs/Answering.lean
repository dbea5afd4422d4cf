/-
Answers to a question.

A player who is asked for an option of a waiting event may write anything.  A line of decimal
digits, in whatever script, that is the number of a visible option selects it; a line of digits
that is no decimal number, or one with too many digits, ends the program; after any other line the
question is asked again.  An event that has no visible option is asked about for ever.

* `Rulebook.sees_visibleAmong`, `Rulebook.Sees.unique` — which options are visible;
* `Program.judgeChoice_of_selects`, `Program.judgeChoice_of_isUnreadable`,
  `Program.judgeChoice_of_refuses` — what becomes of a line;
* `Program.exists_reply` — what becomes of a list of lines;
* `Program.selects_toString` — the number of a visible option selects it;
* `questions_take_the_visible_options` — all of this for every waiting event.
-/
import EventScript.Proofs.Rest
import EventScript.Proofs.Wording

namespace EventScript

variable {n : Nat}

/-! ### Visible options -/

namespace Rulebook

/-- With the dice at hand, the character in a seat sees some of the options, by their positions.
The condition of an option is asked only if it has one. -/
inductive Sees (w : World n) (i : Seat n) (scope : Scope) :
    List (Choice × Nat) → Dice → List Nat → Dice → Prop
  | nil (d : Dice) : Sees w i scope [] d [] d
  | free {option : Choice} {k : Nat} {rest : List (Choice × Nat)} {ks : List Nat} {d d' : Dice}
      (hoption : option.visibleIf = "") (hrest : Sees w i scope rest d ks d') :
      Sees w i scope ((option, k) :: rest) d (k :: ks) d'
  | shown {option : Choice} {k : Nat} {rest : List (Choice × Nat)} {ks : List Nat}
      {d asked d' : Dice} (hoption : option.visibleIf ≠ "")
      (hcondition : (evaluateCondition w none i scope option.visibleIf.toList).run d =
        (true, asked))
      (hrest : Sees w i scope rest asked ks d') :
      Sees w i scope ((option, k) :: rest) d (k :: ks) d'
  | hidden {option : Choice} {k : Nat} {rest : List (Choice × Nat)} {ks : List Nat}
      {d asked d' : Dice} (hoption : option.visibleIf ≠ "")
      (hcondition : (evaluateCondition w none i scope option.visibleIf.toList).run d =
        (false, asked))
      (hrest : Sees w i scope rest asked ks d') :
      Sees w i scope ((option, k) :: rest) d ks d'

theorem run_visibleAmong_cons (w : World n) (i : Seat n) (scope : Scope) (option : Choice) (k : Nat)
    (rest : List (Choice × Nat)) {d asked : Dice} {visible : Bool}
    (h : (evaluateCondition w none i scope option.visibleIf.toList).run d = (visible, asked)) :
    (visibleAmong w i scope ((option, k) :: rest)).run d =
      (if visible then k :: ((visibleAmong w i scope rest).run asked).1
        else ((visibleAmong w i scope rest).run asked).1,
        ((visibleAmong w i scope rest).run asked).2) := by
  rw [visibleAmong, StateT.run_bind, h]
  rfl

theorem sees_visibleAmong (w : World n) (i : Seat n) (scope : Scope)
    (options : List (Choice × Nat)) (d : Dice) :
    Sees w i scope options d ((visibleAmong w i scope options).run d).1
      ((visibleAmong w i scope options).run d).2 := by
  induction options generalizing d with
  | nil => exact .nil d
  | cons p rest ih =>
    obtain ⟨option, k⟩ := p
    by_cases hoption : option.visibleIf = ""
    · have hcondition : (evaluateCondition w none i scope option.visibleIf.toList).run d =
          (true, d) := by
        rw [hoption, evaluateCondition_blank w none i scope rfl]
        rfl
      rw [run_visibleAmong_cons w i scope option k rest hcondition]
      exact .free hoption (ih d)
    · cases hcondition : (evaluateCondition w none i scope option.visibleIf.toList).run d with
      | mk visible asked =>
        rw [run_visibleAmong_cons w i scope option k rest hcondition]
        cases visible with
        | true => exact .shown hoption hcondition (ih asked)
        | false => exact .hidden hoption hcondition (ih asked)

theorem Sees.unique {w : World n} {i : Seat n} {scope : Scope} {options : List (Choice × Nat)}
    {d dx dy : Dice} {ks js : List Nat} (hx : Sees w i scope options d ks dx)
    (hy : Sees w i scope options d js dy) : js = ks ∧ dy = dx := by
  induction hx generalizing js with
  | nil =>
    cases hy
    exact ⟨rfl, rfl⟩
  | free hoption _ ih =>
    cases hy with
    | free _ hrest =>
      obtain ⟨rfl, rfl⟩ := ih hrest
      exact ⟨rfl, rfl⟩
    | shown hoption' _ _ => exact absurd hoption hoption'
    | hidden hoption' _ _ => exact absurd hoption hoption'
  | shown hoption hcondition _ ih =>
    cases hy with
    | free hoption' _ => exact absurd hoption' hoption
    | shown _ hcondition' hrest =>
      obtain ⟨-, rfl⟩ := Prod.mk.inj (hcondition'.symm.trans hcondition)
      obtain ⟨rfl, rfl⟩ := ih hrest
      exact ⟨rfl, rfl⟩
    | hidden _ hcondition' _ =>
      exact absurd (Prod.mk.inj (hcondition'.symm.trans hcondition)).1 (by decide)
  | hidden hoption hcondition _ ih =>
    cases hy with
    | free hoption' _ => exact absurd hoption' hoption
    | shown _ hcondition' _ =>
      exact absurd (Prod.mk.inj (hcondition'.symm.trans hcondition)).1 (by decide)
    | hidden _ hcondition' hrest =>
      obtain ⟨-, rfl⟩ := Prod.mk.inj (hcondition'.symm.trans hcondition)
      exact ih hrest

end Rulebook

namespace Program

/-- The options of a waiting event that are visible, with the dice at hand: those that its
character sees, or all of them if there is no such character. -/
def Shows (rules : Rulebook) (s : Session n) (item : Pending) (d : Dice) (visible : List Nat) :
    Prop :=
  match s.seat? item.character with
  | some i => ∃ looked, Rulebook.Sees (s.world rules.settings) i item.scope
      item.event.options.zipIdx d visible looked
  | none => visible = List.range item.event.options.length

theorem shows_offered (rules : Rulebook) (s : Session n) (item : Pending) (d : Dice) :
    Shows rules s item d ((offered rules s item).run d).1 := by
  unfold Shows offered
  cases s.seat? item.character with
  | some i => exact ⟨_, Rulebook.sees_visibleAmong _ i item.scope _ d⟩
  | none => rfl

theorem Shows.unique {rules : Rulebook} {s : Session n} {item : Pending} {d : Dice}
    {visible other : List Nat} (h : Shows rules s item d visible)
    (hother : Shows rules s item d other) : other = visible := by
  unfold Shows at h hother
  cases hseat : s.seat? item.character with
  | some i =>
    rw [hseat] at h hother
    obtain ⟨looked, hsees⟩ := h
    obtain ⟨looked', hsees'⟩ := hother
    exact (hsees.unique hsees').1
  | none =>
    rw [hseat] at h hother
    exact hother.trans h.symm

/-! ### Lines -/

/-- Without the white space around it, a line is the number of a visible option, in decimal
digits. -/
structure Selects (visible : List Nat) (k : Nat) (line : String) : Prop where
  digits : ∀ c ∈ Text.trim line.toList, isDigit c = true
  short : (Text.trim line.toList).length ≤ Text.digitLimit
  value : digitsValue (Text.trim line.toList) = k + 1
  visible : k ∈ visible

/-- Without the white space around it, a line looks like a number, but not all of its digits are
decimal, or it has too many of them. -/
structure IsUnreadable (line : String) : Prop where
  ne_nil : Text.trim line.toList ≠ []
  digits : ∀ c ∈ Text.trim line.toList, isDigitLike c = true
  strange : (∃ c ∈ Text.trim line.toList, isDigit c = false) ∨
    Text.digitLimit < (Text.trim line.toList).length

/-- A line that neither selects an option nor looks like a number that cannot be read. -/
structure Refuses (visible : List Nat) (line : String) : Prop where
  readable : ¬IsUnreadable line
  selects : ∀ k, ¬Selects visible k line

theorem isDigitLike_of_isDigit {c : Char} (h : isDigit c = true) : isDigitLike c = true := by
  rw [isDigitLike, h, Bool.true_or]

theorem judgeChoice_of_selects {visible : List Nat} {k : Nat} {line : String}
    (h : Selects visible k line) : judgeChoice visible line = .accept k := by
  have hne : Text.trim line.toList ≠ [] := by
    intro hnil
    have hvalue := h.value
    rw [hnil] at hvalue
    cases hvalue
  unfold judgeChoice
  simp only
  rw [if_pos, if_pos, h.value, if_pos, Nat.add_sub_cancel]
  · exact ⟨Nat.le_add_left 1 k, List.contains_iff_mem.mpr h.visible⟩
  · exact Bool.and_eq_true_iff.mpr ⟨List.all_eq_true.mpr h.digits, decide_eq_true h.short⟩
  · refine Bool.and_eq_true_iff.mpr ⟨?_, List.all_eq_true.mpr fun c hc => ?_⟩
    · rw [Bool.not_eq_true', List.isEmpty_eq_false_iff]
      exact hne
    · exact isDigitLike_of_isDigit (h.digits c hc)

theorem judgeChoice_of_isUnreadable (visible : List Nat) {line : String} (h : IsUnreadable line) :
    judgeChoice visible line = .giveUp .badText := by
  unfold judgeChoice
  simp only
  rw [if_pos, if_neg]
  · rw [Bool.and_eq_true, List.all_eq_true, decide_eq_true_eq]
    rintro ⟨hdigits, hshort⟩
    rcases h.strange with ⟨c, hc, hdigit⟩ | hlong
    · exact absurd (hdigits c hc) (by rw [hdigit]; decide)
    · exact absurd hshort (Nat.not_le.mpr hlong)
  · refine Bool.and_eq_true_iff.mpr ⟨?_, List.all_eq_true.mpr h.digits⟩
    rw [Bool.not_eq_true', List.isEmpty_eq_false_iff]
    exact h.ne_nil

theorem judgeChoice_of_refuses {visible : List Nat} {line : String} (h : Refuses visible line) :
    judgeChoice visible line = .refuse complaint := by
  unfold judgeChoice
  simp only
  split
  · rename_i hlike
    rw [Bool.and_eq_true, Bool.not_eq_true', List.isEmpty_eq_false_iff, List.all_eq_true] at hlike
    split
    · rename_i hdigits
      rw [Bool.and_eq_true, List.all_eq_true, decide_eq_true_eq] at hdigits
      refine if_neg fun ⟨hpos, hvisible⟩ => ?_
      exact h.selects _ ⟨hdigits.1, hdigits.2, (Nat.sub_add_cancel hpos).symm,
        List.contains_iff_mem.mp hvisible⟩
    · rename_i hdigits
      rw [Bool.and_eq_true, List.all_eq_true, decide_eq_true_eq, not_and_or] at hdigits
      refine absurd ⟨hlike.1, hlike.2, ?_⟩ h.readable
      rcases hdigits with hdigits | hlong
      · left
        push Not at hdigits
        obtain ⟨c, hc, hdigit⟩ := hdigits
        exact ⟨c, hc, Bool.not_eq_true _ ▸ hdigit⟩
      · exact .inr (Nat.not_le.mp hlong)
  · rfl

/-! ### Lists of lines -/

/-- A question that was asked so many times without success. -/
def askedInVain (question : Styled) (times : Nat) : List Display :=
  (List.replicate times [.prompt question, complaint]).flatten

/-- How a question comes out after some lines that were refused. -/
inductive Reply (visible : List Nat) (question : Styled) (refused : List String) :
    List String → Questioning → Prop
  | selected {k : Nat} {line : String} {rest : List String} (h : Selects visible k line) :
      Reply visible question refused (refused ++ line :: rest)
        ⟨askedInVain question refused.length ++ [.prompt question], .ok (k, rest)⟩
  | unreadable {line : String} {rest : List String} (h : IsUnreadable line) :
      Reply visible question refused (refused ++ line :: rest)
        ⟨askedInVain question refused.length ++ [.prompt question], .error (.failure .badText)⟩
  | exhausted : Reply visible question refused refused
      ⟨askedInVain question refused.length ++ [.prompt question],
        .error (.failure .endOfInput)⟩

theorem Reply.cons {visible : List Nat} {question : Styled} {refused lines : List String}
    {q : Questioning} (h : Reply visible question refused lines q) (line : String) :
    Reply visible question (line :: refused) (line :: lines)
      ⟨.prompt question :: complaint :: q.shown, q.answer⟩ := by
  cases h with
  | selected h => exact .selected h
  | unreadable h => exact .unreadable h
  | exhausted => exact .exhausted

/-- Lines are refused until one of them is not, or until there are no more. -/
theorem exists_reply (visible : List Nat) (question : Styled) (lines : List String) :
    ∃ refused, (∀ line ∈ refused, Refuses visible line) ∧
      Reply visible question refused lines
        (Questioning.of question (judgeChoice visible) lines) := by
  induction lines with
  | nil => exact ⟨[], List.forall_mem_nil _, .exhausted⟩
  | cons line rest ih =>
    -- a line that is not refused decides, whatever comes after it
    by_cases hunreadable : IsUnreadable line
    · refine ⟨[], List.forall_mem_nil _, ?_⟩
      rw [Questioning.of, judgeChoice_of_isUnreadable visible hunreadable]
      exact .unreadable hunreadable
    · by_cases hselects : ∃ k, Selects visible k line
      · obtain ⟨k, hk⟩ := hselects
        refine ⟨[], List.forall_mem_nil _, ?_⟩
        rw [Questioning.of, judgeChoice_of_selects hk]
        exact .selected hk
      · have hrefuses : Refuses visible line := ⟨hunreadable, not_exists.mp hselects⟩
        obtain ⟨refused, hrefused, hreply⟩ := ih
        refine ⟨line :: refused, List.forall_mem_cons.mpr ⟨hrefuses, hrefused⟩, ?_⟩
        rw [Questioning.of, judgeChoice_of_refuses hrefuses]
        exact hreply.cons line

/-! ### Numbers as lines -/

/-- The number of a visible option selects it, if it is not too long to be read. -/
theorem selects_toString {visible : List Nat} {k : Nat} (hk : k ∈ visible)
    (hshort : k + 1 < 10 ^ Text.digitLimit) : Selects visible k (toString (k + 1)) := by
  have htext : (toString (k + 1)).toList = Nat.toDigits 10 (k + 1) := Nat.toList_repr
  have hplain : ∀ c ∈ Nat.toDigits 10 (k + 1), c.isDigit = true := fun c hc =>
    Nat.isDigit_of_mem_toDigits (by decide) (by decide) hc
  have hdigits : ∀ c ∈ Nat.toDigits 10 (k + 1), isDigit c = true := fun c hc =>
    isDigit_of_isDigit (hplain c hc)
  -- there is no white space around digits
  have hsolid : ∀ c ∈ Nat.toDigits 10 (k + 1), isBlank c = false := fun c hc =>
    isBlank_eq_false_of_isNumeralPart (by rw [isNumeralPart, hdigits c hc]; rfl)
  have htrim : Text.trim (toString (k + 1)).toList = Nat.toDigits 10 (k + 1) := by
    rw [htext]
    exact Text.trim_eq_self (fun c hc => hsolid c (List.mem_of_mem_head? hc))
      (fun c hc => hsolid c (List.mem_of_mem_getLast? hc))
  refine ⟨?_, ?_, ?_, hk⟩
  · rwa [htrim]
  · rw [htrim]
    exact (Nat.length_toDigits_le_iff (by decide) (by decide)).mpr hshort
  · rw [htrim, digitsValue_eq_ofDigitChars hplain, Nat.ofDigitChars_ten_toDigits]

/-- What the player is asked about an event that waits for a choice. -/
theorem run_chooseFor (rules : Rulebook) (s : Session n) {item : Pending}
    (hitem : item.continuation = false) (d : Dice) :
    ∃ question later, (chooseFor rules s item false).run d =
      .ask later question (judgeChoice ((offered rules s item).run d).1)
        fun k => .result (k, later) := by
  unfold chooseFor
  rw [if_neg (by rw [hitem]; decide)]
  exact ⟨_, _, rfl⟩

theorem accepts_of_shows {rules : Rulebook} {s : Session n} {item : Pending} {d : Dice}
    {visible : List Nat} (h : Shows rules s item d visible) {k : Nat} (hk : k ∈ visible) :
    Rulebook.accepts item k = true := by
  have hlt := offered_ensures rules s item d k
  rw [← (shows_offered rules s item d).unique h] at hlt
  unfold Rulebook.accepts
  simpa using Or.inr (hlt hk)

end Program

/-- The player who is asked for an option of a waiting event is asked again until a line selects a
visible option, and any such line is taken; only a line that looks like a number and cannot be read
ends the program, and so does the end of the lines. Every visible option can be selected by its
number, and the event takes it; if no option is visible, no line selects one.

The conditions of the options ask for no number that is too long to be read (`Text.IsShort`);
with such a condition the program ends before it asks. -/
theorem questions_take_the_visible_options (rules : Rulebook) (s : Session n) (item : Pending)
    (hitem : item.continuation = false) (d : Dice) :
    ∃ visible, Program.Shows rules s item d visible ∧
      (∀ other, Program.Shows rules s item d other → other = visible) ∧
      (∃ question later, (Program.chooseFor rules s item false).run d =
          .ask later question (Program.judgeChoice visible) (fun k => .result (k, later)) ∧
        ∀ lines, ∃ refused, (∀ line ∈ refused, Program.Refuses visible line) ∧
          Program.Reply visible question refused lines
            (Questioning.of question (Program.judgeChoice visible) lines)) ∧
      ∀ k ∈ visible, Rulebook.accepts item k = true ∧
        (k + 1 < 10 ^ Text.digitLimit → Program.Selects visible k (toString (k + 1))) := by
  have hshows := Program.shows_offered rules s item d
  obtain ⟨question, later, hrun⟩ := Program.run_chooseFor rules s hitem d
  refine ⟨_, hshows, fun other hother => hshows.unique hother, ⟨question, later, hrun, ?_⟩, ?_⟩
  · exact fun lines => Program.exists_reply _ question lines
  · exact fun k hk => ⟨Program.accepts_of_shows hshows hk, fun hshort =>
      Program.selects_toString hk hshort⟩

/-- Someone knocks at the door, which is not to be opened. -/
def knock : Event :=
  { Event.plain "敲门" with options := [⟨"开门", "", "false"⟩, ⟨"装睡", "", ""⟩] }

/-- Only the second option is visible. Neither the number of the first one nor a word selects it,
its own number does, in whatever digits; but a raised digit ends the program. -/
theorem knocks_are_answered_with_two :
    ∃ question later, (Program.chooseFor sleepRules (lateNight knock false)
        ⟨"p1", knock, .empty, "", "", false⟩ false).run (.fresh fun _ => 0) =
        .ask later question (Program.judgeChoice [1]) (fun k => .result (k, later)) ∧
      Program.Selects [1] 1 "2" ∧
      (Questioning.of question (Program.judgeChoice [1]) ["1", "好", " ２ "]).answer =
        .ok (1, []) ∧
      (Questioning.of question (Program.judgeChoice [1]) ["1", "²", "2"]).answer =
        .error (.failure .badText) := by
  obtain ⟨visible, hshows, hunique, ⟨question, later, hrun, -⟩, hselects⟩ :=
    questions_take_the_visible_options sleepRules (lateNight knock false)
      ⟨"p1", knock, .empty, "", "", false⟩ rfl (.fresh fun _ => 0)
  have hsecond : [1] = visible := by
    refine hunique [1] ⟨_, .hidden (by decide) (Prod.ext ?_ rfl) (.free rfl (.nil _))⟩
    decide +kernel
  subst hsecond
  have hshort : 1 + 1 < 10 ^ Text.digitLimit :=
    Nat.lt_of_lt_of_le (by decide) (Nat.pow_le_pow_right (by decide)
      (by decide : 1 ≤ Text.digitLimit))
  refine ⟨question, later, hrun, (hselects 1 (by decide)).2 hshort, ?_, ?_⟩
  · rw [Questioning.of, Questioning.of, Questioning.of]
    rfl
  · rw [Questioning.of, Questioning.of]
    rfl

end EventScript
