/-
Whole numbers in digits.

A whole number is written in decimal digits, after a minus sign if it is negative.  Zeros may be put
in front of the digits, and a plus sign where there is no minus sign; however it is written, the
number is found again, unless it has more digits than can be read:

* `Text.Denotes` — the ways to write a whole number, its own text among them (`Text.denotes_ofInt`);
* `Text.Denotes.numeral` — each of them that is short is a numeral, which stands for that number;
* `Text.isShort_ofInt_iff` — which numbers are short;
* `Numeral.execute_storing` — assigning a numeral puts its number into the variable;
* `whole_numbers_are_read_back` — so a number is read where a text starts with it, is what its text
  stands for, and is read from the variable that it has been put into.

There is one exception, `guard_word_keeps_no_number`: a variable called like the word for a guard
cannot be assigned with blanks around its name (`Numeral.ensures_storing_guard`).
-/
import EventScript.Proofs.Expression
import EventScript.Proofs.Guard
import Mathlib.Algebra.Order.Ring.Nat

namespace EventScript

/-! ### Ways to write a number -/

namespace Text

/-- The digits of a number, after some zeros. -/
def padded (zeros m : Nat) : Text :=
  List.replicate zeros '0' ++ ofInt m

/-- The ways to write a whole number: digits, any number of zeros in front of them, and in front of
those nothing, a plus sign, or a minus sign for the negative. -/
inductive Denotes : Text → Int → Prop where
  | unsigned (zeros m : Nat) : Denotes (padded zeros m) m
  | plus (zeros m : Nat) : Denotes ('+' :: padded zeros m) m
  | minus (zeros m : Nat) : Denotes ('-' :: padded zeros m) (-m)

theorem ofInt_natCast (m : Nat) : ofInt m = Nat.toDigits 10 m :=
  Nat.toList_repr

theorem ofInt_negSucc (m : Nat) : ofInt (.negSucc m) = '-' :: padded 0 (m + 1) :=
  String.toList_append

/-- The text of a number is one of the ways to write it. -/
theorem denotes_ofInt (k : Int) : (ofInt k).Denotes k := by
  cases k with
  | ofNat m => exact .unsigned 0 m
  | negSucc m =>
    rw [ofInt_negSucc, Int.negSucc_eq]
    exact .minus 0 (m + 1)

theorem isDigit_of_mem_padded {zeros m : Nat} : ∀ c ∈ padded zeros m, c.isDigit = true := by
  intro c hc
  rcases List.mem_append.mp hc with hzero | hdigit
  · rw [List.eq_of_mem_replicate hzero]
    rfl
  · rw [ofInt_natCast] at hdigit
    exact Nat.isDigit_of_mem_toDigits (by decide) (by decide) hdigit

theorem padded_ne_nil (zeros m : Nat) : padded zeros m ≠ [] := by
  refine List.append_ne_nil_of_right_ne_nil _ ?_
  rw [ofInt_natCast]
  exact Nat.toDigits_ne_nil

/-- Zeros in front of a number do not count. -/
theorem digitsValue_padded (zeros m : Nat) : digitsValue (padded zeros m) = m := by
  rw [digitsValue_eq_ofDigitChars isDigit_of_mem_padded, padded, Nat.ofDigitChars_append,
    Nat.ofDigitChars_replicate_zero, Nat.mul_zero, ofInt_natCast, Nat.ofDigitChars_ten_toDigits]

theorem readSign_of_isDigit {t : Text} (h : ∀ c ∈ t, c.isDigit = true) :
    readSign t = (false, t) := by
  rw [readSign.eq_def]
  split
  · exact absurd (h '-' List.mem_cons_self) (by decide)
  · exact absurd (h '+' List.mem_cons_self) (by decide)
  · rfl

theorem integerLiteral?_of_readSign {t : Text} {negative : Bool} {zeros m : Nat}
    (h : readSign t = (negative, padded zeros m)) :
    integerLiteral? t = some (withSign negative m) := by
  have hdigits : (padded zeros m).all isDigit = true :=
    List.all_eq_true.mpr fun c hc => isDigit_of_isDigit (isDigit_of_mem_padded c hc)
  rw [integerLiteral?, h]
  dsimp only
  rw [hdigits, List.isEmpty_eq_false_iff.mpr (padded_ne_nil zeros m), digitsValue_padded]
  rfl

variable {t : Text} {k : Int}

theorem Denotes.integerLiteral?_eq (h : t.Denotes k) : integerLiteral? t = some k := by
  cases h with
  | unsigned zeros m =>
    exact integerLiteral?_of_readSign (readSign_of_isDigit isDigit_of_mem_padded)
  | plus zeros m =>
    have hsign : readSign ('+' :: padded zeros m) = (false, padded zeros m) := rfl
    exact integerLiteral?_of_readSign hsign
  | minus zeros m =>
    have hsign : readSign ('-' :: padded zeros m) = (true, padded zeros m) := rfl
    exact integerLiteral?_of_readSign hsign

/-- A way to write a number is a numeral, if it is short. -/
def Denotes.numeral (h : t.Denotes k) (hshort : t.IsShort) : Numeral :=
  ⟨t, k, h.integerLiteral?_eq, hshort⟩

theorem takeWhile_padded (zeros m : Nat) :
    (padded zeros m).takeWhile isDigit = padded zeros m :=
  List.takeWhile_eq_self_iff.mpr fun c hc => isDigit_of_isDigit (isDigit_of_mem_padded c hc)

/-- White space does not stand in front of digits. -/
theorem trimStart_padded (zeros m : Nat) : trimStart (padded zeros m) = padded zeros m := by
  refine trimStart_eq_self fun c hc => isBlank_eq_false_of_isNumeralPart ?_
  rw [isNumeralPart, isDigit_of_isDigit (isDigit_of_mem_padded c (List.mem_of_mem_head? hc))]
  rfl

/-- The digits of the text of a number are those of its magnitude. -/
theorem leadingDigits_ofInt (k : Int) : leadingDigits (ofInt k) = ofInt k.natAbs := by
  cases k with
  | ofNat m =>
    show ((readSign (trimStart (padded 0 m))).2).takeWhile isDigit = padded 0 m
    rw [trimStart_padded, readSign_of_isDigit isDigit_of_mem_padded, takeWhile_padded]
  | negSucc m =>
    -- a minus sign is no white space, and is taken off before the digits
    rw [ofInt_negSucc]
    exact takeWhile_padded 0 (m + 1)

/-- The text of a number can be read if the number has no more digits than can be read. -/
theorem isShort_ofInt_iff : (ofInt k).IsShort ↔ k.natAbs < 10 ^ digitLimit := by
  rw [IsShort, leadingDigits_ofInt, ofInt_natCast]
  exact Nat.length_toDigits_le_iff (by decide) (by decide)

end Text

/-! ### Variables with numbers -/

variable {n : Nat} {K : Text}

/-- White space in front of a numeral does not matter. -/
theorem Numeral.read_behind (v : Numeral) {before : Text} (hbefore : ∀ c ∈ before, isBlank c) :
    Quantity.read (before ++ v.text) = .bare v.text :=
  (Quantity.read_congr (Text.trim_append_left hbefore v.text)).trans v.quantity_eq

/-- A variable stands for the number that is in it. -/
theorem evaluateQuantity_stored (hK : K.IsWord) {scope : Scope} {k : Int}
    (hscope : scope.get? (String.ofList K) = some (.int k)) (w : World n) (subject : Seat n) :
    evaluateQuantity w subject scope (variableMark ++ K) = pure k := by
  rw [evaluateQuantity, Quantity.read_stored hK, Quantity.value, Value.ofVariable, Mapping.getD,
    hscope]
  rfl

/-- The command that puts a number into a variable. -/
def storing (key value : Text) : Text :=
  "设置变量 ".toList ++ (key ++ (" = ".toList ++ value))

theorem storing_eq_text (K T : Text) :
    storing K T = (Operation.assign none K T).text false := by
  have hwords : Operation.joinWords [K, ['='], T] = K ++ ' ' :: ('=' :: ' ' :: T) := by
    rw [Operation.joinWords_cons_cons, Operation.joinWords_cons_cons,
      Operation.joinWords_singleton]
    rfl
  show _ = "设置变量".toList ++ ' ' :: Operation.joinWords _
  rw [Operation.keyText, if_neg Bool.false_ne_true, hwords]
  rfl

namespace Numeral

variable (v : Numeral)

/-- No question to the cast, no random number and no list is a numeral. -/
theorem applyAssign_eq (subject : Seat n) (key : Text) (p : Progress n) :
    Operation.applyAssign subject none key v.text p = pure (.done (p.set key (.int v.value))) := by
  -- all of these begin with a character that is no part of numerals
  have hother : ∀ {x : Char} {more : Text}, isNumeralPart x = false →
      (x :: more).isPrefixOf v.text = false := by
    intro x more hx
    rw [← Bool.not_eq_true, List.isPrefixOf_iff_prefix]
    exact v.not_isPrefix hx more
  have hno : ∀ {start : String} {x : Char} {more : Text}, start.toList = x :: more →
      isNumeralPart x = false → ¬ Operation.beginsWith start v.text := by
    intro start x more hstart hx
    rw [Operation.beginsWith, hstart, hother hx]
    exact Bool.false_ne_true
  have hrandom : (randomWord ++ ['(']).isPrefixOf v.text = false := hother (by decide)
  rw [Operation.applyAssign, if_neg (hno rfl (by decide)), if_neg (hno rfl (by decide)),
    if_neg (hno rfl (by decide)), if_neg (hno rfl (by decide)), if_neg (hno rfl (by decide)),
    Operation.assignPlain, hrandom, v.reads]
  rfl

/-- Assigning a numeral puts its number into the variable, and does nothing else. -/
theorem execute_storing (hK : K.IsWord) (hguard : K ≠ ['若']) (w : World n) (subject : Seat n)
    (scope : Scope) :
    execute w subject scope (storing K v.text) =
      pure (((Progress.start w scope).set K (.int v.value)).record
        ⟨storing K v.text, ⟨none, none, .assign none K v.text⟩, none⟩) := by
  have hmarks : ' ' ∉ v.text ∧ ';' ∉ v.text := ⟨v.notMem (by decide), v.notMem (by decide)⟩
  rw [storing_eq_text, execute_assign _ hK hguard v.isSolid.toIsField hmarks, v.applyAssign_eq,
    pure_bind]
  rfl

/-- Between blanks, the word for a guard is not the name of a variable: what is behind it is a
condition, and the assignment before it says nothing. -/
theorem read_storing_guard :
    Statement.read (storing ['若'] v.text) =
      ⟨none, some (Text.trim ("= ".toList ++ v.text)), .malformed "设置变量".toList⟩ := by
  have halone : Statement.read "设置变量".toList = ⟨none, none, .malformed "设置变量".toList⟩ := by
    decide
  have hcondition : Text.trim ("= ".toList ++ v.text) ≠ [] := by
    intro hnil
    have hequals := Text.trim_eq_nil hnil '=' (List.mem_append_left _ (by decide))
    cases hequals
  have hnone : topOccurrences Statement.guardToken (' ' :: ("= ".toList ++ v.text)) = [] := by
    have hsolid : ∀ w ∈ [['='], v.text], ' ' ∉ w :=
      List.forall_mem_cons.mpr ⟨by decide, List.forall_mem_singleton.mpr (v.notMem (by decide))⟩
    have hwords := topOccurrencesFrom_guard_joinWords List.not_mem_nil hsolid
      (List.forall_mem_singleton.mpr (by decide)) .start 0
    rw [Operation.joinWords_cons_cons, Operation.joinWords_singleton] at hwords
    exact hwords
  have hguarded := (Statement.read_guarded (s := "设置变量".toList) (by decide)
    ⟨by decide, by decide⟩ (by decide) hcondition hnone (by decide)).2
  rw [halone] at hguarded
  exact hguarded

/-- Whatever the condition is, nothing is put into a variable. -/
theorem ensures_storing_guard (w : World n) (subject : Seat n) (scope : Scope) :
    Chance.Ensures (execute w subject scope (storing ['若'] v.text)) fun p =>
      p.world = w ∧ p.scope = scope := by
  have hne : (storing ['若'] v.text).trim ≠ [] := by
    intro hnil
    have hverb := Text.trim_eq_nil hnil '设' (List.mem_append_left _ (by decide))
    cases hverb
  have hattempt : Chance.Ensures
      (Statement.attemptText (storing ['若'] v.text) subject (.start w scope)) fun a =>
        a.progress = .start w scope := by
    rw [Statement.attemptText, v.read_storing_guard]
    -- if the condition holds, what is left is malformed
    refine .bind_of_forall fun passes => ?_
    cases passes <;> exact .pure rfl
  have hcut : topOccurrences [';'] (storing ['若'] v.text) = [] := by
    have hverb : ';' ∉ "设置变量".toList := by decide
    have hwords : (Operation.assign none ['若'] v.text).spelling false =
        .words [['若'], ['='], v.text] := rfl
    rw [storing_eq_text]
    refine Operation.topOccurrences_cut_text hwords hverb ?_
    simp only [List.forall_mem_cons]
    exact ⟨by decide, by decide, v.notMem (by decide), List.forall_mem_nil _⟩
  rw [execute_single hne hcut]
  refine .bind hattempt fun a ha => .pure ?_
  rw [ha]
  exact ⟨rfl, rfl⟩

end Numeral

/-- Whole numbers survive being written and read. A number is read where a text starts with one of
the ways to write it, white space in front and no digit behind; the text is a quantity that stands
for the number for every character of every cast, unless a variable is called like it; and once it
has been assigned to a variable, which must not be called like the word for a guard, this is all
that has been changed, and the variable stands for the number. The text that a number is written as
is one of these ways, and so are those with zeros in front, and with a plus sign where there is no
minus sign; but only those that are short are spoken of here, as the text of a number is if the
number has no more digits than can be read. -/
theorem whole_numbers_are_read_back (k : Int) :
    (Text.ofInt k).Denotes k ∧ ((Text.ofInt k).IsShort ↔ k.natAbs < 10 ^ Text.digitLimit) ∧
    ∀ t : Text, t.Denotes k → t.IsShort →
      (∀ before after : Text, (∀ c ∈ before, isBlank c) →
        (∀ c ∈ after.head?, isDigit c = false) → ∀ default,
        Text.readInteger? (before ++ (t ++ after)) default = some k) ∧
      ∀ {n : Nat} (w : World n) (subject : Seat n) (scope : Scope),
        (∀ before : Text, (∀ c ∈ before, isBlank c) → String.ofList t ∉ scope.keys →
          (Quantity.read (before ++ t)).IsReadable scope ∧
          evaluateQuantity w subject scope (before ++ t) = pure k) ∧
        ∀ K : Text, K.IsWord → K ≠ ['若'] →
          ∃ p, execute w subject scope (storing K t) = pure p ∧
            p.effect = ⟨w, scope.put (String.ofList K) (.int k), none, false, [none]⟩ ∧
            ∀ (w' : World n) (reader : Seat n),
              evaluateQuantity w' reader p.scope (variableMark ++ K) = pure k := by
  refine ⟨Text.denotes_ofInt k, Text.isShort_ofInt_iff, fun t ht hshort =>
    ⟨fun before after hbefore hafter default => ?_,
      fun w subject scope => ⟨fun before hbefore hscope => ?_, fun K hK hguard => ?_⟩⟩⟩
  · exact (ht.numeral hshort).readInteger?_between hbefore hafter default
  · have hread := (ht.numeral hshort).read_behind hbefore
    have hnone := Mapping.get?_of_notMem hscope
    have hvalue := (ht.numeral hshort).evaluateQuantity_eq hnone w subject
    rw [evaluateQuantity, (ht.numeral hshort).quantity_eq, ← hread] at hvalue
    exact ⟨hread ▸ (ht.numeral hshort).isReadable_bare hnone, hvalue⟩
  · refine ⟨_, (ht.numeral hshort).execute_storing hK hguard w subject scope, rfl, ?_⟩
    exact fun w' reader => evaluateQuantity_stored hK (Mapping.get?_put_self ..) w' reader

/-- A debt, written with zeros in front. -/
def debt : Text :=
  "-0012".toList

theorem denotes_debt : debt.Denotes (-12) :=
  .minus 2 12

example : storing "欠款".toList debt = "设置变量 欠款 = -0012".toList := by decide

/-- The debt is read in front of a word, stands for itself while there is a bet, and is not
forgotten once it has been put down. -/
theorem debts_are_read_back :
    (Text.ofInt (-12) = "-12".toList ∧ debt.Denotes (-12) ∧ debt.IsShort) ∧
    Text.readInteger? ("\u3000 ".toList ++ (debt ++ "元".toList)) 0 = some (-12) ∧
    String.ofList debt ∉ betting.keys ∧
    evaluateQuantity friendWorld 1 betting (' ' :: debt) = pure (-12) ∧
    Text.IsWord "欠款".toList ∧
    ∃ p, execute friendWorld 1 betting (storing "欠款".toList debt) = pure p ∧
      evaluateQuantity friendWorld 0 p.scope "变量.欠款".toList = pure (-12) := by
  have hscope : String.ofList debt ∉ betting.keys := by decide
  have hword : Text.IsWord "欠款".toList := by decide +kernel
  have hbehind : ∀ c ∈ "元".toList.head?, isDigit c = false := by
    rintro _ ⟨⟩
    decide
  have hshort : debt.IsShort := by decide
  obtain ⟨hleading, hdebt⟩ := (whole_numbers_are_read_back (-12)).2.2 debt denotes_debt hshort
  obtain ⟨hquantity, hstored⟩ := hdebt friendWorld 1 betting
  obtain ⟨p, hp, -, hread⟩ := hstored "欠款".toList hword (by decide)
  exact ⟨⟨by decide, denotes_debt, hshort⟩, hleading _ _ (by decide) hbehind 0, hscope,
    (hquantity [' '] (by decide) hscope).2, hword, p, hp, hread friendWorld 0⟩

/-- A five that has been assigned to a variable called like the word for a guard is not found again:
the variable stands for zero, whatever the dice are. -/
theorem guard_word_keeps_no_number :
    Text.IsWord ['若'] ∧
    storing ['若'] (Text.ofInt 5) = "设置变量 若 = 5".toList ∧
    Chance.Ensures (do
      let p ← execute trainerWorld 0 .empty (storing ['若'] (Text.ofInt 5))
      evaluateQuantity p.world 0 p.scope (variableMark ++ ['若'])) fun k => k = 0 ∧ k ≠ 5 := by
  have hword : Text.IsWord ['若'] := by decide +kernel
  refine ⟨hword, by decide, ?_⟩
  have hshort : (Text.ofInt 5).IsShort := by decide
  refine .bind (((Text.denotes_ofInt 5).numeral hshort).ensures_storing_guard trainerWorld 0 .empty)
    fun p hp => ?_
  -- the variables are as they were, and so there is none of this name
  have hunset : evaluateQuantity p.world 0 p.scope (variableMark ++ ['若']) = pure 0 := by
    rw [hp.2, evaluateQuantity, Quantity.read_stored hword]
    rfl
  rw [hunset]
  exact .pure (by decide)

end EventScript
