/-
Quotations in slots.

Two readers go over a slot: one looks for the brace that closes it, the other for the marks at its
top level.  Both take what stands between double quotation marks as it is, so a slot may have any
passages quoted in it, with braces of their own, closed or not:

* `Text.IsEnclosable`, `closingBraceFrom_append` — text with braces in quotations only is passed
  over, and both readers are in the same quotation then;
* `Text.IsQuotable`, `Text.inQuotes` — what can be quoted, and how it is written;
* `Text.IsQuotable.read_inQuotes`, `unquote_inQuotes` — a quotation closes what it opens, and its
  marks come off again;
* `Slot.read_choice`, `Slot.read_drawing` — choices between quotations, and draws among them, are
  read as they are written;
* `only_the_chosen_quotation_is_rendered` — so only the passage that is chosen or drawn is rendered.
-/
import EventScript.Proofs.Composition
import EventScript.Proofs.Printing
import EventScript.Script.Passage

namespace EventScript

variable {n : Nat}

/-! ### Braces in quotations -/

/-- Braces stand in quotations only. -/
def Nesting.HidesBraces : Nesting → Text → Prop
  | _, [] => True
  | s, c :: rest => (s.quote = none → c ≠ '{' ∧ c ≠ '}') ∧ (s.step c).HidesBraces rest

instance Nesting.decidableHidesBraces : ∀ (s : Nesting) (t : Text), Decidable (s.HidesBraces t)
  | _, [] => inferInstanceAs (Decidable True)
  | s, c :: rest =>
    have := decidableHidesBraces (s.step c) rest
    inferInstanceAs (Decidable (_ ∧ _))

/-- What can stand between the braces of a slot: a text that closes what it opens, and has no
braces outside of its quotations. -/
structure Text.IsEnclosable (t : Text) : Prop extends t.IsBalanced where
  hidesBraces : Nesting.start.HidesBraces t

instance (t : Text) : Decidable t.IsEnclosable :=
  decidable_of_iff (t.IsBalanced ∧ Nesting.start.HidesBraces t)
    ⟨fun h => ⟨h.1, h.2⟩, fun h => ⟨h.toIsBalanced, h.hidesBraces⟩⟩

namespace Nesting

variable {s : Nesting} {a b t : Text}

theorem hidesBraces_append :
    s.HidesBraces (a ++ b) ↔ s.HidesBraces a ∧ (s.read a).HidesBraces b := by
  induction a generalizing s with
  | nil => exact (iff_of_eq (true_and _)).symm
  | cons c rest ih =>
    rw [List.cons_append, HidesBraces, HidesBraces, ih, and_assoc]
    rfl

/-- How many brackets are open has nothing to do with quotations. -/
theorem hidesBraces_deepen (k : Int) : (s.deepen k).HidesBraces t ↔ s.HidesBraces t := by
  induction t generalizing s with
  | nil => exact Iff.rfl
  | cons c rest ih =>
    rw [HidesBraces, HidesBraces, step_deepen, ih]
    rfl

/-- Where nothing is open, a text goes on as if it began. -/
theorem IsClosed.hidesBraces (h : s.IsClosed) (ht : start.HidesBraces t) : s.HidesBraces t := by
  cases t with
  | nil => trivial
  | cons c rest => exact ⟨fun _ => ht.1 rfl, h.step_eq c ▸ ht.2⟩

theorem IsClosed.hidesBraces_of_isPlain (h : s.IsClosed) (ht : ∀ c ∈ t, isPlain c) :
    s.HidesBraces t := by
  induction t generalizing s with
  | nil => trivial
  | cons c rest ih =>
    obtain ⟨hc, hrest⟩ := List.forall_mem_cons.mp ht
    refine ⟨fun _ => ⟨?_, ?_⟩, ih (h.step hc) hrest⟩
    · rintro rfl
      exact absurd hc (by decide)
    · rintro rfl
      exact absurd hc (by decide)

end Nesting

namespace Text.IsEnclosable

variable {a b t : Text}

theorem of_isPlain (h : ∀ c ∈ t, isPlain c) : t.IsEnclosable :=
  ⟨isBalanced_of_isPlain h, Nesting.isClosed_start.hidesBraces_of_isPlain h⟩

theorem append (ha : a.IsEnclosable) (hb : b.IsEnclosable) : (a ++ b).IsEnclosable :=
  ⟨ha.toIsBalanced.append hb.toIsBalanced,
    Nesting.hidesBraces_append.mpr ⟨ha.hidesBraces, ha.isClosed.hidesBraces hb.hidesBraces⟩⟩

theorem wrap (h : t.IsEnclosable) : t.wrap.IsEnclosable := by
  have hopen : Nesting.start.step '(' = Nesting.start.deepen 1 := rfl
  refine ⟨h.toIsBalanced.wrap, by decide, ?_⟩
  rw [hopen, Nesting.hidesBraces_deepen]
  exact Nesting.hidesBraces_append.mpr ⟨h.hidesBraces, ⟨fun _ => by decide, trivial⟩⟩

end Text.IsEnclosable

/-! ### The end of a slot -/

/-- The search for the closing brace keeps the quotation that is open as `Nesting` does. -/
theorem closingBraceFrom_cons {s : Nesting} {c : Char} (hc : s.quote = none → c ≠ '{' ∧ c ≠ '}')
    (depth : Int) (t : Text) :
    closingBraceFrom depth s.quote s.afterBackslash (c :: t) =
      (closingBraceFrom depth (s.step c).quote (s.step c).afterBackslash t).map (· + 1) := by
  obtain ⟨brackets, quote, afterBackslash⟩ := s
  cases quote with
  | some q => rfl
  | none =>
    obtain ⟨hopen, hclose⟩ := hc rfl
    by_cases hquote : isQuote c
    · simp only [closingBraceFrom, Nesting.step, hquote, if_true]
    · -- round brackets are counted by `Nesting` only
      have hstep : (Nesting.step ⟨brackets, none, afterBackslash⟩ c).quote = none ∧
          (Nesting.step ⟨brackets, none, afterBackslash⟩ c).afterBackslash = (c == '\\') := by
        simp only [Nesting.step, hquote, if_false, Bool.false_eq_true]
        by_cases hopener : isOpener c
        · rw [if_pos hopener]
          exact ⟨rfl, rfl⟩
        · rw [if_neg hopener]
          by_cases hcloser : isCloser c
          · rw [if_pos hcloser]
            exact ⟨rfl, rfl⟩
          · rw [if_neg hcloser]
            exact ⟨rfl, rfl⟩
      rw [hstep.1, hstep.2]
      simp only [closingBraceFrom, hquote, hopen, hclose, beq_iff_eq, if_false, Bool.false_eq_true]

theorem closingBraceFrom_append {s : Nesting} {a : Text} (h : s.HidesBraces a) (depth : Int)
    (b : Text) :
    closingBraceFrom depth s.quote s.afterBackslash (a ++ b) =
      (closingBraceFrom depth (s.read a).quote (s.read a).afterBackslash b).map (· + a.length) := by
  induction a generalizing s with
  | nil => exact Option.map_id'.symm
  | cons c rest ih =>
    rw [List.cons_append, closingBraceFrom_cons h.1, ih h.2, Option.map_map]
    rfl

/-- Behind such a text the next brace closes the slot. -/
theorem Text.IsEnclosable.closingBrace?_eq {t : Text} (ht : t.IsEnclosable) :
    closingBrace? ('{' :: (t ++ ['}'])) = some (t.length + 1) := by
  have hinside := closingBraceFrom_append ht.hidesBraces 1 ['}']
  have hend : ∀ afterBackslash, closingBraceFrom 1 none afterBackslash ['}'] = some 0 :=
    fun _ => rfl
  rw [ht.isClosed.quote_eq, hend, Option.map_some, Nat.zero_add] at hinside
  show (closingBraceFrom 1 none false (t ++ ['}'])).map (· + 1) = _
  have hstart : closingBraceFrom 1 none false (t ++ ['}']) = some t.length := hinside
  rw [hstart]
  rfl

/-! ### Quotations -/

namespace Text

/-- What can stand between double quotation marks: anything without such marks that does not end
with a backslash. -/
structure IsQuotable (t : Text) : Prop where
  noQuote : '"' ∉ t
  noBackslash : t.getLast? ≠ some '\\'

instance (t : Text) : Decidable t.IsQuotable :=
  decidable_of_iff ('"' ∉ t ∧ t.getLast? ≠ some '\\')
    ⟨fun h => ⟨h.1, h.2⟩, fun h => ⟨h.noQuote, h.noBackslash⟩⟩

/-- A text in double quotation marks. -/
def inQuotes (t : Text) : Text :=
  '"' :: (t ++ ['"'])

theorem getLast?_inQuotes (t : Text) : t.inQuotes.getLast? = some '"' := by
  rw [inQuotes, ← List.cons_append, List.getLast?_concat]

theorem trim_inQuotes (t : Text) : t.inQuotes.trim = t.inQuotes := by
  refine trim_eq_self ?_ ?_
  · rintro c ⟨⟩
    rfl
  · intro c hc
    rw [getLast?_inQuotes] at hc
    obtain rfl := Option.some.inj hc
    rfl

end Text

/-- The marks around a quotation come off again, with all white space around them. -/
theorem unquote_inQuotes {t u : Text} (h : t.trim = u.inQuotes) : unquote t = u := by
  rw [unquote, h, Text.inQuotes]
  obtain ⟨c, rest, hrest⟩ : ∃ c rest, u ++ ['"'] = c :: rest :=
    List.exists_cons_of_ne_nil (List.append_ne_nil_of_right_ne_nil u (List.cons_ne_nil _ _))
  rw [hrest]
  dsimp only
  rw [← hrest, List.getLast?_concat, List.dropLast_concat]
  rfl

namespace Nesting

variable {s : Nesting} {t : Text}

/-- Inside of a quotation nothing but its mark ends it. -/
theorem step_of_quote (hs : s.quote = some '"') {c : Char} (hc : c ≠ '"') :
    s.step c = ⟨s.depth, some '"', c == '\\'⟩ := by
  rw [step, hs]
  simp only [beq_eq_false_iff_ne.mpr hc, Bool.false_and, Bool.false_eq_true, if_false]

theorem read_of_quote (hs : s.quote = some '"') (ht : '"' ∉ t) :
    s.read t = ⟨s.depth, some '"', (t.getLast?.map (· == '\\')).getD s.afterBackslash⟩ := by
  induction t generalizing s with
  | nil =>
    obtain ⟨depth, quote, afterBackslash⟩ := s
    obtain rfl : quote = _ := hs
    rfl
  | cons c rest ih =>
    rw [List.mem_cons, not_or] at ht
    show (s.step c).read rest = _
    rw [step_of_quote hs (Ne.symm ht.1), ih rfl ht.2, List.getLast?_cons]
    cases rest.getLast? <;> rfl

/-- No braces count there. -/
theorem hidesBraces_of_quote (hs : s.quote = some '"') (ht : '"' ∉ t) : s.HidesBraces t := by
  induction t generalizing s with
  | nil => trivial
  | cons c rest ih =>
    rw [List.mem_cons, not_or] at ht
    have hquoted : s.quote ≠ none := by
      rw [hs]
      rintro ⟨⟩
    refine ⟨fun h => absurd h hquoted, ih ?_ ht.2⟩
    rw [step_of_quote hs (Ne.symm ht.1)]

/-- Nothing stands at the top level there. -/
theorem topOccurrencesFrom_of_quote (hs : s.quote = some '"') (ht : '"' ∉ t) (token : Text)
    (i : Nat) : topOccurrencesFrom token s i (t ++ ['"']) = [] := by
  have htop : ∀ c, s.isTop c = false := by
    intro c
    rw [isTop, hs]
    rfl
  induction t generalizing s i with
  | nil =>
    rw [List.nil_append, topOccurrencesFrom, htop]
    rfl
  | cons c rest ih =>
    rw [List.mem_cons, not_or] at ht
    rw [List.cons_append, topOccurrencesFrom, htop, step_of_quote hs (Ne.symm ht.1)]
    exact ih rfl ht.2 _ fun _ => rfl

theorem step_quote (hs : s.quote = none) : s.step '"' = ⟨s.depth, some '"', false⟩ := by
  rw [step, hs]
  rfl

end Nesting

namespace Text.IsQuotable

variable {t : Text}

/-- A quotation leaves nothing open that was not open before. -/
theorem read_inQuotes (ht : t.IsQuotable) {s : Nesting} (hs : s.quote = none) :
    s.read t.inQuotes = ⟨s.depth, none, false⟩ := by
  -- so that the mark at the end counts
  have hlast : (t.getLast?.map (· == '\\')).getD false = false := by
    cases h : t.getLast? with
    | none => rfl
    | some c =>
      have hne : c ≠ '\\' := fun hc => ht.noBackslash (hc ▸ h)
      exact beq_eq_false_iff_ne.mpr hne
  show (s.step '"').read (t ++ ['"']) = _
  rw [Nesting.step_quote hs, Nesting.read_append, Nesting.read_of_quote rfl ht.noQuote, hlast]
  rfl

theorem isBalanced (ht : t.IsQuotable) : t.inQuotes.IsBalanced := by
  have hread := ht.read_inQuotes (s := .start) rfl
  have hclosed : (Nesting.start.read t.inQuotes).IsClosed := by
    rw [hread]
    exact ⟨rfl, rfl⟩
  refine ⟨hclosed, fun p hp => ?_⟩
  cases p with
  | nil => exact Int.le_refl 0
  | cons c q =>
    obtain ⟨rfl, hq⟩ := List.cons_prefix_cons.mp hp
    rcases List.prefix_concat_iff.mp hq with rfl | hq
    · exact Int.le_of_eq hclosed.depth_eq.symm
    · -- brackets in a quotation are not counted
      show 0 ≤ ((Nesting.start.step '"').read q).depth
      rw [Nesting.step_quote rfl, Nesting.read_of_quote rfl fun h => ht.noQuote (hq.subset h)]
      exact Int.le_refl 0

theorem isEnclosable (ht : t.IsQuotable) : t.inQuotes.IsEnclosable := by
  refine ⟨ht.isBalanced, fun _ => by decide, Nesting.hidesBraces_append.mpr ⟨?_, ?_⟩⟩
  · exact Nesting.hidesBraces_of_quote rfl ht.noQuote
  · exact ⟨fun _ => by decide, trivial⟩

/-- At the top level of a quotation nothing occurs. -/
theorem topOccurrences_inQuotes (ht : t.IsQuotable) (token : Text) :
    topOccurrences token t.inQuotes = [] := by
  have hmark : Nesting.start.isTop '"' = false := rfl
  rw [topOccurrences, inQuotes, topOccurrencesFrom, hmark, Nesting.step_quote rfl]
  exact Nesting.topOccurrencesFrom_of_quote rfl ht.noQuote token _

theorem isArgument (ht : t.IsQuotable) : t.inQuotes.IsArgument :=
  ⟨⟨List.cons_ne_nil _ _, trim_inQuotes t, ht.isBalanced⟩, ht.topOccurrences_inQuotes [',']⟩

end Text.IsQuotable

/-! ### Slots with quotations -/

namespace Slot

/-- A choice between two quotations, by a condition. -/
def choiceText (condition yes no : Text) : Text :=
  condition ++ (" ? ".toList ++ (yes.inQuotes ++ (" : ".toList ++ no.inQuotes)))

/-- A draw among several quotations. -/
def drawingText (options : List Text) : Text :=
  "随机文字".toList ++ (Operation.joinArguments (options.map Text.inQuotes)).wrap

variable {condition yes no : Text} {options : List Text}

/-- A choice between quotations is read as it is written. -/
theorem read_choice (hcondition : condition.IsBalanced)
    (hquestion : topOccurrences ['?'] condition = []) (hyes : yes.IsQuotable) :
    read (choiceText condition yes no) = .choose (condition ++ [' ']) yes no := by
  have hspace : Text.IsBalanced [' '] := Text.isBalanced_of_isPlain (by decide)
  -- what stands behind the colon need not be looked at
  have hcolon : topOccurrences [':'] ([' '] ++ yes.inQuotes) = [] :=
    topOccurrences_append_eq_nil hspace.isClosed rfl (hyes.topOccurrences_inQuotes _)
  have hquestionMark := breakTop?_spaced hcondition (by decide) (by decide) hquestion
    (yes.inQuotes ++ (" : ".toList ++ no.inQuotes))
  have hcolonMark := breakTop?_spaced (hspace.append hyes.isBalanced) (by decide) (by decide)
    hcolon no.inQuotes
  have hternary : ternary? (choiceText condition yes no) =
      some (condition ++ [' '], ([' '] ++ yes.inQuotes) ++ [' '], ' ' :: no.inQuotes) := by
    rw [ternary?, Option.bind_eq_some_iff]
    exact ⟨_, hquestionMark, Option.map_eq_some_iff.mpr ⟨_, hcolonMark, rfl⟩⟩
  have hyes' : unquote (([' '] ++ yes.inQuotes) ++ [' ']) = yes := by
    refine unquote_inQuotes ?_
    rw [Text.trim_concat (by decide), List.singleton_append, Text.trim_cons (by decide),
      Text.trim_inQuotes]
  have hno' : unquote (' ' :: no.inQuotes) = no := by
    refine unquote_inQuotes ?_
    rw [Text.trim_cons (by decide), Text.trim_inQuotes]
  rw [read, hternary]
  dsimp only
  rw [hyes', hno']

example : read "变量.暗号 == \"\x7b?\" ? \"门开了 :) \x7d\" : \"\x7b名称\x7d，谁?\"".toList =
    .choose "变量.暗号 == \"\x7b?\" ".toList "门开了 :) \x7d".toList "\x7b名称\x7d，谁?".toList := by
  decide

/-- Quotations are not blank, and their marks come off. -/
theorem map_unquote_filter {parts : List Text}
    (h : parts.map Text.trim = options.map Text.inQuotes) :
    (parts.filter fun option => !option.trim.isEmpty).map unquote = options := by
  induction parts generalizing options with
  | nil =>
    rw [List.map_nil, eq_comm, List.map_eq_nil_iff] at h
    rw [h]
    rfl
  | cons p parts ih =>
    obtain ⟨option, rest, rfl, hp, hrest⟩ := List.map_eq_cons_iff.mp h.symm
    have hkept : (!p.trim.isEmpty) = true := by
      rw [← hp]
      rfl
    have hfilter : (p :: parts).filter (fun option => !option.trim.isEmpty) =
        p :: parts.filter fun option => !option.trim.isEmpty := List.filter_cons_of_pos hkept
    rw [hfilter, List.map_cons, ih hrest.symm, unquote_inQuotes hp.symm]

theorem ternary?_drawingText (h : ∀ option ∈ options, option.IsQuotable) :
    ternary? (drawingText options) = none := by
  have hjoined : (Operation.joinArguments (options.map Text.inQuotes)).IsBalanced :=
    isBalanced_joinArguments (List.forall_mem_map.mpr fun option ho => (h option ho).isBalanced)
  have hword : (Nesting.start.read "随机文字".toList).IsClosed := ⟨rfl, rfl⟩
  have hmark : '?' ∉ "随机文字".toList := by decide
  have hnone : topOccurrences ['?'] (drawingText options) = [] :=
    (topOccurrencesFrom_append_of_notMem hmark [] .start 0 _).trans
      (topOccurrencesFrom_wrap hjoined hword (by decide) (by decide) [] _)
  rw [ternary?, breakTop?_eq_none hnone, Option.bind_none]

theorem trim_drawingText (options : List Text) :
    (drawingText options).trim = drawingText options := by
  refine Text.trim_eq_self ?_ ?_
  · intro c hc
    obtain rfl := Option.some.inj hc
    rfl
  · intro c hc
    obtain rfl := Option.some.inj ((Text.getLast?_append_wrap _ _).symm.trans hc)
    rfl

theorem drawn?_drawingText (options : List Text) :
    drawn? (drawingText options) =
      some (Operation.joinArguments (options.map Text.inQuotes)) := by
  have hafter : Text.after? "随机文字(".toList (drawingText options) =
      some (Operation.joinArguments (options.map Text.inQuotes) ++ [')']) :=
    Text.after?_eq_some_iff.mpr rfl
  rw [drawn?, hafter, Option.bind_some, List.getLast?_concat, if_pos rfl, List.dropLast_concat]

/-- So is a draw among quotations. -/
theorem read_drawing (hne : options ≠ []) (h : ∀ option ∈ options, option.IsQuotable) :
    read (drawingText options) = .draw options := by
  have hargs : ∀ a ∈ options.map Text.inQuotes, a.IsArgument :=
    List.forall_mem_map.mpr fun option ho => (h option ho).isArgument
  have hne' : options.map Text.inQuotes ≠ [] := fun hnil => hne (List.map_eq_nil_iff.mp hnil)
  have hoptions : drawOptions (Operation.joinArguments (options.map Text.inQuotes)) = options :=
    map_unquote_filter (splitTop_joinArguments hne' hargs)
  rw [read, ternary?_drawingText h]
  dsimp only
  rw [trim_drawingText, drawn?_drawingText]
  dsimp only
  rw [hoptions]

/-! Braces around the two make slots. -/

theorem isEnclosable_choiceText (hcondition : condition.IsEnclosable) (hyes : yes.IsQuotable)
    (hno : no.IsQuotable) : (choiceText condition yes no).IsEnclosable := by
  have hquestion : Text.IsEnclosable " ? ".toList := .of_isPlain (by decide)
  have hcolon : Text.IsEnclosable " : ".toList := .of_isPlain (by decide)
  exact hcondition.append (hquestion.append (hyes.isEnclosable.append
    (hcolon.append hno.isEnclosable)))

theorem isEnclosable_drawingText (h : ∀ option ∈ options, option.IsQuotable) :
    (drawingText options).IsEnclosable := by
  have hword : Text.IsEnclosable "随机文字".toList := .of_isPlain (by decide)
  have hjoined : (Operation.joinArguments (options.map Text.inQuotes)).IsEnclosable :=
    joinArguments_of_append Text.IsEnclosable.of_isPlain Text.IsEnclosable.append
      (List.forall_mem_map.mpr fun option ho => (h option ho).isEnclosable)
  exact hword.append hjoined.wrap

end Slot

/-! ### Passages of a single slot -/

namespace Passage

/-- The piece of a passage that the content of a slot makes. -/
def ofSlot : Slot → Segment
  | .choose condition yes no =>
    .choose (Condition.read condition.trim) (read yes) (read no)
  | .draw options => .draw (options.map read)
  | .variable key => .variable key
  | .mention holder what => .mention holder what
  | .blank => .blank

theorem read_of_closingBrace {rest : Text} {k : Nat} (h : closingBrace? ('{' :: rest) = some k) :
    read ('{' :: rest) = ofSlot (Slot.read (rest.take (k - 1))) :: read (rest.drop k) := by
  rw [read, if_pos rfl, h]
  dsimp only
  congr 1
  split
  · rename_i hslot
    rw [hslot]
    rfl
  · rename_i options hslot
    rw [hslot]
    exact congrArg Segment.draw (map_attach_of_forall fun option _ => rfl)
  · rename_i hslot
    rw [hslot]
    rfl
  · rename_i hslot
    rw [hslot]
    rfl
  · rename_i hslot
    rw [hslot]
    rfl

/-- A passage of a slot alone is the piece that its content makes. -/
theorem read_braces {t : Text} (h : t.IsEnclosable) :
    read ('{' :: (t ++ ['}'])) = [ofSlot (Slot.read t)] := by
  have hlength : (t ++ ['}']).length = t.length + 1 := List.length_append
  rw [read_of_closingBrace h.closingBrace?_eq, Nat.add_sub_cancel, List.take_left, ← hlength,
    List.drop_length, read]

section Rendering

variable (w : World n) (subject : Seat n) (scope : Scope)

theorem renderAll_singleton (s : Segment) :
    renderAll w subject scope [s] = renderSegment w subject scope s := by
  simp only [renderAll, pure_bind, List.append_nil, bind_pure]

theorem renderNth_map_read {options : List Text} {k : Nat} (h : k < options.length) (d : Text) :
    renderNth w subject scope (options.map read) k =
      renderPassage w subject scope (options.getD k d) := by
  induction options generalizing k with
  | nil => exact absurd h (Nat.not_lt_zero k)
  | cons option rest ih =>
    cases k with
    | zero => rfl
    | succ k => exact ih (Nat.lt_of_succ_lt_succ h)

/-- One die decides which passage is drawn, and that one alone is rendered. -/
theorem renderSegment_draw (option : Text) (rest : List Text) :
    renderSegment w subject scope (ofSlot (.draw (option :: rest))) =
      Dice.pick option rest >>= renderPassage w subject scope := by
  have hlength : ((option :: rest).map read).length = rest.length + 1 := List.length_map ..
  rw [ofSlot, renderSegment, hlength, if_neg (Nat.succ_ne_zero _), Dice.pick, bind_assoc]
  refine bind_congr fun k => ?_
  have hk : k % (rest.length + 1) < (option :: rest).length := Nat.mod_lt _ (Nat.succ_pos _)
  rw [pure_bind]
  exact renderNth_map_read w subject scope hk option

end Rendering

end Passage

section Opaque

variable (w : World n) (subject : Seat n) (scope : Scope)

/-- A choice between quotations renders the passage that the condition is for, and nothing else. -/
theorem renderPassage_choice {condition yes no : Text} (hcondition : condition.IsEnclosable)
    (hquestion : topOccurrences ['?'] condition = []) (hyes : yes.IsQuotable)
    (hno : no.IsQuotable) :
    renderPassage w subject scope ('{' :: (Slot.choiceText condition yes no ++ ['}'])) =
      evaluateCondition w none subject scope condition >>= fun holds =>
        renderPassage w subject scope (if holds then yes else no) := by
  have hread := Passage.read_braces (Slot.isEnclosable_choiceText hcondition hyes hno)
  rw [Slot.read_choice hcondition.toIsBalanced hquestion hyes] at hread
  rw [renderPassage, hread, Passage.renderAll_singleton, Passage.ofSlot, Passage.renderSegment,
    Text.trim_concat (by decide), ← evaluateCondition_trim]
  refine bind_congr fun holds => ?_
  cases holds with
  | true => rfl
  | false => rfl

/-- A draw among quotations renders the passage that one die picks, and nothing else. -/
theorem renderPassage_drawing {option : Text} {rest : List Text}
    (h : ∀ a ∈ option :: rest, a.IsQuotable) :
    renderPassage w subject scope ('{' :: (Slot.drawingText (option :: rest) ++ ['}'])) =
      Dice.pick option rest >>= renderPassage w subject scope := by
  have hread := Passage.read_braces (Slot.isEnclosable_drawingText h)
  rw [Slot.read_drawing (List.cons_ne_nil _ _) h] at hread
  rw [renderPassage, hread, Passage.renderAll_singleton, Passage.renderSegment_draw]

end Opaque

/-- Whatever stands between double quotation marks in a slot is left alone until it is chosen.  A
choice renders the passage that its condition is for, and a draw the one that a single die picks
among all of them; the others are not looked at, and no dice are rolled for them. -/
theorem only_the_chosen_quotation_is_rendered (w : World n) (subject : Seat n) (scope : Scope) :
    (∀ condition yes no : Text, condition.IsEnclosable → topOccurrences ['?'] condition = [] →
      yes.IsQuotable → no.IsQuotable →
      (renderPassage w subject scope ('{' :: (Slot.choiceText condition yes no ++ ['}'])) =
        evaluateCondition w none subject scope condition >>= fun holds =>
          renderPassage w subject scope (if holds then yes else no)) ∧
      ∀ d : Dice,
        let asked := (evaluateCondition w none subject scope condition).run d
        (renderPassage w subject scope ('{' :: (Slot.choiceText condition yes no ++ ['}']))).run d =
          (renderPassage w subject scope (if asked.1 then yes else no)).run asked.2) ∧
    ∀ (option : Text) (rest : List Text), (∀ a ∈ option :: rest, a.IsQuotable) →
      (renderPassage w subject scope ('{' :: (Slot.drawingText (option :: rest) ++ ['}'])) =
        Dice.pick option rest >>= renderPassage w subject scope) ∧
      ∀ d : Dice,
        let drawn := (Dice.pick option rest).run d
        drawn.1 ∈ option :: rest ∧
        drawn.2 = { d with rolls := d.rolls.push (.pick (rest.length + 1)) } ∧
        (renderPassage w subject scope
            ('{' :: (Slot.drawingText (option :: rest) ++ ['}']))).run d =
          (renderPassage w subject scope drawn.1).run drawn.2 := by
  refine ⟨?_, ?_⟩
  · intro condition yes no hcondition hquestion hyes hno
    have hchoice := renderPassage_choice w subject scope hcondition hquestion hyes hno
    refine ⟨hchoice, fun d => ?_⟩
    dsimp only
    rw [hchoice]
    rfl
  · intro option rest h
    have hdrawing := renderPassage_drawing w subject scope h
    refine ⟨hdrawing, fun d => ⟨Chance.Ensures.pick option rest d, rfl, ?_⟩⟩
    rw [hdrawing]
    rfl

/-- A password with a brace in it. -/
def password : Text :=
  "变量.暗号 == \"\x7b?\"".toList

/-- An answer with a brace that nothing opens. -/
def welcome : Text :=
  "门开了 :) \x7d".toList

/-- An answer with a slot of its own. -/
def challenge : Text :=
  "\x7b名称\x7d，谁?".toList

theorem password_is_asked :
    (password.IsEnclosable ∧ welcome.IsQuotable ∧ challenge.IsQuotable) ∧
    (renderPassage trainerWorld 0 .empty
        ('{' :: (Slot.choiceText password welcome challenge ++ ['}'])) =
      evaluateCondition trainerWorld none 0 .empty password >>= fun holds =>
        renderPassage trainerWorld 0 .empty (if holds then welcome else challenge)) ∧
    (renderPassage trainerWorld 0 .empty
        ('{' :: (Slot.drawingText [welcome, challenge] ++ ['}'])) =
      Dice.pick welcome [challenge] >>= renderPassage trainerWorld 0 .empty) := by
  have hpassword : password.IsEnclosable := by decide
  have hwelcome : welcome.IsQuotable := by decide
  have hchallenge : challenge.IsQuotable := by decide
  have hboth : ∀ a ∈ [welcome, challenge], a.IsQuotable :=
    List.forall_mem_cons.mpr ⟨hwelcome, List.forall_mem_singleton.mpr hchallenge⟩
  refine ⟨⟨hpassword, hwelcome, hchallenge⟩, ?_, ?_⟩
  · exact ((only_the_chosen_quotation_is_rendered trainerWorld 0 .empty).1 password welcome
      challenge hpassword (by decide) hwelcome hchallenge).1
  · exact ((only_the_chosen_quotation_is_rendered trainerWorld 0 .empty).2 welcome [challenge]
      hboth).1

end EventScript
