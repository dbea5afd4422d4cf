/-
Passages part by part.

A text with slots falls into letters and slots, from left to right: a brace that some later brace
closes opens a slot, and everything else is a letter.  Rendering copies the letters and fills in
the slots, and what it fills in is not looked at again:

* `closingBraceFrom_eq_some` — where a slot ends is decided by its content, not by what follows;
* `Passage.parts`, `Passage.flatMap_text_parts` — the parts of a text, which make it up;
* `Passage.read_eq_map_parts` — a passage has one piece a part;
* `Passage.parts_append` — parts stay what they are when a text goes on, if none of its letters
  is a brace that waits to be closed;
* `renderPassage_eq_fillParts` — what a text renders to, part by part;
* `rendering_composes` — so texts compose, and stored texts are put in as they are.
-/
import EventScript.Proofs.Quotation

namespace EventScript

variable {n : Nat}

/-! ### The end of a slot, whatever follows -/

/-- A character either ends the search for the closing brace, or the search goes on behind it. -/
theorem closingBraceFrom_step (depth : Int) (quote : Option Char) (afterBackslash : Bool)
    (c : Char) :
    (c = '}' ∧ ∀ t, closingBraceFrom depth quote afterBackslash (c :: t) = some 0) ∨
    ∃ depth' quote' afterBackslash', ∀ t, closingBraceFrom depth quote afterBackslash (c :: t) =
      (closingBraceFrom depth' quote' afterBackslash' t).map (· + 1) := by
  cases quote with
  | some q => exact .inr ⟨_, _, _, fun _ => rfl⟩
  | none =>
    by_cases hquote : isQuote c
    · exact .inr ⟨_, _, _, fun _ => if_pos hquote⟩
    · by_cases hopen : c = '{'
      · exact .inr ⟨depth + 1, none, false, fun _ => by rw [hopen]; rfl⟩
      · by_cases hclose : c = '}'
        · subst hclose
          by_cases hlast : depth - 1 = 0
          · exact .inl ⟨rfl, fun _ => if_pos hlast⟩
          · exact .inr ⟨depth - 1, none, false, fun _ => if_neg hlast⟩
        · refine .inr ⟨depth, none, c == '\\', fun _ => ?_⟩
          simp only [closingBraceFrom, hquote, hopen, hclose, beq_iff_eq, if_false,
            Bool.false_eq_true]

/-- The brace that is found stands where it is said to be, and is found there whatever follows. -/
theorem closingBraceFrom_eq_some {depth : Int} {quote : Option Char} {afterBackslash : Bool}
    {t : Text} {k : Nat} (h : closingBraceFrom depth quote afterBackslash t = some k) :
    ∃ a b, t = a ++ '}' :: b ∧ a.length = k ∧
      ∀ u, closingBraceFrom depth quote afterBackslash (a ++ '}' :: u) = some k := by
  induction t generalizing depth quote afterBackslash k with
  | nil =>
    rw [closingBraceFrom] at h
    cases h
  | cons c rest ih =>
    rcases closingBraceFrom_step depth quote afterBackslash c with ⟨rfl, hend⟩ | ⟨d, q, s, hstep⟩
    · obtain rfl := Option.some.inj ((hend rest).symm.trans h)
      exact ⟨[], rest, rfl, rfl, hend⟩
    · rw [hstep] at h
      obtain ⟨j, hj, rfl⟩ := Option.map_eq_some_iff.mp h
      obtain ⟨a, b, rfl, hlength, hfound⟩ := ih hj
      refine ⟨c :: a, b, rfl, congrArg (· + 1) hlength, fun u => ?_⟩
      rw [List.cons_append, hstep, hfound, Option.map_some]

/-- The content of a slot: the brace behind it closes the one before it. -/
def Text.IsSlot (content : Text) : Prop :=
  closingBrace? ('{' :: (content ++ ['}'])) = some (content.length + 1)

instance (content : Text) : Decidable content.IsSlot :=
  inferInstanceAs (Decidable (_ = _))

theorem Text.IsSlot.closingBrace?_append {content : Text} (h : content.IsSlot) (t : Text) :
    closingBrace? ('{' :: (content ++ '}' :: t)) = some (content.length + 1) := by
  obtain ⟨j, hj, hlength⟩ := Option.map_eq_some_iff.mp h
  obtain rfl := Nat.succ.inj hlength
  obtain ⟨a, b, hsplit, ha, hfound⟩ := closingBraceFrom_eq_some hj
  obtain rfl : content = a := (List.append_inj hsplit ha.symm).1
  exact Option.map_eq_some_iff.mpr ⟨_, hfound t, rfl⟩

/-- A brace that is closed opens a slot. -/
theorem exists_isSlot {rest : Text} {k : Nat} (h : closingBrace? ('{' :: rest) = some k) :
    ∃ content more, rest = content ++ '}' :: more ∧ k = content.length + 1 ∧ content.IsSlot := by
  obtain ⟨j, hj, rfl⟩ := Option.map_eq_some_iff.mp h
  obtain ⟨content, more, rfl, rfl, hfound⟩ := closingBraceFrom_eq_some hj
  exact ⟨content, more, rfl, rfl, Option.map_eq_some_iff.mpr ⟨_, hfound [], rfl⟩⟩

namespace Passage

/-! ### Letters and slots -/

/-- A part of a text with slots. -/
inductive Part where
  | letter (c : Char)
  | slot (content : Text)
  deriving DecidableEq, Repr

/-- A part as it is written. -/
def Part.text : Part → Text
  | letter c => [c]
  | slot content => '{' :: (content ++ ['}'])

/-- The piece of a passage that a part makes. -/
def Part.segment : Part → Segment
  | letter c => .copy c
  | slot content => ofSlot (Slot.read content)

/-- Goes on with `parts`; `skip` characters still belong to the slot before. -/
def partsFrom : Nat → Text → List Part
  | _, [] => []
  | skip + 1, _ :: rest => partsFrom skip rest
  | 0, c :: rest =>
    match if c = '{' then closingBrace? (c :: rest) else none with
    | none => .letter c :: partsFrom 0 rest
    | some k => .slot (rest.take (k - 1)) :: partsFrom k rest

/-- The letters and slots of a text, from left to right. -/
def parts (t : Text) : List Part :=
  partsFrom 0 t

theorem partsFrom_eq (skip : Nat) (t : Text) : partsFrom skip t = parts (t.drop skip) := by
  induction t generalizing skip with
  | nil => rw [List.drop_nil, parts, partsFrom, partsFrom]
  | cons c rest ih =>
    cases skip with
    | zero => rfl
    | succ skip => exact ih skip

theorem parts_nil : parts [] = [] :=
  rfl

/-- A brace that nothing closes is a letter, like everything that is no opening brace. -/
theorem parts_cons {c : Char} {rest : Text} (h : c = '{' → closingBrace? (c :: rest) = none) :
    parts (c :: rest) = .letter c :: parts rest := by
  have hnone : (if c = '{' then closingBrace? (c :: rest) else none) = none :=
    ite_eq_right_iff.mpr h
  rw [parts, partsFrom, hnone]
  rfl

theorem parts_slot {content : Text} (h : content.IsSlot) (more : Text) :
    parts ('{' :: (content ++ '}' :: more)) = .slot content :: parts more := by
  rw [parts, partsFrom, if_pos rfl, h.closingBrace?_append]
  dsimp only
  rw [Nat.add_sub_cancel, List.take_left, partsFrom_eq, List.drop_length_add_append]
  rfl

/-- Texts are taken apart from the left: a letter or a slot, and then the rest. -/
theorem parts_induction {motive : Text → Prop} (nil : motive [])
    (letter : ∀ (c : Char) (rest : Text), (c = '{' → closingBrace? (c :: rest) = none) →
      motive rest → motive (c :: rest))
    (slot : ∀ content more : Text, content.IsSlot → motive more →
      motive ('{' :: (content ++ '}' :: more)))
    (t : Text) : motive t := by
  induction hlength : t.length using Nat.strong_induction_on generalizing t with
  | _ k ih =>
    subst hlength
    cases t with
    | nil => exact nil
    | cons c rest =>
      by_cases hnone : c = '{' → closingBrace? (c :: rest) = none
      · exact letter c rest hnone (ih _ (Nat.lt_succ_self _) rest rfl)
      · rw [Classical.not_imp, ← ne_eq, Option.ne_none_iff_exists'] at hnone
        obtain ⟨rfl, k, hk⟩ := hnone
        obtain ⟨content, more, rfl, -, hcontent⟩ := exists_isSlot hk
        refine slot content more hcontent (ih _ ?_ more rfl)
        simp only [List.length_cons, List.length_append]
        omega

/-- The parts of a text make it up. -/
theorem flatMap_text_parts (t : Text) : (parts t).flatMap Part.text = t := by
  induction t using parts_induction with
  | nil => rfl
  | letter c rest hc ih =>
    rw [parts_cons hc, List.flatMap_cons, ih]
    rfl
  | slot content more hcontent ih =>
    rw [parts_slot hcontent, List.flatMap_cons, ih, Part.text, List.cons_append, List.append_assoc]
    rfl

/-- A slot among the parts is closed, and the brace behind its content closes it. -/
theorem isSlot_of_mem_parts {t content : Text} (h : .slot content ∈ parts t) :
    content.IsSlot := by
  induction t using parts_induction with
  | nil => cases h
  | letter c rest hc ih =>
    rw [parts_cons hc, List.mem_cons] at h
    exact ih (h.resolve_left fun hpart => by cases hpart)
  | slot other more hother ih =>
    rw [parts_slot hother, List.mem_cons] at h
    rcases h with hpart | hmore
    · obtain rfl := Part.slot.inj hpart
      exact hother
    · exact ih hmore

/-- A brace among the letters is not closed by anything that follows. -/
theorem closingBrace?_of_letter {t : Text} {before after : List Part}
    (h : parts t = before ++ .letter '{' :: after) :
    closingBrace? ('{' :: after.flatMap Part.text) = none := by
  induction t using parts_induction generalizing before with
  | nil => exact absurd h (by simp [parts_nil])
  | letter c rest hc ih =>
    rw [parts_cons hc] at h
    cases before with
    | nil =>
      obtain ⟨hletter, rfl⟩ := List.cons.inj h
      obtain rfl := Part.letter.inj hletter
      rw [flatMap_text_parts]
      exact hc rfl
    | cons part before => exact ih (List.cons.inj h).2
  | slot content more hcontent ih =>
    rw [parts_slot hcontent] at h
    cases before with
    | nil => exact absurd (List.cons.inj h).1 (by simp)
    | cons part before => exact ih (List.cons.inj h).2

/-- If no letter of a text is an opening brace, its parts are the first ones of any text that
begins with it. -/
theorem parts_append {a : Text} (h : .letter '{' ∉ parts a) (b : Text) :
    parts (a ++ b) = parts a ++ parts b := by
  induction a using parts_induction with
  | nil => rfl
  | letter c rest hc ih =>
    rw [parts_cons hc, List.mem_cons, not_or] at h
    -- a brace that waits for the text to go on has been excluded
    have hletter : c ≠ '{' := fun heq => h.1 (congrArg Part.letter heq.symm)
    rw [List.cons_append, parts_cons fun heq => absurd heq hletter, ih h.2, parts_cons hc,
      List.cons_append]
  | slot content more hcontent ih =>
    rw [parts_slot hcontent, List.mem_cons, not_or] at h
    rw [List.cons_append, List.append_assoc, List.cons_append, parts_slot hcontent, ih h.2,
      parts_slot hcontent, List.cons_append]

theorem parts_of_notMem {t : Text} (h : '{' ∉ t) : parts t = t.map .letter := by
  induction t with
  | nil => rfl
  | cons c rest ih =>
    rw [List.mem_cons, not_or] at h
    rw [parts_cons fun heq => absurd heq.symm h.1, ih h.2, List.map_cons]

/-- A passage has one piece for each part of its text. -/
theorem read_eq_map_parts (t : Text) : read t = (parts t).map Part.segment := by
  induction t using parts_induction with
  | nil => rw [read, parts_nil, List.map_nil]
  | letter c rest hc ih =>
    have hnone : (if c = '{' then closingBrace? (c :: rest) else none) = none :=
      ite_eq_right_iff.mpr hc
    rw [parts_cons hc, read, hnone, List.map_cons, ih]
    rfl
  | slot content more hcontent ih =>
    rw [parts_slot hcontent, read_of_closingBrace (hcontent.closingBrace?_append more),
      Nat.add_sub_cancel, List.take_left, List.drop_length_add_append, List.map_cons, ← ih]
    rfl

/-! ### Rendering -/

section Rendering

variable (w : World n) (subject : Seat n) (scope : Scope)

theorem renderAll_append (p q : Passage) :
    renderAll w subject scope (p ++ q) = (do
      let a ← renderAll w subject scope p
      let b ← renderAll w subject scope q
      pure (a ++ b)) := by
  induction p with
  | nil =>
    simp only [List.nil_append, renderAll, pure_bind, bind_pure]
  | cons s rest ih =>
    simp only [List.cons_append, renderAll, ih, bind_assoc, pure_bind, List.append_assoc]

/-- What a slot is filled with. Its passages are still texts, and `render` says what they render
to. -/
def fillSlot (render : Text → Chance Text) : Slot → Chance Text
  | .choose condition yes no => do
    if ← evaluateCondition w none subject scope condition.trim then render yes else render no
  | .draw [] => pure []
  | .draw (option :: rest) => Dice.pick option rest >>= render
  | .variable key => pure ((Value.ofVariable scope (String.ofList key)).display w)
  | .mention holder what => selectedText w subject scope holder what
  | .blank => pure []

theorem renderSegment_ofSlot (slot : Slot) :
    renderSegment w subject scope (ofSlot slot) =
      fillSlot w subject scope (renderPassage w subject scope) slot := by
  cases slot with
  | choose condition yes no => rfl
  | draw options =>
    cases options with
    | nil => rfl
    | cons option rest => exact renderSegment_draw w subject scope option rest
  | _ => rfl

end Rendering

/-- Copies the letters among some parts and fills in the slots, from left to right. -/
def fillParts (fill : Text → Chance Text) : List Part → Chance Text
  | [] => pure []
  | .letter c :: rest => do
    let after ← fillParts fill rest
    pure (c :: after)
  | .slot content :: rest => do
    let here ← fill content
    let after ← fillParts fill rest
    pure (here ++ after)

end Passage

section Rendering

variable (w : World n) (subject : Seat n) (scope : Scope)

/-- A text renders to its letters as they are, with each slot replaced by what it is filled
with. -/
theorem renderPassage_eq_fillParts (t : Text) :
    renderPassage w subject scope t =
      Passage.fillParts (fun content => Passage.fillSlot w subject scope
        (renderPassage w subject scope) (Slot.read content)) (Passage.parts t) := by
  have key : ∀ parts : List Passage.Part,
      Passage.renderAll w subject scope (parts.map Passage.Part.segment) =
        Passage.fillParts (fun content => Passage.fillSlot w subject scope
          (renderPassage w subject scope) (Slot.read content)) parts := by
    intro parts
    induction parts with
    | nil => rfl
    | cons part rest ih =>
      rw [List.map_cons, Passage.renderAll, ih]
      cases part with
      | letter c => rfl
      | slot content =>
        rw [Passage.Part.segment, Passage.renderSegment_ofSlot]
        rfl
  rw [← key, ← Passage.read_eq_map_parts]
  rfl

theorem renderPassage_append {a : Text} (h : .letter '{' ∉ Passage.parts a) (b : Text) :
    renderPassage w subject scope (a ++ b) = (do
      let before ← renderPassage w subject scope a
      let after ← renderPassage w subject scope b
      pure (before ++ after)) := by
  rw [renderPassage, Passage.read_eq_map_parts, Passage.parts_append h, List.map_append,
    Passage.renderAll_append, ← Passage.read_eq_map_parts, ← Passage.read_eq_map_parts]
  rfl

theorem renderPassage_of_notMem {t : Text} (h : '{' ∉ t) :
    renderPassage w subject scope t = pure t := by
  rw [renderPassage_eq_fillParts, Passage.parts_of_notMem h]
  clear h
  induction t with
  | nil => rfl
  | cons c rest ih =>
    rw [List.map_cons, Passage.fillParts, ih, pure_bind]

/-- A slot puts what it is filled with in its place, and the texts around it render as they would
alone. -/
theorem renderPassage_slot {a content : Text} (ha : .letter '{' ∉ Passage.parts a)
    (hcontent : content.IsSlot) (b : Text) :
    renderPassage w subject scope (a ++ ((Passage.Part.slot content).text ++ b)) = (do
      let before ← renderPassage w subject scope a
      let here ← Passage.fillSlot w subject scope (renderPassage w subject scope)
        (Slot.read content)
      let after ← renderPassage w subject scope b
      pure (before ++ (here ++ after))) := by
  have hparts : Passage.parts ((Passage.Part.slot content).text ++ b) =
      .slot content :: Passage.parts b := by
    rw [Passage.Part.text, List.cons_append, List.append_assoc]
    exact Passage.parts_slot hcontent b
  rw [renderPassage_append w subject scope ha,
    renderPassage_eq_fillParts w subject scope ((Passage.Part.slot content).text ++ b), hparts,
    Passage.fillParts, ← renderPassage_eq_fillParts]
  simp only [bind_assoc, pure_bind]

end Rendering

/-! ### What is put in -/

/-- A variable in a slot is read by its name, whatever the name is, unless the slot is a choice. -/
theorem Slot.read_variable {key : Text} (hternary : ternary? (variableMark ++ key) = none)
    (hlast : ∀ c ∈ key.getLast?, isBlank c = false) :
    read (variableMark ++ key) = .variable key := by
  have htrim : (variableMark ++ key).trim = variableMark ++ key := by
    refine Text.trim_eq_self (by rintro c ⟨⟩; rfl) fun c hc => ?_
    rw [List.getLast?_append] at hc
    cases hkey : key.getLast? with
    | none =>
      rw [hkey] at hc
      obtain rfl := Option.some.inj hc
      rfl
    | some d =>
      rw [hkey] at hc
      exact hlast c (hkey.trans hc)
  rw [read, hternary]
  dsimp only
  rw [htrim, Text.after?_eq_some_iff.mpr rfl]
  rfl

/-- A calling is one that is stored, for the character or for all. -/
theorem Passage.ensures_callingOf (w : World n) (subject : Seat n) (scope : Scope)
    (rules : List CallingRule) :
    Chance.Ensures (callingOf w subject scope rules) fun t =>
      t = w.settings.defaultCalling.toList ∨ ∃ rule ∈ rules, t = rule.calling.toList := by
  induction rules with
  | nil => exact .pure (.inl rfl)
  | cons rule rest ih =>
    refine .bind_of_forall fun holds => ?_
    cases holds with
    | true => exact .pure (.inr ⟨rule, List.mem_cons_self, rfl⟩)
    | false =>
      refine ih.mono fun t ht => ht.imp_right ?_
      rintro ⟨other, hother, rfl⟩
      exact ⟨other, List.mem_cons_of_mem _ hother, rfl⟩

/-- What some computed text makes between two texts that are rendered. -/
def renderAround (w : World n) (subject : Seat n) (scope : Scope) (a b : Text)
    (here : Chance Text) : Chance Text := do
  let before ← renderPassage w subject scope a
  let middle ← here
  let after ← renderPassage w subject scope b
  pure (before ++ (middle ++ after))

/-- Rendering is compositional, and literal outside of slots. If no opening brace of a text is left
over as a letter, the text and any other one after it render to what they render to alone, one after
the other, with the dice rolled in that order. Every text is made up of letters and slots, where a
slot is a brace, its content and the brace that closes it, and a brace is a letter only if none
closes it; the letters are copied and each slot is filled in by itself. What a slot puts in is not
read again: the value of a variable, the name of the acting character and how it calls the player
come out as they are stored, whatever characters they have. -/
theorem rendering_composes (w : World n) (subject : Seat n) (scope : Scope) :
    (∀ a b : Text, .letter '{' ∉ Passage.parts a →
      renderPassage w subject scope (a ++ b) = (do
        let before ← renderPassage w subject scope a
        let after ← renderPassage w subject scope b
        pure (before ++ after))) ∧
    (∀ t : Text,
      (Passage.parts t).flatMap Passage.Part.text = t ∧
      (∀ content, .slot content ∈ Passage.parts t → content.IsSlot) ∧
      (∀ before after, Passage.parts t = before ++ .letter '{' :: after →
        closingBrace? ('{' :: after.flatMap Passage.Part.text) = none) ∧
      renderPassage w subject scope t =
        Passage.fillParts (fun content => Passage.fillSlot w subject scope
          (renderPassage w subject scope) (Slot.read content)) (Passage.parts t)) ∧
    (∀ t : Text, '{' ∉ t → renderPassage w subject scope t = pure t) ∧
    (∀ a b : Text, .letter '{' ∉ Passage.parts a →
      (∀ key : Text, (variableMark ++ key).IsSlot → Slot.ternary? (variableMark ++ key) = none →
        (∀ c ∈ key.getLast?, isBlank c = false) →
        let text := a ++ ((Passage.Part.slot (variableMark ++ key)).text ++ b)
        let value := Value.ofVariable scope (String.ofList key)
        renderPassage w subject scope text =
          renderAround w subject scope a b (pure (value.display w)) ∧
        ∀ v : String, value = .text v → renderPassage w subject scope text =
          renderAround w subject scope a b (pure v.toList)) ∧
      renderPassage w subject scope (a ++ ((Passage.Part.slot "名称".toList).text ++ b)) =
        renderAround w subject scope a b (pure (w.character subject).name.toList) ∧
      renderPassage w subject scope (a ++ ((Passage.Part.slot "称呼".toList).text ++ b)) =
        renderAround w subject scope a b
          (Passage.callingOf w subject scope (w.character subject).callings)) ∧
    Chance.Ensures (Passage.callingOf w subject scope (w.character subject).callings) fun t =>
      t = w.settings.defaultCalling.toList ∨
        ∃ rule ∈ (w.character subject).callings, t = rule.calling.toList := by
  refine ⟨?_, ?_, ?_, ?_, Passage.ensures_callingOf w subject scope _⟩
  · exact fun a b ha => renderPassage_append w subject scope ha b
  · exact fun t => ⟨Passage.flatMap_text_parts t, fun _ => Passage.isSlot_of_mem_parts,
      fun _ _ => Passage.closingBrace?_of_letter, renderPassage_eq_fillParts w subject scope t⟩
  · exact fun t ht => renderPassage_of_notMem w subject scope ht
  · intro a b ha
    refine ⟨fun key hslot hternary hlast => ?_, ?_, ?_⟩
    · have hvariable := renderPassage_slot w subject scope ha hslot b
      rw [Slot.read_variable hternary hlast] at hvariable
      refine ⟨hvariable, fun v hv => ?_⟩
      rw [Passage.fillSlot, hv] at hvariable
      exact hvariable
    · have hread : Slot.read "名称".toList = .mention none .name := by decide
      have hslot : Text.IsSlot "名称".toList := by decide
      have hname := renderPassage_slot w subject scope ha hslot b
      rw [hread] at hname
      exact hname
    · have hread : Slot.read "称呼".toList = .mention none .calling := by decide
      have hslot : Text.IsSlot "称呼".toList := by decide
      have hcalling := renderPassage_slot w subject scope ha hslot b
      rw [hread] at hcalling
      exact hcalling

/-- A variable whose value looks like a slot and opens another one. -/
def slotScope : Scope :=
  Mapping.empty.put "话" (.text "\x7b名称\x7d, \x7b")

theorem a_value_like_a_slot_stays :
    (.letter '{' ∉ Passage.parts "\x7d \"".toList ∧ (variableMark ++ "话".toList).IsSlot ∧
      Slot.ternary? (variableMark ++ "话".toList) = none) ∧
    renderPassage trainerWorld 0 slotScope "\x7d \"\x7b变量.话\x7d\" \x7d".toList =
      pure "\x7d \"\x7b名称\x7d, \x7b\" \x7d".toList := by
  obtain ⟨-, -, hcopied, hput, -⟩ := rendering_composes trainerWorld 0 slotScope
  have hbefore : .letter '{' ∉ Passage.parts "\x7d \"".toList := by decide
  have hslot : (variableMark ++ "话".toList).IsSlot := by decide
  have hternary : Slot.ternary? (variableMark ++ "话".toList) = none := by decide
  have hend : ∀ c ∈ "话".toList.getLast?, isBlank c = false := by
    rintro c ⟨⟩
    rfl
  have hvalue := ((hput "\x7d \"".toList "\" \x7d".toList hbefore).1 "话".toList hslot hternary
    hend).2 "\x7b名称\x7d, \x7b" rfl
  refine ⟨⟨hbefore, hslot, hternary⟩, hvalue.trans ?_⟩
  rw [renderAround, hcopied _ (by decide), hcopied _ (by decide)]
  rfl

end EventScript
