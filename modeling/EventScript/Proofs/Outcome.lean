/-
What dialogues come to.

Against lines of input a dialogue either gives a value, with some of the lines left, or ends the
program.  Both are said of whole dialogues and composed along their parts; a transcript tells them
apart by its ending, if no part of the dialogue ends the program as if it had come to its end.

* `Dialogue.Gives`, `Terminal.Gives` — a dialogue shows something and gives a value;
* `Terminal.gives_bind_iff` — a dialogue that goes on gives a value if both parts do, and shows
  what they show;
* `Terminal.StopsBy` — a dialogue ends the program in certain ways only;
* `Terminal.exists_gives_of_exit` — a dialogue whose transcript ends well has given a value.
-/
import EventScript.Terminal.Dialogue

namespace EventScript

namespace Dialogue

variable {α β : Type} {lines left : List String} {shown : List Display}

/-! ### Values -/

/-- Against some lines a dialogue shows something and gives a value, with some lines left. -/
inductive Gives : Dialogue α → List String → List Display → α → List String → Prop
  | result (a : α) (lines : List String) : Gives (.result a) lines [] a lines
  | present (d : Display) {rest : Dialogue α} {lines left : List String} {shown : List Display}
      {a : α} (h : Gives rest lines shown a left) :
      Gives (.present d rest) lines (d :: shown) a left
  | ask (dice : Dice) {question : Styled} {judge : String → Verdict} {next : Nat → Dialogue α}
      {lines between left : List String} {k : Nat} {shown : List Display} {a : α}
      (hanswer : (Questioning.of question judge lines).answer = .ok (k, between))
      (h : Gives (next k) between shown a left) :
      Gives (.ask dice question judge next) lines
        ((Questioning.of question judge lines).shown ++ shown) a left

theorem Gives.andThen {f : β → Dialogue α} {x : Dialogue β} {between : List String}
    {later : List Display} {b : β} {a : α} (hx : Gives x lines shown b between)
    (hf : Gives (f b) between later a left) :
    Gives (andThen f x) lines (shown ++ later) a left := by
  induction hx with
  | result b lines => exact hf
  | present d _ ih => exact .present d (ih hf)
  | ask dice hanswer _ ih =>
    rw [List.append_assoc]
    exact .ask dice hanswer (ih hf)

theorem gives_andThen_iff {f : β → Dialogue α} {x : Dialogue β} {a : α} :
    Gives (andThen f x) lines shown a left ↔ ∃ first b between later,
      Gives x lines first b between ∧ Gives (f b) between later a left ∧
        shown = first ++ later := by
  constructor
  · intro h
    induction x generalizing lines shown with
    | result b => exact ⟨[], b, lines, shown, .result b lines, h, rfl⟩
    | stop dice ending => cases h
    | present d rest ih =>
      cases h with
      | present _ h =>
        obtain ⟨first, b, between, later, hx, hf, rfl⟩ := ih h
        exact ⟨d :: first, b, between, later, .present d hx, hf, rfl⟩
    | ask dice question judge next ih =>
      cases h with
      | ask _ hanswer h =>
        obtain ⟨first, b, between, later, hx, hf, rfl⟩ := ih _ h
        exact ⟨_, b, between, later, .ask dice hanswer hx, hf, by rw [List.append_assoc]⟩
  · rintro ⟨first, b, between, later, hx, hf, rfl⟩
    exact hx.andThen hf

/-! ### Endings -/

/-- Whatever is answered, a dialogue ends the program in a certain way, if at all. -/
def StopsBy (fault : Ending → Prop) : Dialogue α → Prop
  | result _ => True
  | stop _ ending => fault ending
  | present _ rest => StopsBy fault rest
  | ask _ _ _ next => ∀ k, StopsBy fault (next k)

theorem StopsBy.andThen {fault : Ending → Prop} {f : β → Dialogue α} {x : Dialogue β}
    (hx : StopsBy fault x) (hf : ∀ b, StopsBy fault (f b)) : StopsBy fault (andThen f x) := by
  induction x with
  | result b => exact hf b
  | stop dice ending => exact hx
  | present d rest ih => exact ih hx
  | ask dice question judge next ih => exact fun k => ih k (hx k)

end Dialogue

/-- A question does not end the program by itself. -/
theorem Questioning.answer_ne_exit (question : Styled) (judge : String → Verdict)
    (lines : List String) (code : Nat) :
    (Questioning.of question judge lines).answer ≠ .error (.exit code) := by
  induction lines with
  | nil => exact fun h => by cases h
  | cons line rest ih =>
    rw [Questioning.of]
    cases judge line with
    | accept k => exact fun h => by cases h
    | giveUp f => exact fun h => by cases h
    | refuse complaint => exact ih

/-- A dialogue whose transcript ends well has given a value, if it does not end the program so. -/
theorem Dialogue.exists_gives_of_exit {α : Type} {x : Dialogue (α × Dice)} {lines : List String}
    (hx : x.StopsBy (· ≠ .exit 0)) (h : (x.run lines).ending = .exit 0) :
    ∃ r left, x.Gives lines (x.run lines).shown r left := by
  induction x generalizing lines with
  | result r => exact ⟨r, lines, .result r lines⟩
  | stop dice ending => exact absurd h hx
  | present d rest ih =>
    obtain ⟨r, left, hgives⟩ := ih hx h
    exact ⟨r, left, .present d hgives⟩
  | ask dice question judge next ih =>
    cases hanswer : (Questioning.of question judge lines).answer with
    | ok p =>
      obtain ⟨k, between⟩ := p
      simp only [run, hanswer] at h ⊢
      obtain ⟨r, left, hgives⟩ := ih k (hx k) h
      exact ⟨r, left, .ask dice hanswer hgives⟩
    | error ending =>
      simp only [run, hanswer] at h
      exact absurd (h ▸ hanswer) (Questioning.answer_ne_exit question judge lines 0)

/-! ### Dialogues that roll dice -/

/-- What dialogues use up: dice and lines of input. -/
structure Supply where
  dice : Dice
  lines : List String

namespace Terminal

variable {α β : Type} {u v : Supply} {shown : List Display}

/-- With some dice and lines a dialogue shows something and gives a value, with some dice and
lines left. -/
def Gives (c : Terminal α) (u : Supply) (shown : List Display) (a : α) (v : Supply) : Prop :=
  (c.run u.dice).Gives u.lines shown (a, v.dice) v.lines

/-- The transcript of a dialogue with some dice and lines. -/
def transcript (c : Terminal α) (u : Supply) : Transcript :=
  (c.run u.dice).run u.lines

theorem gives_pure_iff {a b : α} :
    Gives (pure a) u shown b v ↔ shown = [] ∧ b = a ∧ v = u := by
  obtain ⟨dice, lines⟩ := v
  constructor
  · intro h
    cases h
    exact ⟨rfl, rfl, rfl⟩
  · rintro ⟨rfl, rfl, rfl⟩
    exact .result _ _

theorem gives_bind_iff {c : Terminal β} {f : β → Terminal α} {a : α} :
    Gives (c >>= f) u shown a v ↔ ∃ first b w later,
      Gives c u first b w ∧ Gives (f b) w later a v ∧ shown = first ++ later := by
  constructor
  · intro h
    obtain ⟨first, ⟨b, dice⟩, lines, later, hc, hf, hshown⟩ := Dialogue.gives_andThen_iff.mp h
    exact ⟨first, b, ⟨dice, lines⟩, later, hc, hf, hshown⟩
  · rintro ⟨first, b, w, later, hc, hf, rfl⟩
    exact Dialogue.Gives.andThen hc hf

theorem gives_display_iff {d : Display} :
    Gives (display d) u shown () v ↔ shown = [d] ∧ v = u := by
  obtain ⟨dice, lines⟩ := v
  constructor
  · intro h
    cases h with
    | present _ h =>
      cases h
      exact ⟨rfl, rfl⟩
  · rintro ⟨rfl, rfl⟩
    exact .present d (.result _ _)

theorem gives_move_iff {c : ExceptT Failure Chance α} {a : α} :
    Gives (move c) u shown a v ↔
      shown = [] ∧ c.run.run u.dice = (.ok a, v.dice) ∧ v.lines = u.lines := by
  obtain ⟨later, lines⟩ := v
  show Dialogue.Gives (move c u.dice) u.lines shown (a, later) lines ↔ _
  unfold move
  generalize c.run.run u.dice = r
  obtain ⟨result, dice⟩ := r
  cases result with
  | ok b =>
    constructor
    · intro h
      cases h
      exact ⟨rfl, rfl, rfl⟩
    · rintro ⟨rfl, h, hlines⟩
      cases h
      cases hlines
      exact .result _ _
  | error f =>
    constructor
    · intro h
      cases h
    · rintro ⟨-, h, -⟩
      cases h

theorem not_gives_stop {ending : Ending} {a : α} : ¬Gives (stop ending) u shown a v := by
  intro h
  cases h

/-- Whatever the dice and the answers, a dialogue ends the program in a certain way, if at all. -/
def StopsBy (c : Terminal α) (fault : Ending → Prop) : Prop :=
  ∀ dice, (c.run dice).StopsBy fault

theorem exists_gives_of_exit {c : Terminal α} (hc : c.StopsBy (· ≠ .exit 0))
    (h : (c.transcript u).ending = .exit 0) :
    ∃ a v, c.Gives u (c.transcript u).shown a v := by
  obtain ⟨⟨a, dice⟩, lines, hgives⟩ := Dialogue.exists_gives_of_exit (hc u.dice) h
  exact ⟨a, ⟨dice, lines⟩, hgives⟩

section StopsBy

variable {fault : Ending → Prop}

theorem StopsBy.pure (a : α) : StopsBy (Pure.pure a) fault :=
  fun _ => trivial

theorem StopsBy.bind {c : Terminal β} {f : β → Terminal α} (hc : c.StopsBy fault)
    (hf : ∀ b, (f b).StopsBy fault) : (c >>= f).StopsBy fault :=
  fun dice => (hc dice).andThen fun r => hf r.1 r.2

theorem StopsBy.display (d : Display) : StopsBy (Terminal.display d) fault :=
  fun _ => trivial

theorem StopsBy.ask (question : Styled) (judge : String → Verdict) :
    StopsBy (Terminal.ask question judge) fault :=
  fun _ _ => trivial

theorem StopsBy.chance (c : Chance α) : StopsBy (Terminal.chance c) fault :=
  fun _ => trivial

theorem StopsBy.stop {ending : Ending} (h : fault ending) :
    StopsBy (Terminal.stop ending : Terminal α) fault :=
  fun _ => h

theorem StopsBy.move {c : ExceptT Failure Chance α} (h : ∀ f, fault (.failure f)) :
    StopsBy (Terminal.move c) fault := by
  intro dice
  show Dialogue.StopsBy fault (Terminal.move c dice)
  unfold Terminal.move
  generalize c.run.run dice = r
  obtain ⟨result, dice'⟩ := r
  cases result with
  | ok a => exact trivial
  | error f => exact h f

end StopsBy

end Terminal

end EventScript
