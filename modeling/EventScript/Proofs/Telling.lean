/-
What is shown of a waiting event, and what the log tells of it.

An event waits with its text already rendered.  When it is answered, an interactive event tells
just that text.  A continuation is settled only now: what comes before it, its action and its
branches are carried out first, and its body is rendered anew for the cast and with the variables
that they leave (`Rulebook.retold`).

* `Session.shows_of_reaches` — in a game that begins without waiting events, whatever waits shows
  its body as it read for its owner when it was put into the queue;
* `Rulebook.settle_tells` — an event that is settled tells its body as it reads then;
* `waiting_texts_are_told` — an answer begins with what the event showed, if it is interactive or
  always reads the same, and with what it reads then otherwise;
* `waiting_texts_may_be_told_anew` — a continuation may show one thing and tell another.
-/
import EventScript.Proofs.History
import EventScript.Proofs.Queue
import EventScript.Proofs.Rendering

namespace EventScript

open Relation

variable {n : Nat}

/-! ### What waiting events show -/

namespace Session

/-- An event waits as moves put it into the queue: for somebody, as a continuation exactly if it
has no options, and with its body as it read for its owner in some session. -/
structure Shows (s : Session n) (item : Pending) : Prop where
  owner : ∃ i, s.seat? item.character = some i
  kind : item.continuation = !item.event.isInteractive
  text : ∃ (rules : Rulebook) (u : Session n) (i : Seat n),
    (u.character i).id = item.character ∧
      (rules.render u i item.scope item.event.body).MayGive item.text

/-- Nobody changes seats, and whatever waits has waited before or shows its body. -/
structure Adds (s t : Session n) : Prop where
  seats : ∀ id, t.seat? id = s.seat? id
  pending : ∀ item ∈ t.pending, item ∈ s.pending ∨ s.Shows item

theorem Adds.refl (s : Session n) : s.Adds s :=
  ⟨fun _ => rfl, fun _ => .inl⟩

theorem Adds.trans {s t u : Session n} (h : s.Adds t) (h' : t.Adds u) : s.Adds u where
  seats id := (h'.seats id).trans (h.seats id)
  pending item hitem := by
    rcases h'.pending item hitem with hwaits | ⟨howner, hkind, htext⟩
    · exact h.pending item hwaits
    · exact .inr ⟨h.seats item.character ▸ howner, hkind, htext⟩

/-- The queue is spared. -/
theorem Adds.of_becomes {s t : Session n} (h : s.Becomes t) (hq : t.pending = s.pending) :
    s.Adds t :=
  ⟨h.seat?_eq, fun _ hitem => .inl (hq ▸ hitem)⟩

theorem Adds.push {s : Session n} {item : Pending} (h : s.Shows item) : s.Adds (s.push item) :=
  ⟨fun _ => rfl, List.forall_mem_cons.mpr ⟨.inr h, fun _ => .inl⟩⟩

theorem Adds.leave {s : Session n} {item : Pending} {rest : List Pending}
    (hq : s.pending = item :: rest) : s.Adds { s with pending := rest } :=
  ⟨fun _ => rfl, fun _ hx => .inl (hq ▸ List.mem_cons_of_mem _ hx)⟩

end Session

namespace Rulebook

variable (rules : Rulebook)

theorem pendingOf_shows (s : Session n) (i : Seat n) {e : Event} (scope : Scope)
    {continuation : Bool} (hkind : continuation = !e.isInteractive) :
    Chance.Ensures (rules.pendingOf s i e scope continuation) s.Shows :=
  .bind_of_forall fun _ => .bind (.mayGive _) fun _ htext =>
    .pure ⟨s.exists_seat? i, hkind, rules, s, i, rfl, htext⟩

theorem queue_adds (s : Session n) (i : Seat n) {e : Event} (scope : Scope)
    (he : e.isInteractive = true) :
    Play.Ensures (rules.queue s i e scope) (fun a => s.Adds a.session) fun _ => True := by
  refine .bind (.chance (execute_becomes _ i scope _).2) fun pre hpre => ?_
  have hs := Session.Becomes.cast hpre
  have hkind : false = !e.isInteractive := by rw [he]; rfl
  refine .bind (.chance (rules.pendingOf_shows _ i pre.scope hkind)) fun item hitem => .pure ?_
  refine (Session.Adds.of_becomes hs rfl).trans (.trans (.push hitem) ?_)
  exact .of_becomes (becomes_count _ i e) rfl

theorem perform_adds (s : Session n) (i : Seat n) (e : Event) (scope : Scope) :
    Play.Ensures (rules.perform s i e scope) (fun a => s.Adds a.session) fun _ => True := by
  have hspares : ∀ {c : Play (Aftermath n)} {fault : Failure → Prop},
      Play.Ensures c (Spares s) fault →
        Play.Ensures c (fun a => s.Adds a.session) fun _ => True :=
    fun hc => .mono_fault (.mono hc fun a ha => .of_becomes ha.becomes ha.pending_eq)
      fun _ _ => trivial
  unfold perform
  simp only
  split
  · rename_i he
    refine .bind (.trivial _) fun alone _ => ?_
    split
    · exact hspares (rules.settleAlone_evolves s i e scope)
    · exact rules.queue_adds s i scope he
  · exact hspares (rules.settle_evolves s i e scope _)

theorem follow_adds (i : Seat n) (depth : Nat) (a : Aftermath n) :
    Play.Ensures (rules.follow i depth a) a.session.Adds fun _ => True := by
  induction depth, a using follow.induct rules with
  | case1 depth a hnext =>
    rw [follow_of_end hnext]
    exact .pure (.refl _)
  | case2 depth a e hnext hdeep hstrict =>
    rw [follow_of_isTooDeep hnext hdeep, if_pos hstrict]
    exact .throw trivial
  | case3 depth a e hnext hdeep hstrict =>
    rw [follow_of_isTooDeep hnext hdeep, if_neg hstrict]
    exact .pure (.refl _)
  | case4 depth a e hnext hdeep hpause =>
    rw [follow_of_pause hnext hdeep hpause]
    have hkind := (Bool.and_eq_true_iff.mp hpause).2
    exact .bind (.chance (rules.pendingOf_shows a.session i a.scope hkind.symm)) fun item hitem =>
      .pure (.push hitem)
  | case5 depth a e hnext hdeep hpause ih =>
    rw [follow_of_visit hnext hdeep hpause]
    refine .bind (rules.perform_adds a.session i e a.scope) fun b hb => ?_
    exact .mono (ih b) fun t ht => hb.trans ht

theorem process_adds (s : Session n) (i : Seat n) (e : Event) (scope : Scope) :
    Play.Ensures (rules.process s i e scope) s.Adds fun _ => True :=
  .bind (rules.perform_adds s i e scope) fun a ha =>
    .mono (rules.follow_adds i 0 a) fun _ ht => ha.trans ht

theorem answer_adds (s : Session n) (i : Seat n) (item : Pending) (index : Int) :
    Play.Ensures (rules.answer s i item index) s.Adds fun _ => True := by
  unfold answer
  split
  · exact rules.process_adds s i _ _
  · refine .bind (rules.settleOption_evolves _ i _ _ _ false _) fun a ha => ?_
    have hspares : Spares s a := .after (.note ..) (Session.pending_note ..) ha
    exact .mono (rules.follow_adds i 0 a) fun t ht =>
      (Session.Adds.of_becomes hspares.becomes hspares.pending_eq).trans ht

/-- Whatever waits after a move has waited before or shows its body. -/
theorem make_adds (s : Session n) (m : Move) :
    Play.Ensures (rules.make s m) (fun t? => s.Adds (t?.getD s)) fun _ => True := by
  have hsome : ∀ {c : Play (Session n)}, Play.Ensures c s.Adds (fun _ => True) →
      Play.Ensures (some <$> c) (fun t? => s.Adds (t?.getD s)) fun _ => True := fun hc => .map hc
  cases m with
  | advance =>
    refine .pure ?_
    cases h : advance rules.settings s with
    | none => exact .refl s
    | some t =>
      refine ⟨fun id => ?_, fun item hitem => .inl (pending_advance h ▸ hitem)⟩
      unfold Session.seat? Session.character
      rw [Option.getD_some, cast_advance h]
  | trigger id forced =>
    show Play.Ensures (rules.trigger s id forced) _ _
    unfold trigger
    cases s.seat? id with
    | none => exact .pure (.refl s)
    | some i =>
      refine .bind (.trivial _) fun chosen _ => ?_
      cases chosen with
      | none => exact .pure (.refl s)
      | some e => exact hsome (rules.process_adds s i e .empty)
  | process e id scope =>
    refine hsome ?_
    unfold processFor
    split
    · exact rules.process_adds s _ e scope
    · exact .pure (.refl s)
  | resolve index =>
    show Play.Ensures (rules.resolve s index) _ _
    unfold resolve
    split
    · exact .pure (.refl s)
    · rename_i item rest hq
      split
      · exact .pure (.refl s)
      · simp only
        split
        · exact hsome (.mono (rules.answer_adds _ _ item index) fun t ht =>
            (Session.Adds.leave hq).trans ht)
        · exact .pure (.leave hq)
  | command text id =>
    show Play.Ensures (rules.command s text id) _ _
    unfold command
    cases rules.commandSeat? s id with
    | none => exact .pure (.refl s)
    | some i =>
      refine .bind (.chance (execute_becomes _ i .empty _).2) fun p hp => hsome ?_
      refine .mono (rules.follow_adds _ 0 _) fun t ht => ?_
      exact (Session.Adds.of_becomes (.trans (.cast hp) (.note ..))
        (Session.pending_note ..)).trans ht

end Rulebook

namespace Session

theorem Adds.of_reaches {s t : Session n} (h : s.Reaches t) : s.Adds t := by
  induction h with
  | refl => exact .refl s
  | @tail t u _ hmove ih =>
    obtain ⟨rules, m, d, d', t?, hmake, rfl⟩ := hmove
    have hadds := rules.make_adds t m d
    rw [hmake] at hadds
    exact ih.trans hadds

/-- Whatever waits in a game that began without anything waiting shows its body. -/
theorem shows_of_reaches {s t : Session n} (hs : s.pending = []) (h : s.Reaches t)
    {item : Pending} (hitem : item ∈ t.pending) : t.Shows item := by
  have hadds := Adds.of_reaches h
  rcases hadds.pending item hitem with hwaits | ⟨howner, hkind, htext⟩
  · rw [hs] at hwaits
    cases hwaits
  · exact ⟨hadds.seats item.character ▸ howner, hkind, htext⟩

theorem isOrderly_of_shows {s : Session n} (h : ∀ item ∈ s.pending, s.Shows item) :
    s.IsOrderly :=
  ⟨fun item hitem => (h item hitem).kind, fun item hitem => (h item hitem).owner⟩

end Session

/-! ### What is told -/

/-- The first entry that the log has gained begins with a text. -/
def Session.Tells (s t : Session n) (text : String) : Prop :=
  ∃ (first : Entry) (later : List Entry),
    t.log = s.log ++ first :: later ∧ text.toList <+: first.text.toList

theorem toList_isPrefix_intercalate (first between : String) (rest : List String) :
    first.toList <+: (between.intercalate (first :: rest)).toList := by
  rw [String.toList_intercalate, List.map_cons]
  cases rest with
  | nil => simp
  | cons second rest =>
    rw [List.map_cons, List.intercalate_cons_cons, List.append_assoc]
    exact List.prefix_append ..

namespace Session

theorem Tells.note (s : Session n) (speaker : String) {text : String} (h : text ≠ "")
    (kind : EntryKind) (important : Bool) (effects : List String) :
    s.Tells (s.note speaker text kind important effects) text := by
  have hlines : (text :: effects).filter (! ·.isEmpty) =
      text :: effects.filter (! ·.isEmpty) :=
    List.filter_cons_of_pos (by simpa using h)
  have hentry : Entry.of? s.turn speaker text kind important effects =
      some ⟨s.turn, speaker, "\n".intercalate (text :: effects.filter (! ·.isEmpty)), kind,
        important, effects⟩ := by
    rw [Entry.of?]
    simp only [hlines, reduceCtorEq, if_false]
  rw [note_eq, hentry]
  exact ⟨_, [], rfl, toList_isPrefix_intercalate text "\n" (effects.filter (! ·.isEmpty))⟩

/-- What comes later does not change the first entry. -/
theorem Tells.grow {s t u : Session n} {text : String} (h : s.Tells t text)
    (hu : t.log <+: u.log) : s.Tells u text := by
  obtain ⟨first, later, hlog, htext⟩ := h
  obtain ⟨more, hmore⟩ := hu
  refine ⟨first, later ++ more, ?_, htext⟩
  rw [← hmore, hlog, List.append_assoc, List.cons_append]

end Session

namespace Rulebook

/-- The text of an event as it reads once everything that comes with the event has been carried
out: what comes before it, its action and its branches. -/
def retold (rules : Rulebook) (s : Session n) (i : Seat n) (e : Event) (scope : Scope) :
    Chance String := do
  let pre ← execute (s.world rules.settings) i scope e.preAction.toList
  let p ← runActions pre.world i pre.scope e e.action none
  rules.render (rules.absorb s i e p.world) i p.scope e.body

variable (rules : Rulebook)

/-- What is written once the actions of an event are done comes first, since they write nothing. -/
theorem tells_of_later {s later : Session n} (hlog : later.log = s.log) {text : String}
    (htext : text ≠ "") (speaker : String) (effects : List String) (i : Seat n) (e : Event) :
    s.Tells (rules.checkEnding e (count (later.note speaker text .event false effects) i e))
      text := by
  obtain ⟨first, rest, hnote, hfirst⟩ :=
    Session.Tells.note later speaker htext .event false effects
  refine ⟨first, rest, ?_, hfirst⟩
  rw [rules.log_checkEnding, ← hlog, ← hnote]
  rfl

/-- An event that is settled, and not forgotten, tells its body as it reads then. -/
theorem settle_tells (s : Session n) (i : Seat n) (e : Event) (scope : Scope) (d : Dice)
    (htext : ((rules.retold s i e scope).run d).1 ≠ "") (fault : Failure → Prop) :
    Play.Outcome (fun a => s.Tells a.session ((rules.retold s i e scope).run d).1)
      fault ((rules.settle s i e scope false).run.run d).1 := by
  let pre := (execute (s.world rules.settings) i scope e.preAction.toList).run d
  let p := (runActions pre.1.world i pre.1.scope e e.action none).run pre.2
  let later := rules.absorb s i e p.1.world
  let text := ((rules.render later i p.1.scope e.body).run p.2).1
  have hretold : ((rules.retold s i e scope).run d).1 = text := rfl
  -- the same dice are rolled for the same things, up to the text
  have hsettle : ((rules.settle s i e scope false).run.run d).1 =
      .ok ⟨rules.checkEnding e (count (later.note (later.character i).name text .event false
        (rules.effectsSince s later i)) i e), p.1.next, p.1.pause, p.1.scope⟩ := rfl
  rw [hretold] at htext ⊢
  rw [hsettle]
  exact rules.tells_of_later (rules.log_absorb s i e _) htext ..

/-- So does the chain that begins with it. -/
theorem process_tells (s : Session n) (i : Seat n) {e : Event} (scope : Scope)
    (he : e.isInteractive = false)
    (hsplit : (s.character i).hasTag rules.settings.splitTag = false) (d : Dice)
    (htext : ((rules.retold s i e scope).run d).1 ≠ "") :
    Play.Outcome (fun t => s.Tells t ((rules.retold s i e scope).run d).1) (fun _ => True)
      ((rules.process s i e scope).run.run d).1 := by
  have hperform : rules.perform s i e scope = rules.settle s i e scope false := by
    unfold perform
    simp only [he, hsplit, Bool.false_eq_true, if_false]
  unfold process
  rw [hperform]
  refine .bind (rules.settle_tells s i e scope d htext _) fun a ha => ?_
  exact .mono (rules.follow_deeds i 0 a) fun t ht => ha.grow ht.touches.stays.log.isPrefix

/-- An interactive event tells what it has shown. -/
theorem answer_tells (s : Session n) (i : Seat n) {item : Pending} (index : Int)
    (hitem : item.continuation = false) (htext : item.text ≠ "") :
    Play.Ensures (rules.answer s i item index) (fun t => s.Tells t item.text) fun _ => True := by
  unfold answer
  simp only [hitem, Bool.false_eq_true, if_false]
  refine .bind (rules.settleOption_evolves _ i _ _ _ false _) fun a ha => ?_
  have hnote :=
    Session.Tells.note s (s.character i).name htext .event (!item.event.title.isEmpty) []
  refine .mono (rules.follow_deeds i 0 a) fun t ht => ?_
  exact (hnote.grow ha.becomes.log).grow ht.touches.stays.log.isPrefix

/-- A text without slots reads the same everywhere. -/
theorem render_of_notMem {text : String} (h : '{' ∉ text.toList) (s : Session n) (i : Seat n)
    (scope : Scope) : rules.render s i scope text = pure text := by
  unfold render
  rw [renderPassage_of_notMem _ _ _ h, map_pure, String.ofList_toList]

theorem retold_of_notMem {e : Event} (h : '{' ∉ e.body.toList) (s : Session n) (i : Seat n)
    (scope : Scope) : Chance.Ensures (rules.retold s i e scope) (· = e.body) := by
  refine .bind_of_forall fun pre => .bind_of_forall fun p => ?_
  rw [rules.render_of_notMem h]
  exact .pure rfl

/-- A continuation is settled when it is answered. -/
theorem answer_retells (s : Session n) (i : Seat n) {item : Pending} (index : Int)
    (hitem : item.continuation = true) (hevent : item.event.isInteractive = false)
    (hsplit : (s.character i).hasTag rules.settings.splitTag = false) (d : Dice)
    (htext : ((rules.retold s i item.event item.scope).run d).1 ≠ "") :
    Play.Outcome (fun t => s.Tells t ((rules.retold s i item.event item.scope).run d).1)
      (fun _ => True) ((rules.answer s i item index).run.run d).1 := by
  unfold answer
  rw [if_pos hitem]
  exact rules.process_tells s i item.scope hevent hsplit d htext

/-- What an answer tells is told by the move that gives it. -/
theorem resolve_tells {s : Session n} (hs : s.IsOrderly) {item : Pending} {rest : List Pending}
    (hq : s.pending = item :: rest) {index : Int} (hindex : accepts item index = true)
    {i : Seat n} (hi : s.seat? item.character = some i) {text : String} {d : Dice}
    (h : Play.Outcome (fun t => s.Tells t text) (fun _ => True)
      ((rules.answer { s with pending := rest } i item index).run.run d).1) :
    Play.Outcome (fun t? => ∃ t, t? = some t ∧ s.Tells t text)
      (rules.MayFail { s with pending := rest } item.character)
      ((rules.resolve s index).run.run d).1 := by
  have hresolve : rules.resolve s index =
      some <$> rules.answer { s with pending := rest } i item index := by
    have hi' : Session.seat? { s with pending := rest } item.character = some i := hi
    unfold resolve
    rw [hq]
    simp only [hindex, Bool.not_true, Bool.false_eq_true, if_false, hi']
  have htold : Play.Outcome (fun t? => ∃ t, t? = some t ∧ s.Tells t text) (fun _ => True)
      ((rules.resolve s index).run.run d).1 := by
    rw [hresolve, map_eq_pure_bind]
    exact .bind h fun t ht => .pure ⟨t, rfl, ht⟩
  exact (htold.and (rules.resolve_stacks hs hq hindex d)).mono fun _ ht => ht.1

end Rulebook

/-- In a game that begins without waiting events, the front of the queue belongs to somebody.  If
it is interactive, an answer that is accepted begins with what it has shown, unless that is empty;
so it does for a continuation whose body has no slots, if the owner is not a split personality.
The answer to any continuation of such an owner begins with its body as it reads once everything
that comes with the event has been carried out, with the same dice, unless that is empty.  An
answer takes the front away, or fails because a chain is too long or because a text about a lost
memory cannot be filled; this is about events whose texts ask for no number that is too long to
be read (`Text.IsShort`), since an answer that comes upon one fails with it. -/
theorem waiting_texts_are_told {s t : Session n} (hs : s.pending = []) (hreach : s.Reaches t)
    {item : Pending} {rest : List Pending} (hq : t.pending = item :: rest) (rules : Rulebook)
    {index : Int} (hindex : Rulebook.accepts item index = true) :
    ∃ i, t.seat? item.character = some i ∧
      (item.text ≠ "" →
        (item.continuation = true →
          (t.character i).hasTag rules.settings.splitTag = false ∧
            '{' ∉ item.event.body.toList) →
        Play.Ensures (rules.resolve t index) (fun u? => ∃ u, u? = some u ∧ t.Tells u item.text)
          (rules.MayFail { t with pending := rest } item.character)) ∧
      (item.continuation = true → (t.character i).hasTag rules.settings.splitTag = false →
        ∀ d text, text ≠ "" →
          ((rules.retold { t with pending := rest } i item.event item.scope).run d).1 = text →
          Play.Outcome (fun u? => ∃ u, u? = some u ∧ t.Tells u text)
            (rules.MayFail { t with pending := rest } item.character)
            ((rules.resolve t index).run.run d).1) := by
  have hshows : ∀ x ∈ t.pending, t.Shows x := fun x => Session.shows_of_reaches hs hreach
  have horderly := Session.isOrderly_of_shows hshows
  obtain ⟨⟨i, hi⟩, hkind, _, _, _, -, hshown⟩ := hshows item (hq ▸ List.mem_cons_self ..)
  have hevent : item.continuation = true → item.event.isInteractive = false := by
    intro hitem
    simpa [hitem] using hkind
  refine ⟨i, hi, fun htext hfixed d => rules.resolve_tells horderly hq hindex hi ?_, ?_⟩
  · cases hitem : item.continuation with
    | false => exact rules.answer_tells { t with pending := rest } i index hitem htext d
    | true =>
      obtain ⟨hsplit, hslots⟩ := hfixed hitem
      -- the body has been read before, and is read again, as it is written
      have hbefore : item.text = item.event.body := by
        rw [Rulebook.render_of_notMem _ hslots] at hshown
        have hpure : Chance.Ensures (pure item.event.body) (· = item.event.body) := .pure rfl
        exact hpure.of_mayGive hshown
      have hagain := rules.retold_of_notMem hslots { t with pending := rest } i item.scope d
      have htold := rules.answer_retells { t with pending := rest } i index hitem
        (hevent hitem) hsplit d
      rw [hagain, ← hbefore] at htold
      exact htold htext
  · rintro hitem hsplit d text htext rfl
    exact rules.resolve_tells horderly hq hindex hi
      (rules.answer_retells { t with pending := rest } i index hitem (hevent hitem) hsplit d htext)

/-- A night watch. The morning after waits for a confirmation. -/
def nightWatch : Event :=
  { Event.plain "守夜" with action := "继续 黎明" }

/-- The session in which the morning waits. -/
def beforeDawn : Session 2 :=
  evening.after ((nightRules.make evening (.process nightWatch "c1" .empty)).run.run
    (.fresh fun _ => 0)).1

/-- The morning shows a text without slots, and that is what is told. -/
theorem dawn_is_told_as_shown :
    ∃ item, evening.Reaches beforeDawn ∧ beforeDawn.pending = [item] ∧
      item.continuation = true ∧ item.text = "天亮了。" ∧
      Play.Ensures (nightRules.resolve beforeDawn 0)
        (fun u? => ∃ u, u? = some u ∧ beforeDawn.Tells u item.text)
        (nightRules.MayFail { beforeDawn with pending := [] } item.character) := by
  have hrun : (beforeDawn.pending.map
      (fun item => (item.character, item.event.body, item.text, item.continuation)),
        beforeDawn.seat? "c1", (beforeDawn.character 1).hasTag nightRules.settings.splitTag) =
      ([("c1", "天亮了。", "天亮了。", true)], some 1, false) := by
    decide +kernel
  simp only [Prod.mk.injEq, List.map_eq_singleton_iff] at hrun
  obtain ⟨⟨item, hq, hcharacter, hbody, htext, hcontinuation⟩, hseat, hsplit⟩ := hrun
  have hreach : evening.Reaches beforeDawn := evening.reaches_after ..
  have haccepts : Rulebook.accepts item 0 = true := by
    rw [Rulebook.accepts, hcontinuation]
    rfl
  obtain ⟨i, hi, htold, -⟩ := waiting_texts_are_told rfl hreach hq nightRules haccepts
  obtain rfl : i = 1 := by
    rw [hcharacter, hseat] at hi
    exact (Option.some_inj.mp hi).symm
  have hshown : item.text ≠ "" := by
    rw [htext]
    decide
  refine ⟨item, hreach, hq, hcontinuation, htext, htold hshown fun _ => ⟨hsplit, ?_⟩⟩
  rw [hbody]
  decide

/-- A walk in the evening. The run in the morning waits for a confirmation. -/
def walk : Event :=
  { Event.plain "散步" with action := "继续 晨练" }

/-- Rules by which mornings begin with a run. How the run reads depends on how much strength is
left. -/
def morningRules : Rulebook :=
  ⟨⟨[{ Event.plain "晨练" with
    body := "\x7b属性.体力 >= 50 ? 浑身是劲。 : 累坏了。\x7d", action := "属性变更 体力 -80" }]⟩,
    .standard⟩

/-- The session in which the run waits. -/
def beforeTheRun : Session 2 :=
  evening.after ((morningRules.make evening (.process walk "c1" .empty)).run.run
    (.fresh fun _ => 0)).1

/-- A continuation may show one thing and tell another: the run shows the strength before it and
tells the strength that is left. -/
theorem waiting_texts_may_be_told_anew :
    ∃ (item : Pending) (u : Session 2) (entry : Entry), evening.pending = [] ∧
      evening.Reaches beforeTheRun ∧ beforeTheRun.pending = [item] ∧
      Rulebook.accepts item 0 = true ∧ beforeTheRun.seat? item.character = some 1 ∧
      (beforeTheRun.character 1).hasTag morningRules.settings.splitTag = false ∧
      item.text = "浑身是劲。" ∧
      ((morningRules.resolve beforeTheRun 0).run.run (.fresh fun _ => 0)).1 = .ok (some u) ∧
      u.log = beforeTheRun.log ++ [entry] ∧ entry.text = "累坏了。\n体力-80" ∧
      ¬item.text.toList <+: entry.text.toList := by
  have hrun : (beforeTheRun.pending.map
      (fun item => (item.character, item.text, item.continuation)),
        beforeTheRun.seat? "c1", (beforeTheRun.character 1).hasTag morningRules.settings.splitTag,
        beforeTheRun.log) =
      ([("c1", "浑身是劲。", true)], some 1, false, []) := by
    decide +kernel
  simp only [Prod.mk.injEq, List.map_eq_singleton_iff] at hrun
  obtain ⟨⟨item, hq, hcharacter, htext, hcontinuation⟩, hseat, hsplit, hbefore⟩ := hrun
  have hresolve : ((morningRules.resolve beforeTheRun 0).run.run
      (.fresh fun _ => 0)).1.toOption.join.map (fun u => u.log.map Entry.text) =
        some ["累坏了。\n体力-80"] := by
    decide +kernel
  obtain ⟨u, hu, hlog⟩ := Option.map_eq_some_iff.mp hresolve
  obtain ⟨entry, hafter, hentry⟩ := List.map_eq_singleton_iff.mp hlog
  refine ⟨item, u, entry, rfl, evening.reaches_after .., hq, ?_, ?_, hsplit, htext,
    Play.eq_ok_of_join hu, ?_, hentry, ?_⟩
  · rw [Rulebook.accepts, hcontinuation]
    rfl
  · rw [hcharacter, hseat]
  · rw [hbefore, hafter, List.nil_append]
  · rw [htext, hentry]
    decide

end EventScript
