/-
The limit on chains of events.

A chain that would go on beyond the limit is cut off, or fails in strict settings; this is
the only difference that strictness makes.

* `Rulebook.course_visits` — how many events a move processes at most;
* `Rulebook.course_withStrict` — the course of a move in strict settings is the course
  otherwise, except that it fails where that one is cut off;
* `chains_are_bounded_and_strictness_only_raises` — both, as facts about moves.
-/
import EventScript.Proofs.Course
import EventScript.Proofs.Filling

namespace EventScript

variable {n : Nat}

/-! ### The number of events -/

namespace Rulebook

/-- How many events may follow one another; a limit below zero allows for none. -/
def chainLimit (rules : Rulebook) : Nat :=
  rules.settings.maxChainDepth.toNat

theorem chainLimit_of_isTooDeep {rules : Rulebook} {depth : Nat} (h : rules.isTooDeep depth)
    (hdepth : depth ≤ rules.chainLimit) : depth = rules.chainLimit := by
  unfold isTooDeep at h
  unfold chainLimit at hdepth ⊢
  omega

theorem lt_chainLimit {rules : Rulebook} {depth : Nat} (h : ¬rules.isTooDeep depth) :
    depth < rules.chainLimit := by
  unfold isTooDeep at h
  unfold chainLimit
  omega

theorem visit_visits (rules : Rulebook) (s : Session n) (i : Seat n) (e : Event) (scope : Scope)
    {rest : Aftermath n → Chance (Course n)} {k : Nat}
    (hrest : ∀ a, Chance.Ensures (rest a) fun c => c.visits.length ≤ k) :
    Chance.Ensures (rules.visit s i e scope rest) fun c => c.visits.length ≤ k + 1 :=
  visit_ensures (fun a _ => .mono (hrest a) fun _ hc => Nat.succ_le_succ hc)
    fun _ _ => Nat.succ_le_succ (Nat.zero_le k)

theorem followCourse_visits (rules : Rulebook) (i : Seat n) (depth : Nat) (a : Aftermath n) :
    Chance.Ensures (rules.followCourse i depth a) fun c =>
      c.visits.length ≤ rules.chainLimit - depth := by
  refine followCourse_ensures (P := fun depth _ c => c.visits.length ≤ rules.chainLimit - depth)
    (fun _ _ => Nat.zero_le _) (fun _ _ _ _ => Nat.zero_le _) (fun _ _ _ _ => Nat.zero_le _)
    (fun _ _ _ _ _ _ => Nat.zero_le _) ?_ depth a
  intro depth a e hdeep ih
  -- an event that may follow leaves room for one less
  have hlimit := lt_chainLimit hdeep
  refine .mono (rules.visit_visits a.session i e a.scope ih) fun c hc => ?_
  omega

theorem processCourse_visits (rules : Rulebook) (s : Session n) (i : Seat n) (e : Event)
    (scope : Scope) :
    Chance.Ensures (rules.processCourse s i e scope) fun c =>
      c.visits.length ≤ rules.chainLimit + 1 :=
  rules.visit_visits s i e scope (rules.followCourse_visits i 0)

/-- A move processes at most as many events as may follow one another, and one more if it
begins with an event. -/
theorem course_visits (rules : Rulebook) (s : Session n) (m : Move) :
    Chance.Ensures (rules.course s m) fun c? => ∀ c ∈ c?,
      c.visits.length ≤ rules.chainLimit + if s.begins m then 1 else 0 := by
  refine course_ensures (fun _ _ => Nat.zero_le _) (fun _ _ => Nat.zero_le _) ?_ ?_
  · intro hbegins t i e scope _
    rw [if_pos hbegins]
    exact rules.processCourse_visits t i e scope
  · intro hbegins i a _
    rw [if_neg (Bool.eq_false_iff.mp hbegins)]
    exact rules.followCourse_visits i 0 a

/-! ### Strictness -/

/-- The same rules in strict settings, or in settings that are not. -/
def withStrict (rules : Rulebook) (strict : Bool) : Rulebook :=
  { rules with settings := { rules.settings with strict } }

/-- Scripts do not see strictness, and single events do not ask for it. -/
theorem perform_withStrict (rules : Rulebook) (strict : Bool) (s : Session n) (i : Seat n)
    (e : Event) (scope : Scope) :
    (rules.withStrict strict).perform s i e scope = rules.perform s i e scope :=
  rfl

end Rulebook

/-- What becomes of a course in strict settings: if it is cut off, it fails. -/
def Course.raise (limit : Nat) (c : Course n) : Course n :=
  { c with result := match c.cut with
    | some e => .error (.chainTooLong e.id (limit + 1))
    | none => c.result }

namespace Course

theorem raise_stop (limit : Nat) (r : Except Failure (Session n)) :
    (stop r).raise limit = stop r :=
  rfl

theorem raise_after (limit : Nat) (v : Visit n) (c : Course n) :
    (c.after v).raise limit = (c.raise limit).after v :=
  rfl

theorem raise_resume (limit : Nat) {α : Type} (c : Play α) {rest rest' : α → Chance (Course n)}
    (h : ∀ a, rest' a = Course.raise limit <$> rest a) :
    Course.resume c rest' = Course.raise limit <$> Course.resume c rest := by
  unfold resume
  rw [map_bind]
  refine bind_congr fun r => ?_
  cases r with
  | ok a => exact h a
  | error f => exact congrArg pure (raise_stop limit (.error f)).symm

end Course

namespace Rulebook

theorem visit_withStrict (rules : Rulebook) (limit : Nat) (s : Session n) (i : Seat n)
    (e : Event) (scope : Scope) {rest rest' : Aftermath n → Chance (Course n)}
    (h : ∀ a, rest' a = Course.raise limit <$> rest a) :
    (rules.withStrict true).visit s i e scope rest' =
      Course.raise limit <$> (rules.withStrict false).visit s i e scope rest := by
  unfold visit
  rw [perform_withStrict, perform_withStrict, Course.raise_resume limit _ h, Functor.map_map,
    Functor.map_map]
  exact congrArg (· <$> _) (funext fun c => (c.raise_after limit _).symm)

theorem followCourse_withStrict (rules : Rulebook) (i : Seat n) (depth : Nat)
    (a : Aftermath n) (hdepth : depth ≤ rules.chainLimit) :
    (rules.withStrict true).followCourse i depth a =
      Course.raise rules.chainLimit <$> (rules.withStrict false).followCourse i depth a := by
  induction depth, a using follow.induct (rules.withStrict false) with
  | case1 depth a hnext =>
    have hnext' : (rules.withStrict true).next? a = none := hnext
    rw [followCourse_of_end hnext, followCourse_of_end hnext']
    rfl
  -- these settings are not strict
  | case2 depth a e hnext hdeep hstrict => cases hstrict
  | case3 depth a e hnext hdeep hstrict =>
    have hnext' : (rules.withStrict true).next? a = some e := hnext
    have hdeep' : (rules.withStrict true).isTooDeep depth := hdeep
    -- the depth at which a chain is cut off is the limit itself
    rw [followCourse_of_isTooDeep hnext hdeep, followCourse_of_isTooDeep hnext' hdeep',
      chainLimit_of_isTooDeep hdeep hdepth]
    rfl
  | case4 depth a e hnext hdeep hpause =>
    have hnext' : (rules.withStrict true).next? a = some e := hnext
    have hdeep' : ¬(rules.withStrict true).isTooDeep depth := hdeep
    rw [followCourse_of_pause hnext hdeep hpause, followCourse_of_pause hnext' hdeep' hpause]
    rfl
  | case5 depth a e hnext hdeep hpause ih =>
    have hnext' : (rules.withStrict true).next? a = some e := hnext
    have hdeep' : ¬(rules.withStrict true).isTooDeep depth := hdeep
    rw [followCourse_of_visit hnext hdeep hpause, followCourse_of_visit hnext' hdeep' hpause]
    exact rules.visit_withStrict _ _ i e _ fun b => ih b (lt_chainLimit hdeep)

theorem processCourse_withStrict (rules : Rulebook) (s : Session n) (i : Seat n) (e : Event)
    (scope : Scope) :
    (rules.withStrict true).processCourse s i e scope =
      Course.raise rules.chainLimit <$> (rules.withStrict false).processCourse s i e scope :=
  rules.visit_withStrict _ s i e scope fun a =>
    rules.followCourse_withStrict i 0 a (Nat.zero_le _)

theorem answerCourse_withStrict (rules : Rulebook) (s : Session n) (i : Seat n) (item : Pending)
    (index : Int) :
    (rules.withStrict true).answerCourse s i item index =
      Course.raise rules.chainLimit <$> (rules.withStrict false).answerCourse s i item index := by
  unfold answerCourse
  split
  · exact rules.processCourse_withStrict s i _ _
  · exact Course.raise_resume _ _ fun a => rules.followCourse_withStrict i 0 a (Nat.zero_le _)

/-- The course of a move in strict settings. -/
theorem course_withStrict (rules : Rulebook) (s : Session n) (m : Move) :
    (rules.withStrict true).course s m =
      Option.map (Course.raise rules.chainLimit) <$> (rules.withStrict false).course s m := by
  have certain : ∀ {c c' : Chance (Course n)}, c' = Course.raise rules.chainLimit <$> c →
      some <$> c' = Option.map (Course.raise rules.chainLimit) <$> some <$> c := by
    rintro c _ rfl
    rw [Functor.map_map, Functor.map_map]
    rfl
  cases m with
  | advance =>
    show pure ((advance rules.settings s).map _) = _ <$> pure ((advance rules.settings s).map _)
    cases advance rules.settings s <;> rfl
  | trigger id forced =>
    show triggerCourse _ s id forced = _ <$> triggerCourse _ s id forced
    unfold triggerCourse
    cases s.seat? id with
    | none => rfl
    | some i =>
      rw [map_bind]
      refine bind_congr fun chosen => ?_
      cases chosen with
      | some e => exact certain (rules.processCourse_withStrict s i e .empty)
      | none => rfl
  | process e id scope =>
    refine certain ?_
    unfold processForCourse
    cases s.seat? id with
    | some i => exact rules.processCourse_withStrict s i e scope
    | none => rfl
  | resolve index =>
    show resolveCourse _ s index = _ <$> resolveCourse _ s index
    unfold resolveCourse
    cases s.pending with
    | nil => rfl
    | cons item rest =>
      simp only
      split
      · rfl
      · split
        · exact certain (rules.answerCourse_withStrict _ _ item index)
        · rfl
  | command text id =>
    show commandCourse _ s text id = _ <$> commandCourse _ s text id
    have hseat : ∀ b, (rules.withStrict b).commandSeat? s id = rules.commandSeat? s id :=
      fun _ => rfl
    unfold commandCourse
    rw [hseat, hseat]
    cases rules.commandSeat? s id with
    | none => rfl
    | some i =>
      rw [map_bind]
      exact bind_congr fun p => certain (rules.followCourse_withStrict _ 0 _ (Nat.zero_le _))

/-! ### Settings that are not strict -/

theorem ne_chainTooLong_of_cannotForget {rules : Rulebook} {name : String} {f : Failure}
    (h : rules.CannotForget name f) (event : String) (depth : Int) :
    f ≠ .chainTooLong event depth := by
  rintro rfl
  exact Pattern.isFault_of_fill h

end Rulebook

/-- A course that is cut off has a session all the same, and none fails because its chain
is too long. -/
structure Course.IsLenient (c : Course n) : Prop where
  truncated : ∀ e, c.cut = some e → ∃ t, c.result = .ok t
  spared : ∀ event depth, c.result ≠ .error (.chainTooLong event depth)

namespace Rulebook

theorem isLenient_stop (t : Session n) : Course.IsLenient (.stop (.ok t)) :=
  ⟨by rintro e ⟨⟩, by rintro event depth ⟨⟩⟩

theorem visit_isLenient (rules : Rulebook) (s : Session n) (i : Seat n) (e : Event)
    (scope : Scope) {rest : Aftermath n → Chance (Course n)}
    (hrest : ∀ a, Chance.Ensures (rest a) Course.IsLenient) :
    Chance.Ensures (rules.visit s i e scope rest) Course.IsLenient := by
  refine visit_ensures (fun a _ => .mono (hrest a) fun c hc => ⟨hc.truncated, hc.spared⟩) ?_
  intro f hf
  refine ⟨by rintro e ⟨⟩, ?_⟩
  rintro event depth ⟨⟩
  exact ne_chainTooLong_of_cannotForget hf event depth rfl

theorem followCourse_isLenient {rules : Rulebook} (hrules : rules.settings.strict = false)
    (i : Seat n) (depth : Nat) (a : Aftermath n) :
    Chance.Ensures (rules.followCourse i depth a) Course.IsLenient := by
  refine followCourse_ensures (P := fun _ _ => Course.IsLenient) ?_ ?_ ?_ ?_ ?_ depth a
  · exact fun _ a => isLenient_stop _
  · intro hstrict
    rw [hrules] at hstrict
    cases hstrict
  · exact fun _ _ a e => ⟨fun _ _ => ⟨_, rfl⟩, by rintro event depth ⟨⟩⟩
  · exact fun _ a e item _ _ => isLenient_stop _
  · exact fun _ a e _ ih => rules.visit_isLenient _ i e _ ih

theorem course_isLenient {rules : Rulebook} (hrules : rules.settings.strict = false)
    (s : Session n) (m : Move) :
    Chance.Ensures (rules.course s m) fun c? => ∀ c ∈ c?, c.IsLenient :=
  course_ensures (fun t _ => isLenient_stop t) (fun t _ => isLenient_stop t)
    (fun _ t i e scope _ =>
      rules.visit_isLenient t i e scope (followCourse_isLenient hrules i 0))
    fun _ i a _ => followCourse_isLenient hrules i 0 a

/-- With the given dice, a move cuts its chain off before an event. -/
def CutsOff (rules : Rulebook) (s : Session n) (m : Move) (d : Dice) (e : Event) : Prop :=
  ∃ c, ((rules.course s m).run d).1 = some c ∧ c.cut = some e

end Rulebook

theorem Course.raise_of_cut_eq_none {c : Course n} (h : c.cut = none) (limit : Nat) :
    c.raise limit = c := by
  cases c
  cases h
  rfl

theorem Course.result_raise_of_cut {c : Course n} {e : Event} (h : c.cut = some e) (limit : Nat) :
    (c.raise limit).result = .error (.chainTooLong e.id (limit + 1)) := by
  cases c
  cases h
  rfl

/-- A move processes a bounded number of events.  In strict settings it fails exactly where
its chain is cut off otherwise, and then with the event that would have come next; in all
other cases strictness makes no difference, neither to the result nor to the dice. -/
theorem chains_are_bounded_and_strictness_only_raises (rules : Rulebook) (s : Session n)
    (m : Move) (d : Dice) :
    let strict := rules.withStrict true
    let relaxed := rules.withStrict false
    (rules.make s m).run = Course.answer <$> rules.course s m ∧
    (∀ c, ((rules.course s m).run d).1 = some c →
      c.visits.length ≤ rules.chainLimit + if s.begins m then 1 else 0) ∧
    (∀ e, relaxed.CutsOff s m d e → ∃ t d',
      (relaxed.make s m).run.run d = (.ok (some t), d') ∧
      (strict.make s m).run.run d = (.error (.chainTooLong e.id (rules.chainLimit + 1)), d')) ∧
    ((∀ e, ¬relaxed.CutsOff s m d e) →
      (strict.make s m).run.run d = (relaxed.make s m).run.run d ∧
      ∀ event depth, ((strict.make s m).run.run d).1 ≠ .error (.chainTooLong event depth)) := by
  intro strict relaxed
  -- both runs in terms of the course in settings that are not strict
  have hrelaxed : (relaxed.make s m).run.run d =
      (Course.answer ((relaxed.course s m).run d).1, ((relaxed.course s m).run d).2) := by
    rw [Rulebook.run_make]
    rfl
  have hstrict : (strict.make s m).run.run d =
      (Course.answer (((relaxed.course s m).run d).1.map (Course.raise rules.chainLimit)),
        ((relaxed.course s m).run d).2) := by
    rw [Rulebook.run_make, rules.course_withStrict s m]
    rfl
  have hrules : relaxed.settings.strict = false := rfl
  have hlenient := Rulebook.course_isLenient hrules s m d
  refine ⟨rules.run_make s m, fun c hc => rules.course_visits s m d c hc, ?_, ?_⟩
  · rintro e ⟨c, hc, hcut⟩
    obtain ⟨t, ht⟩ := (hlenient c hc).truncated e hcut
    refine ⟨t, ((relaxed.course s m).run d).2, ?_, ?_⟩
    · rw [hrelaxed, hc, Course.answer_of_ok ht]
    · rw [hstrict, hc, Option.map_some,
        Course.answer_of_error (Course.result_raise_of_cut hcut _)]
  · intro hnever
    cases hc : ((relaxed.course s m).run d).1 with
    | none =>
      rw [hstrict, hrelaxed, hc]
      exact ⟨rfl, fun event depth h => nomatch h⟩
    | some c =>
      have hcut : c.cut = none := by
        cases hcut : c.cut with
        | none => rfl
        | some e => exact absurd ⟨c, hc, hcut⟩ (hnever e)
      rw [hstrict, hrelaxed, hc, Option.map_some, Course.raise_of_cut_eq_none hcut]
      refine ⟨rfl, fun event depth h => (hlenient c hc).spared event depth ?_⟩
      exact Course.result_of_answer_error h

/-- An event that calls itself. -/
def echo : Event :=
  { Event.plain "回声" with body := "回声。", action := "跳转 回声" }

/-- Rules by which an echo comes back twice. -/
def echoRules : Rulebook :=
  ⟨⟨[echo]⟩, { Settings.standard with maxChainDepth := 2 }⟩

/-- A session of a trainer alone. -/
def valley : Session 1 :=
  { phase := .playing, turn := 1, maxTurns := 72, cast := .singleton (.plain "p1" "训练员" "甲"),
    log := [], pending := [] }

/-- The echo is heard as often as the limit allows. Then it falls silent, or else strict
settings make it a failure. -/
theorem echo_dies_away :
    ∃ c t d', ((echoRules.course valley (.process echo "p1" .empty)).run
        (.fresh fun _ => 0)).1 = some c ∧
      c.visits.length = 3 ∧ c.visits.length ≤ echoRules.chainLimit + 1 ∧
      ((echoRules.withStrict false).make valley (.process echo "p1" .empty)).run.run
        (.fresh fun _ => 0) = (.ok (some t), d') ∧
      t.log.map Entry.text = ["回声。", "回声。", "回声。"] ∧
      ((echoRules.withStrict true).make valley (.process echo "p1" .empty)).run.run
        (.fresh fun _ => 0) = (.error (.chainTooLong "回声" 3), d') := by
  have hrun : ((echoRules.course valley (.process echo "p1" .empty)).run
      (.fresh fun _ => 0)).1.map (fun c => (c.visits.length, c.cut.map Event.id,
        c.result.toOption.map fun t => t.log.map Entry.text)) =
      some (3, some "回声", some ["回声。", "回声。", "回声。"]) := by
    decide +kernel
  obtain ⟨c, hc, hrun⟩ := Option.map_eq_some_iff.mp hrun
  obtain ⟨hvisits, hcut, hlog⟩ : c.visits.length = 3 ∧ c.cut.map Event.id = some "回声" ∧
      c.result.toOption.map (fun t => t.log.map Entry.text) =
        some ["回声。", "回声。", "回声。"] := by
    simpa using hrun
  obtain ⟨e, hcut, hid⟩ := Option.map_eq_some_iff.mp hcut
  obtain ⟨hmake, hlimit, hraises, -⟩ := chains_are_bounded_and_strictness_only_raises echoRules
    valley (.process echo "p1" .empty) (.fresh fun _ => 0)
  -- these rules are not strict themselves
  have hrelaxed : echoRules.withStrict false = echoRules := rfl
  obtain ⟨t, d', ht, hstrict⟩ := hraises e ⟨c, by rw [hrelaxed]; exact hc, hcut⟩
  have hresult : c.result = .ok t := by
    have h := congrArg Prod.fst ht
    rw [hrelaxed, hmake] at h
    change Course.answer ((echoRules.course valley (.process echo "p1" .empty)).run
      (.fresh fun _ => 0)).1 = _ at h
    rw [hc] at h
    exact Course.result_of_answer_ok h
  rw [hresult] at hlog
  rw [hid] at hstrict
  exact ⟨c, t, d', hc, hvisits, hlimit c hc, ht, Option.some.inj hlog, hstrict⟩

end EventScript
