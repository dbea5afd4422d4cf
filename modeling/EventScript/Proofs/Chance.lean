/-
Laws of computations that roll dice.

* `Chance.Ensures` — whatever the dice, the result satisfies a predicate; for moves that may
  fail, `Play.Ensures` has a second predicate for the failures;
* `Chance.Advances` — whatever the dice, they are only rolled on: the tape stays the same,
  and the rolls made before stay recorded;
* `Chance.Yields` — both;
* `Chance.IsCertain` — the dice are not rolled at all, and the result is always the same;
* `Play.FailsOn` — a move fails with dice that show one number only where numbers below one are
  drawn.

Both follow the structure of a computation: a law for a step and a law for what comes after
it make a law for the whole.
-/
import EventScript.Session.Basic

namespace EventScript

/-! ### Results -/

namespace Chance

variable {α β : Type}

/-- Whatever the dice, the result satisfies a predicate. -/
def Ensures (c : Chance α) (post : α → Prop) : Prop :=
  ∀ d, post (c.run d).1

theorem Ensures.of_forall {c : Chance α} {post : α → Prop} (h : ∀ a, post a) :
    Ensures c post :=
  fun _ => h _

theorem Ensures.pure {a : α} {post : α → Prop} (h : post a) :
    Ensures (Pure.pure a : Chance α) post :=
  fun _ => h

theorem Ensures.bind {c : Chance α} {f : α → Chance β} {mid : α → Prop} {post : β → Prop}
    (hc : Ensures c mid) (hf : ∀ a, mid a → Ensures (f a) post) : Ensures (c >>= f) post :=
  fun d => hf _ (hc d) (c.run d).2

/-- A step about whose result nothing need be known. -/
theorem Ensures.bind_of_forall {c : Chance α} {f : α → Chance β} {post : β → Prop}
    (hf : ∀ a, Ensures (f a) post) : Ensures (c >>= f) post :=
  fun d => hf (c.run d).1 (c.run d).2

theorem Ensures.map {c : Chance α} {f : α → β} {post : β → Prop}
    (h : Ensures c fun a => post (f a)) : Ensures (f <$> c) post :=
  h

theorem Ensures.mono {c : Chance α} {post post' : α → Prop} (hc : Ensures c post)
    (h : ∀ a, post a → post' a) : Ensures c post' :=
  fun d => h _ (hc d)

/-- With some dice, a computation gives a result. -/
def MayGive (c : Chance α) (a : α) : Prop :=
  ∃ d, (c.run d).1 = a

theorem Ensures.mayGive (c : Chance α) : Ensures c c.MayGive :=
  fun d => ⟨d, rfl⟩

theorem Ensures.of_mayGive {c : Chance α} {post : α → Prop} (h : Ensures c post) {a : α}
    (ha : c.MayGive a) : post a := by
  obtain ⟨d, rfl⟩ := ha
  exact h d

/-- A certain result is the only one. -/
theorem pure_inj {a b : α} (h : (Pure.pure a : Chance α) = Pure.pure b) : a = b :=
  congrArg (fun c : Chance α => (c.run (.fresh fun _ => 0)).1) h

/-- What comes after a computation need only agree on the results that it can have. -/
theorem Ensures.bind_congr {c : Chance α} {f g : α → Chance β} {post : α → Prop}
    (hc : Ensures c post) (h : ∀ a, post a → f a = g a) : c >>= f = c >>= g := by
  funext d
  show (f (c.run d).1).run (c.run d).2 = (g (c.run d).1).run (c.run d).2
  rw [h _ (hc d)]

/-- What is picked is one of the things to pick from. -/
theorem Ensures.pick (x : α) (rest : List α) :
    Ensures (Dice.pick x rest) fun a => a ∈ x :: rest := by
  intro d
  have hk : d.tape d.rolls.size % (rest.length + 1) < (x :: rest).length :=
    Nat.mod_lt _ (Nat.succ_pos _)
  show (x :: rest).getD (d.tape d.rolls.size % (rest.length + 1)) x ∈ x :: rest
  rw [List.getD_eq_getElem?_getD, List.getElem?_eq_getElem hk]
  exact List.getElem_mem hk

end Chance

/-! ### Dice -/

/-- Dice that may have been rolled since: the tapes are the same, and the rolls made before
are still on record. -/
structure Dice.Later (d d' : Dice) : Prop where
  tape_eq : d'.tape = d.tape
  units_eq : d'.units = d.units
  rolls : d.rolls.toList <+: d'.rolls.toList

theorem Dice.Later.refl (d : Dice) : d.Later d :=
  ⟨rfl, rfl, List.prefix_rfl⟩

theorem Dice.Later.trans {d d' d'' : Dice} (h : d.Later d') (h' : d'.Later d'') : d.Later d'' :=
  ⟨h'.tape_eq.trans h.tape_eq, h'.units_eq.trans h.units_eq, h.rolls.trans h'.rolls⟩

/-- Dice that show one number only where numbers below one are drawn. -/
def Dice.Shows (d : Dice) (x : Float) : Prop :=
  ∀ j, d.units j = x

theorem Dice.Shows.later {d d' : Dice} {x : Float} (h : d.Shows x) (hd : d.Later d') :
    d'.Shows x := by
  intro j
  rw [hd.units_eq]
  exact h j

namespace Chance

variable {α β : Type}

/-- Whatever the dice, they are only rolled on. -/
def Advances (c : Chance α) : Prop :=
  ∀ d : Dice, d.Later (c.run d).2

theorem Advances.pure (a : α) : Advances (Pure.pure a : Chance α) :=
  Dice.Later.refl

theorem Advances.bind {c : Chance α} {f : α → Chance β} (hc : Advances c)
    (hf : ∀ a, Advances (f a)) : Advances (c >>= f) :=
  fun d => (hc d).trans (hf _ _)

theorem Advances.map {c : Chance α} (f : α → β) (hc : Advances c) : Advances (f <$> c) :=
  hc

theorem Advances.roll (r : Roll) : Advances (Dice.roll r) :=
  fun d => ⟨rfl, rfl, by simp [Dice.roll, StateT.run]⟩

theorem Advances.rollUnit : Advances Dice.rollUnit :=
  fun d => ⟨rfl, rfl, by simp [Dice.rollUnit, StateT.run]⟩

theorem Advances.rollBetween (a b : Int) : Advances (Dice.rollBetween a b) :=
  .bind (.roll _) fun _ => .pure _

theorem Advances.pick (x : α) (rest : List α) : Advances (Dice.pick x rest) :=
  .bind (.roll _) fun _ => .pure _

/-- Whatever the dice, they are only rolled on, and the result satisfies a predicate. -/
def Yields (c : Chance α) (post : α → Prop) : Prop :=
  Advances c ∧ Ensures c post

theorem Yields.pure {a : α} {post : α → Prop} (h : post a) :
    Yields (Pure.pure a : Chance α) post :=
  ⟨.pure a, .pure h⟩

theorem Yields.bind {c : Chance α} {f : α → Chance β} {mid : α → Prop} {post : β → Prop}
    (hc : Yields c mid) (hf : ∀ a, mid a → Yields (f a) post) : Yields (c >>= f) post :=
  ⟨fun d => (hc.1 d).trans ((hf _ (hc.2 d)).1 _), .bind hc.2 fun a ha => (hf a ha).2⟩

/-- A step about whose result nothing need be known. -/
theorem Yields.bind_of_advances {c : Chance α} {f : α → Chance β} {post : β → Prop}
    (hc : Advances c) (hf : ∀ a, Yields (f a) post) : Yields (c >>= f) post :=
  .bind ⟨hc, fun _ => trivial⟩ fun a (_ : True) => hf a

theorem Yields.map {c : Chance α} {f : α → β} {post : β → Prop}
    (h : Yields c fun a => post (f a)) : Yields (f <$> c) post :=
  h

theorem Yields.mono {c : Chance α} {post post' : α → Prop} (hc : Yields c post)
    (h : ∀ a, post a → post' a) : Yields c post' :=
  ⟨hc.1, hc.2.mono h⟩

/-- Whatever the dice, they are only rolled on, and if they show one number only where
numbers below one are drawn, the result satisfies a predicate. -/
def YieldsOn (x : Float) (c : Chance α) (post : α → Prop) : Prop :=
  Advances c ∧ ∀ d : Dice, d.Shows x → post (c.run d).1

theorem Yields.on {c : Chance α} {post : α → Prop} (h : Yields c post) (x : Float) :
    YieldsOn x c post :=
  ⟨h.1, fun d _ => h.2 d⟩

/-- The dice are not rolled, and whatever they are, the result is the same. -/
def IsCertain (c : Chance α) : Prop :=
  ∃ a, ∀ d, c.run d = (a, d)

theorem IsCertain.pure (a : α) : IsCertain (Pure.pure a : Chance α) :=
  ⟨a, fun _ => rfl⟩

theorem IsCertain.bind {c : Chance α} {f : α → Chance β} (hc : IsCertain c)
    (hf : ∀ a, IsCertain (f a)) : IsCertain (c >>= f) := by
  obtain ⟨a, ha⟩ := hc
  obtain ⟨b, hb⟩ := hf a
  refine ⟨b, fun d => ?_⟩
  rw [StateT.run_bind, ha d]
  exact hb d

theorem IsCertain.map {c : Chance α} (f : α → β) (hc : IsCertain c) : IsCertain (f <$> c) := by
  rw [map_eq_pure_bind]
  exact hc.bind fun a => .pure (f a)

end Chance

/-! ### Moves that may fail -/

namespace Play

variable {α β : Type}

/-- A result satisfies a predicate, or a failure another one. -/
def Outcome (post : α → Prop) (fault : Failure → Prop) : Except Failure α → Prop
  | .ok a => post a
  | .error f => fault f

/-- Whatever the dice, a move that succeeds satisfies a predicate, and one that fails
another. -/
def Ensures (c : Play α) (post : α → Prop) (fault : Failure → Prop) : Prop :=
  Chance.Ensures c.run (Outcome post fault)

variable {post : α → Prop} {fault : Failure → Prop}

theorem Ensures.pure {a : α} (h : post a) : Ensures (Pure.pure a) post fault :=
  fun _ => h

theorem Ensures.throw {f : Failure} (h : fault f) : Ensures (throw f : Play α) post fault :=
  fun _ => h

theorem Ensures.chance {c : Chance α} (h : Chance.Ensures c post) :
    Ensures (Play.chance c) post fault :=
  h

theorem Ensures.ofExcept {r : Except Failure α} (h : Outcome post fault r) :
    Ensures (Play.ofExcept r) post fault :=
  fun _ => h

/-- Of any move it is known that it succeeds or fails. -/
theorem Ensures.trivial (c : Play α) : Ensures c (fun _ => True) fun _ => True := by
  intro d
  cases (c.run.run d).1 with
  | ok a => exact True.intro
  | error f => exact True.intro

theorem Ensures.bind {c : Play α} {f : α → Play β} {mid : α → Prop} {post : β → Prop}
    (hc : Ensures c mid fault) (hf : ∀ a, mid a → Ensures (f a) post fault) :
    Ensures (c >>= f) post fault := by
  unfold Ensures
  rw [ExceptT.run_bind]
  refine Chance.Ensures.bind hc fun r hr => ?_
  cases r with
  | ok a => exact hf a hr
  | error e => exact fun _ => hr

theorem Ensures.map {c : Play α} {g : α → β} {post : β → Prop}
    (hc : Ensures c (fun a => post (g a)) fault) : Ensures (g <$> c) post fault := by
  rw [map_eq_pure_bind]
  exact hc.bind fun a ha => .pure ha

/-- Two things that are known of a result, and one that is known of a failure. -/
theorem Outcome.and {post' : α → Prop} {fault' : Failure → Prop} {r : Except Failure α}
    (h : Outcome post fault r) (h' : Outcome post' fault' r) :
    Outcome (fun a => post a ∧ post' a) fault' r := by
  cases r with
  | ok a => exact ⟨h, h'⟩
  | error f => exact h'

/-- Two things that are known of the results of a move. -/
theorem Ensures.and {c : Play α} {post' : α → Prop} {fault' : Failure → Prop}
    (hc : Ensures c post fault) (hc' : Ensures c post' fault') :
    Ensures c (fun a => post a ∧ post' a) fault' :=
  fun d => (hc d).and (hc' d)

theorem Outcome.mono {post' : α → Prop} {r : Except Failure α} (hr : Outcome post fault r)
    (h : ∀ a, post a → post' a) : Outcome post' fault r := by
  cases r with
  | ok a => exact h a hr
  | error e => exact hr

theorem Ensures.mono {c : Play α} {post' : α → Prop} (hc : Ensures c post fault)
    (h : ∀ a, post a → post' a) : Ensures c post' fault :=
  Chance.Ensures.mono hc fun _ hr => hr.mono h

theorem Ensures.mono_fault {c : Play α} {fault' : Failure → Prop} (hc : Ensures c post fault)
    (h : ∀ f, fault f → fault' f) : Ensures c post fault' := by
  refine Chance.Ensures.mono hc fun r hr => ?_
  cases r with
  | ok a => exact hr
  | error f => exact h f hr

/-- A result that a move gives is one that it may give. -/
theorem Ensures.mayGive {c : Play α} (hc : Ensures c post fault) :
    Ensures c (fun a => c.run.MayGive (.ok a) ∧ post a) fault := by
  intro d
  have h := hc d
  cases hr : (c.run.run d).1 with
  | ok a =>
    rw [hr] at h
    exact ⟨⟨d, hr⟩, h⟩
  | error f =>
    rw [hr] at h
    exact h

theorem Ensures.of_mayGive {c : Play α} (hc : Ensures c post fault) {a : α}
    (ha : c.run.MayGive (.ok a)) : post a :=
  Chance.Ensures.of_mayGive hc ha

/-- A move that is made for certain. -/
theorem Ensures.some {c : Play α} (hc : Ensures c post fault) :
    Ensures (Option.some <$> c) (fun a? => ∀ a ∈ a?, post a) fault := by
  refine .map (hc.mono fun a ha => ?_)
  rintro _ ⟨⟩
  exact ha

/-- What leaves a result has succeeded. -/
theorem eq_ok_of_toOption {r : Except Failure α} {a : α} (h : r.toOption = some a) :
    r = .ok a :=
  match r, h with
  | .ok _, rfl => rfl

/-- A move that has found something to do has succeeded. -/
theorem eq_ok_of_join {r : Except Failure (Option α)} {a : α} (h : r.toOption.join = some a) :
    r = .ok (some a) :=
  match r, h with
  | .ok (some _), rfl => rfl

/-- What comes after rolling dice goes on with the number and with the dice then left. -/
theorem run_chance_bind (c : Chance α) (g : α → Play β) (d : Dice) :
    (Play.chance c >>= g).run.run d = (g (c.run d).1).run.run (c.run d).2 :=
  rfl

/-- What comes after a move with some dice goes on with its result, if it succeeds. -/
theorem Outcome.bind {c : Play α} {g : α → Play β} {d : Dice} {post' : β → Prop}
    (hc : Outcome post fault (c.run.run d).1)
    (hg : ∀ a, post a → Ensures (g a) post' fault) :
    Outcome post' fault ((c >>= g).run.run d).1 := by
  rw [ExceptT.run_bind, StateT.run_bind]
  show Outcome post' fault ((_ : Chance (Except Failure β)).run _).1
  cases hr : (c.run.run d).1 with
  | ok a =>
    rw [hr] at hc
    exact hg a hc _
  | error f =>
    rw [hr] at hc
    exact hc

/-- With dice that show one number only where numbers below one are drawn, a move fails. -/
def FailsOn (x : Float) (c : Play α) (f : Failure) : Prop :=
  ∀ d : Dice, d.Shows x → (c.run.run d).1 = .error f

variable {x : Float} {f : Failure}

theorem FailsOn.ofExcept {r : Except Failure α} (h : r = .error f) :
    FailsOn x (Play.ofExcept r) f :=
  fun _ _ => h

/-- A move fails if what it does first fails. -/
theorem FailsOn.bind {c : Play α} (hc : FailsOn x c f) (g : α → Play β) :
    FailsOn x (c >>= g) f := by
  intro d hd
  rw [ExceptT.run_bind, StateT.run_bind]
  -- after what `c` leaves, only its result matters
  show ((_ : Chance (Except Failure β)).run _).1 = _
  rw [hc d hd]
  rfl

theorem FailsOn.map {c : Play α} (hc : FailsOn x c f) (g : α → β) : FailsOn x (g <$> c) f := by
  rw [map_eq_pure_bind]
  exact hc.bind _

/-- A move fails if what comes after rolling dice fails. -/
theorem FailsOn.chance_bind {c : Chance α} {g : α → Play β} {mid : α → Prop}
    (hc : Chance.YieldsOn x c mid) (hg : ∀ a, mid a → FailsOn x (g a) f) :
    FailsOn x (Play.chance c >>= g) f :=
  fun d hd => hg _ (hc.2 d hd) _ (hd.later (hc.1 d))

end Play

end EventScript
