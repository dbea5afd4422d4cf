/-
What scripts can do.

`Progress.Write` lists the ways in which an operation changes how far a command has come, as
far as characters are concerned.  An attempt at a statement is given up before anything is
written, or writes, or carries out a loop (`Attempt.Follows`); that every operation keeps to
this is shown once:

* `Statement.attempt_follows` — for a single statement;
* `Script.run_yields` — what skipping, writing and looping keep, every script keeps;
* `execute_becomes` — a command turns a world into one whose characters have only been
  edited.
-/
import EventScript.Proofs.Deed

namespace EventScript

open Chance Relation

variable {n : Nat}

/-! ### Writes -/

/-- The changes that operations make to a progress. -/
inductive Progress.Write : Progress n → Progress n → Prop where
  | edit (p : Progress n) (i : Seat n) (f : Character → Character)
      (h : ReflTransGen (Character.Edit p.world.turn) (p.world.character i)
        (f (p.world.character i))) :
      Write p (p.update i f)
  | set (p : Progress n) (key : Text) (v : Value) : Write p (p.set key v)
  | jump (p : Progress n) (next : Option Text) (pause : Bool) :
      Write p { p with next, pause }

/-- Whatever an operation does, it writes. -/
theorem Progress.Deed.write {p q : Progress n} (h : Progress.Deed p q) : Progress.Write p q := by
  cases h with
  | edit i f h hrelations => exact .edit p i f h
  | feel holder object kind amount => exact .edit p holder _ (.single (.relation ..))
  | set key h => exact .set p key _

namespace Attempt

/-- An attempt at an operation that is no loop: it is given up before anything is written,
or it writes. -/
inductive Writes (p : Progress n) : Attempt n → Prop where
  | skip (reason : SkipReason) : Writes p (.skip p reason)
  | done {q : Progress n} (h : ReflTransGen Progress.Write p q) : Writes p (.done q)

/-- An attempt at an operation. What a loop does to a progress is subject to `R`, and a jump
inside of it is not followed. -/
inductive Follows (R : Progress n → Progress n → Prop) (op : Operation) (p : Progress n) :
    Attempt n → Prop where
  | skip (reason : SkipReason) : Follows R op p (.skip p reason)
  | done {q : Progress n} (hop : op.isLoop = false) (h : ReflTransGen Progress.Write p q) :
      Follows R op p (.done q)
  | loop {q : Progress n} (hop : op.isLoop = true) (h : R p q) :
      Follows R op p (.done (p.withoutJump q))

theorem Writes.follows {R : Progress n → Progress n → Prop} {op : Operation} {p : Progress n}
    {a : Attempt n} (hop : op.isLoop = false) (h : Writes p a) : Follows R op p a := by
  cases h with
  | skip reason => exact .skip reason
  | done h => exact .done hop h

theorem Deeds.writes {jumps : List Jump} {p : Progress n} {a : Attempt n} (h : Deeds jumps p a) :
    Writes p a := by
  cases h with
  | skip reason => exact .skip reason
  | done h => exact .done (h.lift id fun _ _ hdeed => hdeed.write)
  | jump h => exact .done (.single (.jump ..))

theorem Obeys.follows {R : Progress n → Progress n → Prop} {op : Operation} {p : Progress n}
    {a : Attempt n} (h : Obeys R op p a) : Follows R op p a := by
  cases h with
  | skip reason => exact .skip reason
  | deeds hop h => exact h.writes.follows hop
  | loop hop h => exact .loop hop h

end Attempt

open Attempt

/-! ### Statements and scripts -/

theorem Statement.attempt_follows {R : Progress n → Progress n → Prop} (refl : ∀ p, R p p)
    (trans : ∀ {p q r}, R p q → R q r → R p r) (statement : Statement) (subject : Seat n)
    {loop : Seat n → Progress n → Chance (Progress n)}
    (hloop : ∀ i q, Yields (loop i q) (R q)) (p : Progress n) :
    Yields (statement.attempt subject loop p) (Follows R statement.operation p) :=
  .mono (statement.attempt_obeys refl trans subject hloop p) fun _ h => h.follows

/-- What becomes of each step keeps a relation, if skipping, writing and looping do; so every
script keeps it. -/
theorem Script.run_yields {R : Progress n → Progress n → Prop} (refl : ∀ p, R p p)
    (trans : ∀ {p q r}, R p q → R q r → R p r)
    (step : ∀ {p : Progress n} {a : Attempt n} raw (statement : Statement),
      Follows R statement.operation p a → R p (a.progress.record ⟨raw, statement, a.skipped⟩))
    (script : List Step) (subject : Seat n) (p : Progress n) :
    Yields (Script.run script subject p) (R p) :=
  Script.run_obeys refl trans (fun raw statement h => step raw statement h.follows) script
    subject p

/-! ### Worlds -/

/-- Of a cast of which one seat was changed, that seat has the new character. -/
theorem cast_get_set (cast : Vector Character n) (i j : Seat n) (c : Character) :
    (cast.set i.val c i.isLt).get j = if j = i then c else cast.get j := by
  show (cast.set i.val c i.isLt)[j.val] = _
  rw [Vector.getElem_set]
  by_cases h : j = i
  · rw [if_pos h, if_pos (congrArg Fin.val h).symm]
  · rw [if_neg h, if_neg fun e => h (Fin.ext e.symm)]
    rfl

namespace World

theorem character_update (w : World n) (i j : Seat n) (f : Character → Character) :
    (w.update i f).character j = if j = i then f (w.character i) else w.character j :=
  cast_get_set w.cast i j _

/-- A world has come out of another by edits of its characters. -/
structure Becomes (w w' : World n) : Prop where
  turn_eq : w'.turn = w.turn
  settings_eq : w'.settings = w.settings
  edits : ∀ i, ReflTransGen (Character.Edit w.turn) (w.character i) (w'.character i)

theorem Becomes.refl (w : World n) : w.Becomes w :=
  ⟨rfl, rfl, fun _ => .refl⟩

theorem Becomes.trans {w w' w'' : World n} (h : w.Becomes w') (h' : w'.Becomes w'') :
    w.Becomes w'' := by
  refine ⟨h'.turn_eq.trans h.turn_eq, h'.settings_eq.trans h.settings_eq, fun i => ?_⟩
  -- the later edits are made in the turn of the earlier ones
  have hi := h'.edits i
  rw [h.turn_eq] at hi
  exact (h.edits i).trans hi

/-- Editing one character edits the world. -/
theorem Becomes.update {w : World n} {i : Seat n} {f : Character → Character}
    (h : ReflTransGen (Character.Edit w.turn) (w.character i) (f (w.character i))) :
    w.Becomes (w.update i f) := by
  refine ⟨rfl, rfl, fun j => ?_⟩
  rw [character_update]
  by_cases hj : j = i
  · rw [if_pos hj, hj]
    exact h
  · rw [if_neg hj]

theorem Becomes.of_writes {p q : Progress n} (h : ReflTransGen Progress.Write p q) :
    p.world.Becomes q.world := by
  induction h with
  | refl => exact .refl _
  | tail _ hwrite ih =>
    cases hwrite with
    | edit i f h => exact ih.trans (.update h)
    | set key v => exact ih
    | jump next pause => exact ih

end World

theorem World.Becomes.of_acts {p q : Progress n} (h : p.Acts q) : p.world.Becomes q.world := by
  induction h with
  | refl => exact .refl _
  | tail _ hact ih =>
    cases hact with
    | deed h => exact ih.trans (.of_writes (.single h.write))
    | jump next pause => exact ih
    | report outcomes => exact ih

/-- A command only edits characters. -/
theorem execute_becomes (w : World n) (subject : Seat n) (scope : Scope) (command : Text) :
    Yields (execute w subject scope command) fun q => w.Becomes q.world :=
  .mono (execute_acts w subject scope command) fun _ => World.Becomes.of_acts

end EventScript
