/-
Skipped statements leave no trace.

An attempt at a statement keeps whatever it has written, also when the statement then counts
as skipped; that a skipped statement changes nothing is therefore a fact about every
operation, which finds all reasons to give up before it writes.

* `Attempt.Follows.progress_eq` — a skipped attempt has left the progress as it was;
* `skipped_statements_leave_no_trace` — so every skipped statement has only rolled dice, and a
  script of which nothing but loops was carried out, at any depth, has changed nothing but
  the record of outcomes.
-/
import EventScript.Proofs.Edit

namespace EventScript

open Chance Relation

variable {n : Nat}

theorem Attempt.Follows.progress_eq {R : Progress n → Progress n → Prop} {op : Operation}
    {p : Progress n} {a : Attempt n} (h : Follows R op p a) (hskip : a.skipped ≠ none) :
    a.progress = p := by
  cases h with
  | skip reason => rfl
  | done _ _ => exact absurd rfl hskip
  | loop _ _ => exact absurd rfl hskip

theorem Step.attempt_yields (s : Step) (subject : Seat n) (p : Progress n) :
    Yields (s.attempt subject p) fun a => a.skipped ≠ none → a.progress = p := by
  cases s with
  | mk raw statement body =>
    rw [Step.attempt]
    -- a loop that is carried out is not skipped, whatever its body does
    have hbody : ∀ (i : Seat n) (q : Progress n),
        Yields (Script.run body i q) fun _ => True := fun i q =>
      Script.run_yields (fun _ => trivial) (fun _ _ => trivial) (fun _ _ _ => trivial) body i q
    exact .mono (statement.attempt_follows (R := fun _ _ => True) (fun _ => trivial)
      (fun _ _ => trivial) subject hbody p) fun a => Attempt.Follows.progress_eq

/-- Nothing was carried out but, perhaps, a loop. -/
def Outcome.IsIdle (o : Outcome) : Prop :=
  o.skipped ≠ none ∨ o.statement.operation.isLoop = true

/-- A progress has only gained outcomes, and if all of them are idle, nothing else. -/
def Progress.Idles (p q : Progress n) : Prop :=
  ∃ later, q.outcomes = p.outcomes ++ later ∧
    ((∀ o ∈ later, o.IsIdle) → q = { p with outcomes := p.outcomes ++ later })

namespace Progress.Idles

theorem refl (p : Progress n) : p.Idles p :=
  ⟨[], by simp, by simp⟩

theorem trans {p q r : Progress n} (h : p.Idles q) (h' : q.Idles r) : p.Idles r := by
  obtain ⟨later, hq, hidle⟩ := h
  obtain ⟨last, hr, hidle'⟩ := h'
  refine ⟨later ++ last, by rw [hr, hq, List.append_assoc], fun hall => ?_⟩
  obtain ⟨hlater, hlast⟩ := List.forall_mem_append.mp hall
  rw [hidle' hlast, hidle hlater]
  simp

end Progress.Idles

theorem Progress.outcomes_of_writes {p q : Progress n} (h : ReflTransGen Progress.Write p q) :
    q.outcomes = p.outcomes := by
  induction h with
  | refl => rfl
  | tail _ hwrite ih => cases hwrite <;> exact ih

theorem Script.run_idles (script : List Step) (subject : Seat n) (p : Progress n) :
    Yields (Script.run script subject p) p.Idles := by
  refine Script.run_yields .refl .trans (fun raw statement h => ?_) script subject p
  cases h with
  | skip reason => exact ⟨[_], rfl, fun _ => rfl⟩
  | done hop h =>
    rename_i p q
    refine ⟨[⟨raw, statement, none⟩], ?_, fun hall => ?_⟩
    · show q.outcomes ++ _ = _
      rw [Progress.outcomes_of_writes h]
      rfl
    · -- a write is not idle
      rcases hall _ (List.mem_singleton_self _) with hskip | hloop
      · exact absurd rfl hskip
      · rw [hop] at hloop
        cases hloop
  | loop hop h =>
    -- the outcomes inside of the loop come before the one of the loop itself
    obtain ⟨later, hq, hidle⟩ := h
    refine ⟨later ++ [⟨raw, statement, none⟩], ?_, fun hall => ?_⟩
    · show _ ++ _ = _
      rw [← List.append_assoc, ← hq]
      rfl
    · rw [hidle (List.forall_mem_append.mp hall).1, ← List.append_assoc]
      rfl

/-- A skipped statement has only rolled dice, and a script of which nothing but loops was
carried out has only rolled dice and recorded outcomes. -/
theorem skipped_statements_leave_no_trace (subject : Seat n) (p : Progress n) :
    (∀ s : Step, Yields (s.attempt subject p) fun a => a.skipped ≠ none → a.progress = p) ∧
    ∀ script : List Step, Yields (Script.run script subject p) p.Idles :=
  ⟨fun s => s.attempt_yields subject p, fun script => Script.run_idles script subject p⟩

/-- The world of a player who is alone. -/
def soloWorld : World 1 :=
  ⟨#v[.plain "p1" "训练员" "甲"], 1, Settings.standard⟩

theorem removing_no_tag_leaves_no_trace :
    ((Step.attempt (.mk [] ⟨none, none, .removeTag "婚戒".toList⟩ []) 0
      (.start soloWorld .empty)).run (.fresh fun _ => 0)).1.progress =
        .start soloWorld .empty :=
  ((skipped_statements_leave_no_trace 0 _).1 _).2 (.fresh fun _ => 0) (by decide)

end EventScript
