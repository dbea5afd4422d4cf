/-
The moves of a game as data, and games as sequences of moves.

`Rulebook.make` makes one move and `Session.play` one move after another, where each may
follow rules of its own.  A move that fails, or that finds nothing to do, leaves the session
as it was, but the dice stay rolled.

* `Session.play_ensures_of_mem` and `Session.play_ensures` — what its moves keep, or what every
  move keeps, a game keeps.
-/
import EventScript.Proofs.Chance
import EventScript.Session.Turn

namespace EventScript

variable {n : Nat}

/-- What can be done with a session. -/
inductive Move where
  /-- Begins the next turn. -/
  | advance
  /-- Lets the character with an id act on a forced event, or on one that it draws. -/
  | trigger (id : String) (forced : Option Event)
  /-- Processes an event for the character with an id. -/
  | process (e : Event) (id : String) (scope : Scope)
  /-- Answers the event in front of the queue. -/
  | resolve (index : Int)
  /-- Carries out a command from the console for the character with an id. -/
  | command (text id : String)

/-- Makes a move. One that finds nothing to do gives no session. -/
def Rulebook.make (rules : Rulebook) (s : Session n) : Move → Play (Option (Session n))
  | .advance => pure (advance rules.settings s)
  | .trigger id forced => rules.trigger s id forced
  | .process e id scope => some <$> rules.processFor s e id scope
  | .resolve index => rules.resolve s index
  | .command text id => rules.command s text id

namespace Session

/-- The session after a move with a result. -/
def after (s : Session n) : Except Failure (Option (Session n)) → Session n
  | .ok (some t) => t
  | .ok none => s
  | .error _ => s

/-- Makes moves one after another, each by its own rules. -/
def play : List (Rulebook × Move) → Session n → Chance (Session n)
  | [], s => pure s
  | (rules, m) :: rest, s => do
    let r ← (rules.make s m).run
    play rest (s.after r)

/-- What the moves of a game keep, the game keeps. -/
theorem play_ensures_of_mem {R : Session n → Session n → Prop} (refl : ∀ s, R s s)
    (trans : ∀ {s t u}, R s t → R t u → R s u) (moves : List (Rulebook × Move))
    (step : ∀ move ∈ moves, ∀ s,
      Play.Ensures (move.1.make s move.2) (fun t? => ∀ t ∈ t?, R s t) fun _ => True)
    (s : Session n) : Chance.Ensures (play moves s) (R s) := by
  induction moves generalizing s with
  | nil => exact .pure (refl s)
  | cons move rest ih =>
    obtain ⟨hmove, hrest⟩ := List.forall_mem_cons.mp step
    refine .bind (hmove s) fun r hr => ?_
    have hs : R s (s.after r) := by
      match r, hr with
      | .ok (some t), hr => exact hr t rfl
      | .ok none, _ => exact refl s
      | .error _, _ => exact refl s
    exact .mono (ih hrest _) fun t ht => trans hs ht

theorem play_ensures {R : Session n → Session n → Prop} (refl : ∀ s, R s s)
    (trans : ∀ {s t u}, R s t → R t u → R s u)
    (step : ∀ (rules : Rulebook) s m,
      Play.Ensures (rules.make s m) (fun t? => ∀ t ∈ t?, R s t) fun _ => True)
    (moves : List (Rulebook × Move)) (s : Session n) : Chance.Ensures (play moves s) (R s) :=
  play_ensures_of_mem refl trans moves (fun move _ s => step move.1 s move.2) s

end Session

end EventScript
