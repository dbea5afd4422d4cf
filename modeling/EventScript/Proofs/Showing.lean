/-
What play shows of the log, and how it goes on.

Play is a loop of rounds.  A round begins the next turn, and unless that ends the game the
characters act one after another; after each of them the queue is empty, and the entries of the log
that are new are shown.  How many have been shown is all that play keeps in mind, while the session
goes on through moves and answers; it is enough, since no move takes entries back.

* `Program.Rounds` — the rounds of a game, with the scenes that are shown in them;
* `Program.drain_gives` — answering waiting events leaves an empty queue, and keeps to the turn;
* `Position.Leads` — what one character, one round and many rounds have in common: nothing waits,
  and what has been shown is what the log had;
* `Program.Round.turn` — a round raises the turn by one or ends the game;
* `play_shows_every_entry_once` — play shows the entries of the last log, each of them once and in
  order, and every round begins with an empty queue.
-/
import EventScript.Event.Record
import EventScript.Proofs.History
import EventScript.Proofs.Outcome
import EventScript.Proofs.Rest

namespace EventScript

variable {n : Nat}

/-! ### Scenes and positions -/

/-- Something that play shows: an entry of the log, or anything else. -/
inductive Scene where
  | entry (e : Entry)
  | other (d : Display)

namespace Scene

/-- How a scene is shown. -/
def display : Scene → Display
  | entry e => .line (Program.entryLine e)
  | other d => d

/-- The entry of the log that a scene shows. -/
def entry? : Scene → Option Entry
  | entry e => some e
  | other _ => none

theorem filterMap_entry (entries : List Entry) :
    (entries.map entry).filterMap entry? = entries := by
  rw [List.filterMap_map]
  exact List.filterMap_some

theorem filterMap_other (ds : List Display) : (ds.map other).filterMap entry? = [] := by
  rw [List.filterMap_map]
  exact List.filterMap_eq_nil_iff.mpr fun d _ => rfl

theorem map_display_other (ds : List Display) : (ds.map other).map display = ds := by
  rw [List.map_map]
  exact List.map_id ds

end Scene

/-- Where a game stands at the terminal: how many entries of its log have been shown, and which
dice and lines are left. -/
structure Position (n : Nat) where
  seen : Nat
  session : Session n
  supply : Supply

namespace Position

/-- The entries that have been shown. -/
def told (a : Position n) : List Entry :=
  a.session.log.take a.seen

/-- Nothing waits, and no more has been shown than there is. -/
structure Ready (a : Position n) : Prop where
  pending_eq : a.session.pending = []
  seen_le : a.seen ≤ a.session.log.length

/-- Play is ready again after some scenes, and has shown their entries. -/
structure Leads (a : Position n) (scenes : List Scene) (b : Position n) : Prop where
  ready : b.Ready
  told_eq : b.told = a.told ++ scenes.filterMap Scene.entry?

variable {a b c : Position n} {scenes more : List Scene}

theorem Leads.refl (h : a.Ready) : a.Leads [] a :=
  ⟨h, (List.append_nil _).symm⟩

theorem Leads.trans (h : a.Leads scenes b) (h' : b.Leads more c) :
    a.Leads (scenes ++ more) c where
  ready := h'.ready
  told_eq := by rw [h'.told_eq, h.told_eq, List.filterMap_append, List.append_assoc]

/-- Entries that are new do not change what has been shown. -/
theorem told_of_isPrefix (h : a.Ready) (hlog : a.session.log <+: c.session.log)
    (hseen : c.seen = a.seen) : c.told = a.told := by
  obtain ⟨entries, hentries⟩ := hlog
  rw [told, told, hseen, ← hentries, List.take_append_of_le_length h.seen_le]

end Position

namespace Program

section Rounds

variable (rules : Rulebook) (auto : Bool) (limit : Nat)

/-! ### Rounds -/

/-- A character acts: it may draw an event, what waits is answered until nothing waits any more,
and then the entries that are new are shown. -/
inductive Act (id : String) : Position n → List Scene → Position n → Prop
  | intro {a : Position n} {moved : Option (Session n)} {dice : Dice} {ds : List Display}
      {t : Session n} {v : Supply}
      (hmove : (rules.trigger a.session id none).run.run a.supply.dice = (.ok moved, dice))
      (hdrain : (drain rules auto limit (moved.getD a.session)).Gives ⟨dice, a.supply.lines⟩
        ds t v) :
      Act id a (ds.map .other ++ (t.log.drop a.seen).map .entry) ⟨t.log.length, t, v⟩

/-- Characters act one after another, until the game is over. -/
inductive Acts : List String → Position n → List Scene → Position n → Prop
  | nil (a : Position n) : Acts [] a [] a
  | ends {id : String} {rest : List String} {a b : Position n} {scenes : List Scene}
      (hact : Act rules auto limit id a scenes b) (hover : b.session.phase = .over) :
      Acts (id :: rest) a scenes b
  | cons {id : String} {rest : List String} {a b c : Position n} {scenes more : List Scene}
      (hact : Act rules auto limit id a scenes b) (hphase : b.session.phase ≠ .over)
      (hrest : Acts rest b more c) : Acts (id :: rest) a (scenes ++ more) c

/-- The position after the next turn has begun. -/
def advanced (a : Position n) : Position n :=
  { a with session := (Rulebook.advance rules.settings a.session).getD a.session }

/-- A round: the next turn begins and, unless the game is over then, everybody acts. -/
inductive Round : Position n → List Scene → Position n → Prop
  | ends {a : Position n} (hover : (advanced rules a).session.phase = .over) :
      Round a [] (advanced rules a)
  | acts {a b : Position n} {scenes : List Scene}
      (hphase : (advanced rules a).session.phase ≠ .over)
      (hacts : Acts rules auto limit (advanced rules a).session.ids (advanced rules a) scenes b) :
      Round a scenes b

/-- There is a round to play before a turn. -/
def GoesOn (last : Int) (a : Position n) : Prop :=
  a.session.phase ≠ .over ∧ a.session.turn < last

/-- One round after another. -/
inductive Rounds (last : Int) : Position n → List Scene → Position n → Prop
  | nil (a : Position n) : Rounds last a [] a
  | cons {a b c : Position n} {scenes more : List Scene} (hgoes : GoesOn last a)
      (hround : Round rules auto limit a scenes b) (hrest : Rounds last b more c) :
      Rounds last a (scenes ++ more) c

end Rounds

variable {rules : Rulebook} {auto : Bool} {limit : Nat}

/-! ### What a round does -/

theorem stays_of_make {s : Session n} {m : Move} (hm : m ≠ .advance) {t? : Option (Session n)}
    {d d' : Dice} (h : (rules.make s m).run.run d = (.ok t?, d')) : s.Stays (t?.getD s) := by
  have htouches := rules.make_touches s hm d
  rw [h] at htouches
  cases t? with
  | none => exact .of_eq rfl rfl rfl rfl
  | some t => exact (htouches t rfl).stays

/-- What waits is answered until nothing waits, and the turn goes on meanwhile. -/
theorem drain_gives {steps : Nat} {s t : Session n} {u v : Supply} {shown : List Display}
    (h : (drain rules auto steps s).Gives u shown t v) : t.pending = [] ∧ s.Stays t := by
  induction steps generalizing s u shown with
  | zero =>
    rw [drain] at h
    split at h
    · rename_i hpending
      obtain ⟨-, rfl, -⟩ := Terminal.gives_pure_iff.mp h
      exact ⟨List.isEmpty_iff.mp hpending, .of_eq rfl rfl rfl rfl⟩
    · exact absurd h Terminal.not_gives_stop
  | succ steps ih =>
    cases hq : s.pending with
    | nil =>
      rw [drain_nil hq] at h
      obtain ⟨-, rfl, -⟩ := Terminal.gives_pure_iff.mp h
      exact ⟨hq, .of_eq rfl rfl rfl rfl⟩
    | cons item rest =>
      -- whatever is shown and chosen, only the move changes the session
      rw [drain_succ hq] at h
      obtain ⟨_, _, _, _, -, hchoose, -⟩ := Terminal.gives_bind_iff.mp h
      obtain ⟨_, k, _, _, -, hanswer, -⟩ := Terminal.gives_bind_iff.mp hchoose
      obtain ⟨_, moved, _, _, hmove, hrest, -⟩ := Terminal.gives_bind_iff.mp hanswer
      obtain ⟨-, hresolve, -⟩ := Terminal.gives_move_iff.mp hmove
      obtain ⟨hpending, hlater⟩ := ih hrest
      have hstays := stays_of_make (m := .resolve k) (by simp) hresolve
      exact ⟨hpending, hstays.trans hlater⟩

variable {a b c : Position n} {scenes more : List Scene} {last : Int}

theorem Act.stays {id : String} (h : Act rules auto limit id a scenes b) :
    a.session.Stays b.session := by
  obtain ⟨hmove, hdrain⟩ := h
  have hstays := stays_of_make (m := .trigger id none) (by simp) hmove
  exact hstays.trans (drain_gives hdrain).2

/-- All entries up to now have been shown when a character has acted. -/
theorem Act.leads {id : String} (ha : a.Ready) (h : Act rules auto limit id a scenes b) :
    a.Leads scenes b := by
  have hlog := h.stays.log.isPrefix
  obtain ⟨hmove, hdrain⟩ := h
  refine ⟨⟨(drain_gives hdrain).1, Nat.le_refl _⟩, ?_⟩
  -- the entries shown before begin the new log, too, and the others come after them
  rw [List.filterMap_append, Scene.filterMap_other, Scene.filterMap_entry, List.nil_append,
    ← Position.told_of_isPrefix ha (c := ⟨a.seen, _, a.supply⟩) hlog rfl]
  rw [Position.told, Position.told, List.take_length, List.take_append_drop]

theorem Acts.stays {ids : List String} (h : Acts rules auto limit ids a scenes b) :
    a.session.Stays b.session := by
  induction h with
  | nil a => exact .of_eq rfl rfl rfl rfl
  | ends hact _ => exact hact.stays
  | cons hact _ _ ih => exact hact.stays.trans ih

theorem Acts.leads {ids : List String} (ha : a.Ready) (h : Acts rules auto limit ids a scenes b) :
    a.Leads scenes b := by
  induction h with
  | nil a => exact .refl ha
  | ends hact _ => exact hact.leads ha
  | cons hact _ _ ih =>
    have hleads := hact.leads ha
    exact hleads.trans (ih hleads.ready)

/-- With an empty queue the next turn begins, or the game is over because there is none. -/
theorem advance_of_dealt (settings : Settings) {s : Session n} (hphase : s.phase ≠ .over)
    (hpending : s.pending = []) :
    ∃ t, Rulebook.advance settings s = some t ∧ t.pending = [] ∧
      (t.turn = s.turn + 1 ∧ t.phase = s.phase ∨ t.turn = s.turn ∧ t.phase = .over) := by
  have hready : ¬(s.phase = .over ∨ !s.pending.isEmpty) := by simp [hphase, hpending]
  rw [Rulebook.advance, if_neg hready]
  by_cases hturn : s.maxTurns < s.turn + 1
  · rw [if_pos hturn]
    exact ⟨_, rfl, hpending, .inr ⟨rfl, rfl⟩⟩
  · rw [if_neg hturn]
    refine ⟨_, rfl, ?_⟩
    rw [Session.note_eq]
    exact ⟨hpending, .inl ⟨rfl, rfl⟩⟩

/-- The next turn begins before any of its entries are shown. -/
theorem leads_advanced (rules : Rulebook) (ha : a.Ready) (hphase : a.session.phase ≠ .over) :
    a.Leads [] (advanced rules a) := by
  obtain ⟨t, ht, hpending, -⟩ := advance_of_dealt rules.settings hphase ha.pending_eq
  have hsession : (advanced rules a).session = t := by rw [advanced, ht, Option.getD_some]
  have hlog := (Rulebook.advance_movesOn ht).log.isPrefix
  rw [← hsession] at hpending hlog
  refine ⟨⟨hpending, ha.seen_le.trans hlog.length_le⟩, ?_⟩
  rw [List.filterMap_nil, List.append_nil]
  exact Position.told_of_isPrefix ha hlog rfl

theorem turn_advanced (rules : Rulebook) (ha : a.Ready) (hphase : a.session.phase ≠ .over) :
    (advanced rules a).session.turn = a.session.turn + 1 ∧
        (advanced rules a).session.phase = a.session.phase ∨
      (advanced rules a).session.turn = a.session.turn ∧
        (advanced rules a).session.phase = .over := by
  obtain ⟨t, ht, -, hturn⟩ := advance_of_dealt rules.settings hphase ha.pending_eq
  rwa [advanced, ht, Option.getD_some]

theorem Round.leads (ha : a.Ready) (hphase : a.session.phase ≠ .over)
    (h : Round rules auto limit a scenes b) : a.Leads scenes b := by
  have hadvanced := leads_advanced rules ha hphase
  cases h with
  | ends _ => exact hadvanced
  | acts _ hacts => exact hadvanced.trans (hacts.leads hadvanced.ready)

/-- Everybody acts in the turn that has begun. -/
theorem Acts.turn_eq {ids : List String} (ha : a.Ready) (hphase : a.session.phase ≠ .over)
    (hover : (advanced rules a).session.phase ≠ .over)
    (h : Acts rules auto limit ids (advanced rules a) scenes b) :
    b.session.turn = a.session.turn + 1 := by
  rcases turn_advanced rules ha hphase with ⟨hturn, -⟩ | ⟨-, hend⟩
  · exact h.stays.turn_eq.trans hturn
  · exact absurd hend hover

/-- A round raises the turn by one or ends the game. -/
theorem Round.turn (ha : a.Ready) (hphase : a.session.phase ≠ .over)
    (h : Round rules auto limit a scenes b) :
    b.session.turn = a.session.turn + 1 ∨
      b.session.turn = a.session.turn ∧ b.session.phase = .over := by
  cases h with
  | ends hover =>
    rcases turn_advanced rules ha hphase with ⟨hturn, -⟩ | hend
    · exact .inl hturn
    · exact .inr hend
  | acts hover hacts => exact .inl (hacts.turn_eq ha hphase hover)

theorem Rounds.leads (ha : a.Ready) (h : Rounds rules auto limit last a scenes b) :
    a.Leads scenes b := by
  induction h with
  | nil a => exact .refl ha
  | cons hgoes hround _ ih =>
    have hleads := hround.leads ha hgoes.1
    exact hleads.trans (ih hleads.ready)

/-! ### What play gives -/

theorem gives_showEntries {entries : List Entry} {u v : Supply} {shown : List Display}
    (h : (showEntries entries).Gives u shown () v) :
    shown = (entries.map Scene.entry).map Scene.display ∧ v = u := by
  induction entries generalizing u shown with
  | nil =>
    obtain ⟨rfl, -, rfl⟩ := Terminal.gives_pure_iff.mp h
    exact ⟨rfl, rfl⟩
  | cons e rest ih =>
    obtain ⟨first, _, w, later, hsay, hrest, rfl⟩ := Terminal.gives_bind_iff.mp h
    obtain ⟨rfl, rfl⟩ := Terminal.gives_display_iff.mp hsay
    obtain ⟨rfl, rfl⟩ := ih hrest
    exact ⟨rfl, rfl⟩

theorem gives_flush {seen k : Nat} {s : Session n} {u v : Supply} {shown : List Display}
    (h : (flush seen s).Gives u shown k v) :
    shown = ((s.log.drop seen).map Scene.entry).map Scene.display ∧ k = s.log.length ∧ v = u := by
  obtain ⟨first, _, w, later, hshow, hpure, rfl⟩ := Terminal.gives_bind_iff.mp h
  obtain ⟨rfl, rfl⟩ := gives_showEntries hshow
  obtain ⟨rfl, rfl, rfl⟩ := Terminal.gives_pure_iff.mp hpure
  exact ⟨List.append_nil _, rfl, rfl⟩

/-- Play that goes on with nothing is where it was. -/
theorem eq_of_gives_pure {shown : List Display}
    (h : (pure (a.seen, a.session) : Terminal (Nat × Session n)).Gives a.supply shown
      (b.seen, b.session) b.supply) : shown = [] ∧ b = a := by
  obtain ⟨rfl, hpair, hsupply⟩ := Terminal.gives_pure_iff.mp h
  obtain ⟨seen, session, supply⟩ := a
  obtain ⟨seen', session', supply'⟩ := b
  cases hpair
  cases hsupply
  exact ⟨rfl, rfl⟩

/-- A part of the program in which a character acts, whatever comes after it. -/
theorem exists_act {α : Type} {id : String} {next : Nat → Session n → Terminal α} {r : α}
    {v : Supply} {shown : List Display}
    (h : (do
      let moved ← Terminal.move (rules.trigger a.session id none)
      let s ← drain rules auto limit (moved.getD a.session)
      let seen ← flush a.seen s
      next seen s : Terminal α).Gives a.supply shown r v) :
    ∃ scenes b later, Act rules auto limit id a scenes b ∧
      (next b.seen b.session).Gives b.supply later r v ∧
      shown = scenes.map Scene.display ++ later := by
  obtain ⟨_, moved, w, _, hmove, hdrains, rfl⟩ := Terminal.gives_bind_iff.mp h
  obtain ⟨ds, t, x, _, hdrain, hflushes, rfl⟩ := Terminal.gives_bind_iff.mp hdrains
  obtain ⟨_, seen, y, later, hflush, hnext, rfl⟩ := Terminal.gives_bind_iff.mp hflushes
  obtain ⟨rfl, htrigger, hlines⟩ := Terminal.gives_move_iff.mp hmove
  obtain ⟨rfl, rfl, rfl⟩ := gives_flush hflush
  obtain ⟨dice, lines⟩ := w
  obtain rfl : lines = a.supply.lines := hlines
  refine ⟨_, ⟨t.log.length, t, y⟩, later, .intro htrigger hdrain, hnext, ?_⟩
  rw [List.map_append, Scene.map_display_other, List.nil_append, List.append_assoc]

/-- What is shown while everybody acts are scenes of acts. -/
theorem exists_acts {ids : List String} {shown : List Display}
    (h : (actAll rules auto limit ids a.seen a.session).Gives a.supply shown
      (b.seen, b.session) b.supply) :
    ∃ scenes, Acts rules auto limit ids a scenes b ∧ shown = scenes.map Scene.display := by
  induction ids generalizing a shown with
  | nil =>
    obtain ⟨rfl, rfl⟩ := eq_of_gives_pure h
    exact ⟨[], .nil _, rfl⟩
  | cons id rest ih =>
    rw [actAll] at h
    obtain ⟨scenes, c, later, hact, hnext, rfl⟩ := exists_act h
    by_cases hover : c.session.phase = .over
    · rw [if_pos hover] at hnext
      obtain ⟨rfl, rfl⟩ := eq_of_gives_pure hnext
      exact ⟨scenes, .ends hact hover, List.append_nil _⟩
    · rw [if_neg hover] at hnext
      obtain ⟨more, hacts, rfl⟩ := ih hnext
      exact ⟨scenes ++ more, .cons hact hover hacts, List.map_append.symm⟩

theorem playTurns_succ (turns : Nat) (h : a.session.phase ≠ .over) :
    playTurns rules auto limit (turns + 1) a.seen a.session =
      if (advanced rules a).session.phase = .over then
        pure ((advanced rules a).seen, (advanced rules a).session)
      else
        actAll rules auto limit (advanced rules a).session.ids (advanced rules a).seen
          (advanced rules a).session >>= fun r => playTurns rules auto limit turns r.1 r.2 := by
  rw [playTurns, if_neg h]
  rfl

/-- The turns that are left are counted down as the rounds raise the turn. -/
theorem exists_rounds {turns : Nat} {shown : List Display} (last : Int) (ha : a.Ready)
    (hturns : turns = (last - a.session.turn).toNat)
    (h : (playTurns rules auto limit turns a.seen a.session).Gives a.supply shown
      (b.seen, b.session) b.supply) :
    ∃ scenes, Rounds rules auto limit last a scenes b ∧ ¬GoesOn last b ∧
      shown = scenes.map Scene.display := by
  induction turns generalizing a shown with
  | zero =>
    obtain ⟨rfl, rfl⟩ := eq_of_gives_pure h
    refine ⟨[], .nil _, fun hgoes => ?_, rfl⟩
    have hlt := hgoes.2
    omega
  | succ turns ih =>
    by_cases hphase : a.session.phase = .over
    · rw [playTurns, if_pos hphase] at h
      obtain ⟨rfl, rfl⟩ := eq_of_gives_pure h
      exact ⟨[], .nil _, fun hgoes => hgoes.1 hphase, rfl⟩
    · rw [playTurns_succ turns hphase] at h
      have hgoes : GoesOn last a := ⟨hphase, by omega⟩
      by_cases hover : (advanced rules a).session.phase = .over
      · -- there is no turn left
        rw [if_pos hover] at h
        obtain ⟨rfl, rfl⟩ := eq_of_gives_pure (a := advanced rules a) h
        exact ⟨[], .cons hgoes (.ends hover) (.nil _), fun hgoes => hgoes.1 hover, rfl⟩
      · rw [if_neg hover] at h
        obtain ⟨first, ⟨seen, s⟩, v, later, hacts, hrest, rfl⟩ := Terminal.gives_bind_iff.mp h
        obtain ⟨scenes, hall, rfl⟩ := exists_acts (a := advanced rules a) (b := ⟨seen, s, v⟩) hacts
        -- the round took one turn off, so the rest is counted rightly again
        have hround := Round.acts hover hall
        have hturn := hall.turn_eq ha hphase hover
        obtain ⟨more, hrounds, hend, rfl⟩ := ih (a := ⟨seen, s, v⟩) (hround.leads ha hphase).ready
          (by omega) hrest
        exact ⟨scenes ++ more, .cons hgoes hround hrounds, hend, List.map_append.symm⟩

/-! ### The whole program -/

/-- The turn before which play has rounds to play. -/
def lastTurn (turns : Int) (s : Session n) : Int :=
  if turns = 0 then s.maxTurns else turns

/-- What is shown before the first round. -/
def prologue (s : Session n) : List Scene :=
  s.log.map .entry

/-- What is shown after the last round: entries that have not been shown, the date, and the cast
in a table. -/
def epilogue (rules : Rulebook) (b : Position n) : List Scene :=
  (b.session.log.drop b.seen).map .entry ++
    [.other (.line (.markup "\n" :: styled "bold" [.markup "游戏结束"] ++
        [.markup ("（" ++ turnHeading b.session.turn b.session.maxTurns
          (b.session.hidesDate rules.settings) ++ "）")])),
      .other (.table (b.session.cast.toList.map characterRow) "角色状态")]

/-- Play shows the log of its first session, the scenes of its rounds, and how things are at the
end. -/
theorem gives_play {turns : Int} {s : Session n} {u v : Supply} {shown : List Display}
    (hs : s.pending = []) (h : (play rules auto limit turns s).Gives u shown () v) :
    ∃ scenes b, Rounds rules auto limit (lastTurn turns s) ⟨s.log.length, s, u⟩ scenes b ∧
      ¬GoesOn (lastTurn turns s) b ∧
      shown = (prologue s ++ scenes ++ epilogue rules b).map Scene.display := by
  obtain ⟨first, seen, w, _, hflush, hplay, rfl⟩ := Terminal.gives_bind_iff.mp h
  obtain ⟨rfl, rfl, rfl⟩ := gives_flush hflush
  obtain ⟨_, ⟨seen, t⟩, x, _, hturns, hclose, rfl⟩ := Terminal.gives_bind_iff.mp hplay
  obtain ⟨_, _, y, _, hflush', hclose', rfl⟩ := Terminal.gives_bind_iff.mp hclose
  obtain ⟨rfl, rfl, rfl⟩ := gives_flush hflush'
  obtain ⟨_, _, z, _, hsay, hcast, rfl⟩ := Terminal.gives_bind_iff.mp hclose'
  obtain ⟨rfl, rfl⟩ := Terminal.gives_display_iff.mp hsay
  obtain ⟨rfl, rfl⟩ := Terminal.gives_display_iff.mp hcast
  obtain ⟨scenes, hrounds, hend, rfl⟩ := exists_rounds (a := ⟨s.log.length, s, w⟩)
    (b := ⟨seen, t, _⟩) (lastTurn turns s) ⟨hs, Nat.le_refl _⟩ rfl hturns
  refine ⟨scenes, _, hrounds, hend, ?_⟩
  rw [prologue, epilogue, List.map_append, List.map_append, List.map_append, List.append_assoc]
  rfl

/-- Arguments open a game: settings and content are loaded, the dice draw the cast, and the first
entries of the log are shown. -/
structure Opens (files : Files) (game : GameArguments) (u : Supply) (rules : Rulebook)
    (a : Position n) : Prop where
  loads : ∃ content, load files game = .ok (rules.settings, content) ∧
    content.catalogue = rules.catalogue ∧
    ((openingOf game).start content.templates rules.settings).run.run u.dice =
      (.ok ⟨n, a.session⟩, a.supply.dice)
  lines_eq : a.supply.lines = u.lines
  seen_eq : a.seen = a.session.log.length

theorem gives_loadOrStop {files : Files} {game : GameArguments} {u v : Supply}
    {shown : List Display} {loaded : Settings × Content}
    (h : (loadOrStop files game).Gives u shown loaded v) :
    shown = [] ∧ load files game = .ok loaded ∧ v = u := by
  rw [loadOrStop] at h
  split at h
  · rename_i hload
    obtain ⟨rfl, rfl, rfl⟩ := Terminal.gives_pure_iff.mp h
    exact ⟨rfl, hload, rfl⟩
  · split at h
    · obtain ⟨_, _, _, _, -, hstop, -⟩ := Terminal.gives_bind_iff.mp h
      exact absurd hstop Terminal.not_gives_stop
    · exact absurd h Terminal.not_gives_stop

theorem gives_openOrStop {game : GameArguments} {settings : Settings} {content : Content}
    {u v : Supply} {shown : List Display} {opened : (n : Nat) × Session n}
    (h : (openOrStop game settings content).Gives u shown opened v) :
    shown = [] ∧ v.lines = u.lines ∧
      ((openingOf game).start content.templates settings).run.run u.dice = (.ok opened, v.dice) := by
  obtain ⟨dice, lines⟩ := v
  have hgives : Dialogue.Gives (openOrStop game settings content u.dice) u.lines shown
    (opened, dice) lines := h
  unfold openOrStop at hgives
  split at hgives
  · rename_i hstart
    cases hgives
    exact ⟨rfl, rfl, hstart⟩
  · cases hgives with
    | present _ hstop => cases hstop
  · cases hgives

/-- A game opens with its first session. -/
theorem Opens.exists_firstSession {files : Files} {game : GameArguments} {u : Supply}
    {rules : Rulebook} {a : Position n} (h : Opens files game u rules a) :
    ∃ cast, (⟨n, a.session⟩ : (n : Nat) × Session n) =
      ⟨cast.length, Opening.firstSession rules.settings (openingOf game).playerName cast⟩ := by
  obtain ⟨content, -, -, hstart⟩ := h.loads
  have hfirst := (openingOf game).start_firstSession content.templates rules.settings u.dice
  rw [hstart] at hfirst
  exact hfirst

theorem Opens.ready {files : Files} {game : GameArguments} {u : Supply} {rules : Rulebook}
    {a : Position n} (h : Opens files game u rules a) : a.Ready := by
  obtain ⟨cast, hcast⟩ := h.exists_firstSession
  have hpending : a.session.pending = [] := congrArg (fun opened => opened.2.pending) hcast
  exact ⟨hpending, Nat.le_of_eq h.seen_eq⟩

theorem opens_of_prepare {files : Files} {game : GameArguments} {u v : Supply}
    {shown : List Display} {rules : Rulebook} {s : Session n}
    (h : (prepare files game).Gives u shown (rules, ⟨n, s⟩) v) :
    shown = [] ∧ Opens files game u rules ⟨s.log.length, s, v⟩ := by
  obtain ⟨_, ⟨settings, content⟩, w, _, hload, hopens, rfl⟩ := Terminal.gives_bind_iff.mp h
  obtain ⟨_, opened, x, _, hopen, hpure, rfl⟩ := Terminal.gives_bind_iff.mp hopens
  obtain ⟨rfl, hloads, rfl⟩ := gives_loadOrStop hload
  obtain ⟨rfl, hlines, hstart⟩ := gives_openOrStop hopen
  obtain ⟨rfl, hpair, rfl⟩ := Terminal.gives_pure_iff.mp hpure
  cases hpair
  exact ⟨rfl, ⟨content, hloads, rfl, hstart⟩, hlines, rfl⟩

/-- Before, in and after the rounds the whole log is shown. -/
theorem filterMap_of_leads (hseen : a.seen = a.session.log.length) (h : a.Leads scenes b) :
    (prologue a.session ++ scenes ++ epilogue rules b).filterMap Scene.entry? =
      b.session.log := by
  have htold : a.told = a.session.log := by rw [Position.told, hseen, List.take_length]
  have hrest : (epilogue rules b).filterMap Scene.entry? = b.session.log.drop b.seen := by
    rw [epilogue, List.filterMap_append, Scene.filterMap_entry]
    exact List.append_nil _
  rw [List.filterMap_append, List.filterMap_append, prologue, Scene.filterMap_entry, hrest, ← htold,
    ← h.told_eq, Position.told, List.take_append_drop]

/-! ### Ends of the program -/

section StopsBy

variable {fault : Ending → Prop}

theorem showEntries_stopsBy (entries : List Entry) : (showEntries entries).StopsBy fault := by
  induction entries with
  | nil => exact .pure ()
  | cons e rest ih => exact .bind (.display _) fun _ => ih

theorem flush_stopsBy (seen : Nat) (s : Session n) : (flush seen s).StopsBy fault :=
  .bind (showEntries_stopsBy _) fun _ => .pure _

theorem showPending_stopsBy (item : Pending) : (showPending item).StopsBy fault := by
  unfold showPending
  split
  · exact .display _
  · split
    · exact .display _
    · exact .pure ()

theorem chooseFor_stopsBy (s : Session n) (item : Pending) :
    (chooseFor rules s item auto).StopsBy fault := by
  unfold chooseFor
  split
  · split
    · exact .pure 0
    · exact .ask _ _
  · refine .bind (.chance _) fun visible => ?_
    split
    · exact .chance _
    · exact .bind (.chance _) fun lines => .ask _ _

variable (hfailure : ∀ f, fault (.failure f))
include hfailure

theorem prepare_stopsBy (hexit : fault (.exit 1)) (files : Files) (game : GameArguments) :
    (prepare files game).StopsBy fault := by
  have hload : (loadOrStop files game).StopsBy fault := by
    unfold loadOrStop
    split
    · exact .pure _
    · split
      · exact .bind (.display _) fun _ => .stop hexit
      · exact .stop (hfailure _)
  have hopen : ∀ settings content, (openOrStop game settings content).StopsBy fault := by
    intro settings content dice
    show Dialogue.StopsBy fault (openOrStop game settings content dice)
    unfold openOrStop
    split
    · exact trivial
    · exact hexit
    · exact hfailure _
  exact .bind hload fun loaded => .bind (hopen loaded.1 loaded.2) fun _ => .pure _

variable (hrestless : fault .restless)
include hrestless

theorem drain_stopsBy (steps : Nat) (s : Session n) :
    (drain rules auto steps s).StopsBy fault := by
  induction steps generalizing s with
  | zero =>
    rw [drain]
    split
    · exact .pure s
    · exact .stop hrestless
  | succ steps ih =>
    rw [drain]
    split
    · exact .pure s
    · refine .bind (showPending_stopsBy _) fun _ => .bind (chooseFor_stopsBy s _) fun k => ?_
      exact .bind (.move hfailure) fun moved => ih _

theorem actAll_stopsBy (ids : List String) (seen : Nat) (s : Session n) :
    (actAll rules auto limit ids seen s).StopsBy fault := by
  induction ids generalizing seen s with
  | nil => exact .pure _
  | cons id rest ih =>
    refine .bind (.move hfailure) fun moved => ?_
    refine .bind (drain_stopsBy hfailure hrestless limit _) fun s => ?_
    refine .bind (flush_stopsBy seen s) fun seen => ?_
    split
    · exact .pure _
    · exact ih seen s

theorem playTurns_stopsBy (turns seen : Nat) (s : Session n) :
    (playTurns rules auto limit turns seen s).StopsBy fault := by
  induction turns generalizing seen s with
  | zero => exact .pure _
  | succ turns ih =>
    rw [playTurns]
    split
    · exact .pure _
    · dsimp only
      split
      · exact .pure _
      · exact .bind (actAll_stopsBy hfailure hrestless _ seen _) fun r => ih r.1 r.2

theorem play_stopsBy (turns : Int) (s : Session n) :
    (play rules auto limit turns s).StopsBy fault := by
  refine .bind (flush_stopsBy 0 s) fun seen => ?_
  refine .bind (playTurns_stopsBy hfailure hrestless _ seen s) fun r => ?_
  refine .bind (flush_stopsBy r.1 r.2) fun _ => ?_
  exact .bind (.display _) fun _ => .display _

end StopsBy

end Program

/-- Play that comes to its end shows the entries of the last log, each of them once and in order,
whatever it shows in between: it opens a game and plays rounds until the game is over or the last
turn is reached. Whether or not it comes to its end, nothing waits when a round begins, and the
round raises the turn by one or ends the game. -/
theorem play_shows_every_entry_once (files : Program.Files) (limit : Nat) (game : GameArguments)
    (turns : Int) (auto : Bool) (u : Supply) :
    (((Program.carryOut files limit (.play game turns auto)).transcript u).ending = .exit 0 →
      ∃ (n : Nat) (rules : Rulebook) (a b : Position n) (scenes : List Scene),
        Program.Opens files game u rules a ∧
        Program.Rounds rules auto limit (Program.lastTurn turns a.session) a scenes b ∧
        ¬Program.GoesOn (Program.lastTurn turns a.session) b ∧
        ((Program.carryOut files limit (.play game turns auto)).transcript u).shown =
          (Program.prologue a.session ++ scenes ++ Program.epilogue rules b).map Scene.display ∧
        (Program.prologue a.session ++ scenes ++ Program.epilogue rules b).filterMap
          Scene.entry? = b.session.log) ∧
    ∀ {n : Nat} (rules : Rulebook) (a b : Position n) (last : Int) (scenes : List Scene),
      Program.Opens files game u rules a → Program.Rounds rules auto limit last a scenes b →
      b.session.pending = [] ∧ ∀ more c, Program.GoesOn last b →
        Program.Round rules auto limit b more c →
          c.session.turn = b.session.turn + 1 ∨
            c.session.turn = b.session.turn ∧ c.session.phase = .over := by
  constructor
  · intro hexit
    have hstops : (Program.carryOut files limit (.play game turns auto)).StopsBy (· ≠ .exit 0) := by
      have hfailure : ∀ f, Ending.failure f ≠ .exit 0 := fun f h => by cases h
      have hrestless : Ending.restless ≠ .exit 0 := fun h => by cases h
      refine .bind (Program.prepare_stopsBy hfailure (fun h => by cases h) files game) ?_
      exact fun r => Program.play_stopsBy hfailure hrestless turns r.2.2
    -- only a program that has given its value ends well
    obtain ⟨_, v, hgives⟩ := Terminal.exists_gives_of_exit hstops hexit
    obtain ⟨_, ⟨rules, n, s⟩, w, _, hprepare, hplay, hshown⟩ := Terminal.gives_bind_iff.mp hgives
    obtain ⟨rfl, hopens⟩ := Program.opens_of_prepare hprepare
    have hready := hopens.ready
    obtain ⟨scenes, b, hrounds, hend, rfl⟩ := Program.gives_play hready.pending_eq hplay
    exact ⟨n, rules, _, b, scenes, hopens, hrounds, hend, hshown,
      Program.filterMap_of_leads hopens.seen_eq (hrounds.leads hready)⟩
  · intro n rules a b last scenes hopens hrounds
    have hready := (hrounds.leads (hopens.ready)).ready
    exact ⟨hready.pending_eq, fun more c hgoes hround => hround.turn hready hgoes.1⟩

/-- Content with a trainer and breakfast. -/
def morningFiles : Program.Files where
  format := .standard
  content _ := .file
    "\x7b\"角色\": [\x7b\"id\": \"训练员\", \"名称\": \"甲\"\x7d], \"事件\": [\x7b\"id\": \"早餐\",
      \"标题\": \"早餐\", \"正文\": \"吃饭。\", \"选项组\": [\x7b\"显示文本\": \"好\"\x7d]\x7d]\x7d"
  settings _ := .missing
  environment := ⟨"", "", ""⟩

/-- A game for one player. -/
def morningGame : GameArguments :=
  ⟨"morning.yaml", none, "乙", "男", [], "", [], none, false⟩

/-- An answer that is refused, and one that is taken. -/
def morningSupply : Supply :=
  ⟨.fresh fun _ => 0, ["2", "1"]⟩

/-- Between the entries of a morning stand an event that waits, a question that is asked twice,
and a complaint. -/
theorem breakfast_is_shown_once :
    ((Program.carryOut morningFiles 1 (.play morningGame 1 false)).transcript
        morningSupply).ending = .exit 0 ∧
      ∃ (n : Nat) (rules : Rulebook) (a b c : Position n) (scenes more : List Scene),
        Program.Opens morningFiles morningGame morningSupply rules a ∧
        Program.Rounds rules false 1 1 a scenes b ∧
        ((Program.carryOut morningFiles 1 (.play morningGame 1 false)).transcript
          morningSupply).shown =
            (Program.prologue a.session ++ scenes ++ Program.epilogue rules b).map Scene.display ∧
        (Program.prologue a.session ++ scenes ++ Program.epilogue rules b).filterMap
          Scene.entry? = b.session.log ∧
        a.session.pending = [] ∧ Program.Round rules false 1 a more c ∧
        (c.session.turn = 1 ∨ c.session.turn = 0 ∧ c.session.phase = .over) := by
  obtain ⟨hplay, hrounds⟩ :=
    play_shows_every_entry_once morningFiles 1 morningGame 1 false morningSupply
  have hexit : ((Program.carryOut morningFiles 1 (.play morningGame 1 false)).transcript
      morningSupply).ending = .exit 0 := by decide +kernel
  obtain ⟨n, rules, a, b, scenes, hopens, hall, hend, hshown, hentries⟩ := hplay hexit
  obtain ⟨cast, hcast⟩ := hopens.exists_firstSession
  have hturn : a.session.turn = 0 := congrArg (fun opened => opened.2.turn) hcast
  have hphase : a.session.phase = .playing := congrArg (fun opened => opened.2.phase) hcast
  have hgoes : Program.GoesOn 1 a := ⟨by rw [hphase]; decide, by omega⟩
  refine ⟨hexit, n, rules, a, b, ?_⟩
  obtain ⟨hpending, hstep⟩ := hrounds rules a a 1 [] hopens (.nil a)
  cases hall with
  | nil => exact absurd hgoes hend
  | @cons _ c _ first later _ hround hrest =>
    refine ⟨c, _, first, hopens, .cons hgoes hround hrest, hshown, hentries, hpending, hround, ?_⟩
    have hnext := hstep first c hgoes hround
    rwa [hturn] at hnext

end EventScript
