/-
The history of a session.

`Session.Touch` lists the ways in which a move touches a session; only a new turn is beyond them.
So what no touch does, no move does, and a session moves forward: its log grows by entries of the
turn, its end is final, and its turn changes by a new turn only, for which nothing may be waiting.

* `Rulebook.make_touches` — a move that is no new turn is a sequence of touches;
* `Session.MovesOn` and `Rulebook.make_movesOn` — what any move does to log, turn and phase;
* `Session.InOrder.move` — order is kept from move to move;
* `Session.Waits.turn_eq` — nothing waits from one turn to another;
* `history_moves_forward` — all of this for single moves and for whole games.
-/
import EventScript.Proofs.Chronicle
import EventScript.Proofs.Conduct
import EventScript.Session.Opening

namespace EventScript

open Relation

variable {n : Nat}

/-! ### Touches -/

namespace Session

/-- The ways in which a move touches a session within a turn. -/
inductive Touch : Session n → Session n → Prop
  | cast (s : Session n) {settings : Settings} {w : World n}
      (h : (s.world settings).Becomes w) : Touch s { s with cast := w.cast }
  | change (s : Session n) (i : Seat n) {f : Character → Character}
      (h : Character.Change s.turn (s.character i) (f (s.character i))) : Touch s (s.update i f)
  | note (s : Session n) (speaker text : String) (kind : EntryKind) (important : Bool)
      (effects : List String) : Touch s (s.note speaker text kind important effects)
  | push (s : Session n) (item : Pending) : Touch s (s.push item)
  | leave (s : Session n) {item : Pending} {rest : List Pending}
      (h : s.pending = item :: rest) : Touch s { s with pending := rest }
  | finish (s : Session n) : Touch s { s with phase := .over }

/-- One touch after another. -/
abbrev Touches : Session n → Session n → Prop :=
  ReflTransGen Touch

/-- Every deed touches the session. -/
theorem Deed.touch {a b : Session n × Scope} (h : Deed a b) : a.1.Touch b.1 := by
  cases h with
  | script s hacts => exact .cast s (World.Becomes.of_acts hacts)
  | change s scope i h hrelations => exact .change s i h
  | note s scope speaker text kind important effects => exact .note ..
  | push s i hcharacter => exact .push ..
  | leave s scope hpending => exact .leave s hpending
  | finish s scope => exact .finish s

theorem Deeds.touches {s t : Session n} {scope : Scope} (h : s.Deeds scope t) : s.Touches t := by
  obtain ⟨last, hdeeds⟩ := h
  exact hdeeds.lift Prod.fst fun _ _ hdeed => hdeed.touch

end Session

/-- A move that is no new turn is a sequence of touches. -/
theorem Rulebook.make_touches (rules : Rulebook) (s : Session n) {m : Move} (hm : m ≠ .advance) :
    Play.Ensures (rules.make s m) (fun t? => ∀ t ∈ t?, s.Touches t) fun _ => True :=
  .mono (rules.make_deeds s hm) fun _ h t ht => (h t ht).touches

/-! ### Moves -/

namespace Session

/-- The log has grown by entries of a turn, all of which say something. -/
def LogGrows (s t : Session n) (turn : Int) : Prop :=
  ∃ entries, t.log = s.log ++ entries ∧ ∀ entry ∈ entries, entry.turn = turn ∧ entry.text ≠ ""

theorem LogGrows.of_eq {s t : Session n} (h : t.log = s.log) (turn : Int) : s.LogGrows t turn :=
  ⟨[], by rw [h, List.append_nil], by simp⟩

theorem LogGrows.trans {s t u : Session n} {turn : Int} (h : s.LogGrows t turn)
    (h' : t.LogGrows u turn) : s.LogGrows u turn := by
  obtain ⟨entries, hlog, hentries⟩ := h
  obtain ⟨entries', hlog', hentries'⟩ := h'
  refine ⟨entries ++ entries', ?_, List.forall_mem_append.mpr ⟨hentries, hentries'⟩⟩
  rw [hlog', hlog, List.append_assoc]

/-- A log that has grown begins as it was. -/
theorem LogGrows.isPrefix {s t : Session n} {turn : Int} (h : s.LogGrows t turn) :
    s.log <+: t.log := by
  obtain ⟨entries, hlog, -⟩ := h
  exact hlog ▸ List.prefix_append ..

theorem LogGrows.note (s : Session n) (speaker text : String) (kind : EntryKind)
    (important : Bool) (effects : List String) :
    s.LogGrows (s.note speaker text kind important effects) s.turn := by
  refine ⟨(Entry.of? s.turn speaker text kind important effects).toList, ?_, fun entry h => ?_⟩
  · rw [note_eq]
  · have hmem := Option.mem_toList.mp h
    exact ⟨Entry.turn_eq_of_mem hmem, Entry.text_ne_empty_of_mem hmem⟩

/-- What becomes of a session within a turn. -/
structure Stays (s t : Session n) : Prop where
  turn_eq : t.turn = s.turn
  maxTurns_eq : t.maxTurns = s.maxTurns
  phase : t.phase = s.phase ∨ t.phase = .over
  log : s.LogGrows t s.turn

theorem Stays.of_eq {s t : Session n} (hturn : t.turn = s.turn) (hmax : t.maxTurns = s.maxTurns)
    (hphase : t.phase = s.phase) (hlog : t.log = s.log) : s.Stays t :=
  ⟨hturn, hmax, .inl hphase, .of_eq hlog _⟩

theorem Stays.trans {s t u : Session n} (h : s.Stays t) (h' : t.Stays u) : s.Stays u where
  turn_eq := h'.turn_eq.trans h.turn_eq
  maxTurns_eq := h'.maxTurns_eq.trans h.maxTurns_eq
  phase := by
    rcases h'.phase with hsame | hover
    · rw [hsame]
      exact h.phase
    · exact .inr hover
  log := by
    have hlog := h'.log
    rw [h.turn_eq] at hlog
    exact h.log.trans hlog

theorem Touch.stays {s t : Session n} (h : s.Touch t) : s.Stays t := by
  cases h with
  | cast h => exact .of_eq rfl rfl rfl rfl
  | change i h => exact .of_eq rfl rfl rfl rfl
  | note speaker text kind important effects =>
    refine ⟨?_, ?_, .inl ?_, .note ..⟩ <;> rw [note_eq]
  | push item => exact .of_eq rfl rfl rfl rfl
  | leave h => exact .of_eq rfl rfl rfl rfl
  | finish => exact ⟨rfl, rfl, .inr rfl, .of_eq rfl _⟩

theorem Touches.stays {s t : Session n} (h : s.Touches t) : s.Stays t := by
  induction h with
  | refl => exact .of_eq rfl rfl rfl rfl
  | tail _ htouch ih => exact ih.trans htouch.stays

/-- A new turn begins, after all that was waiting has been dealt with. -/
structure NewTurn (s t : Session n) : Prop where
  turn_eq : t.turn = s.turn + 1
  turn_le : t.turn ≤ t.maxTurns
  playable : s.phase ≠ .over
  dealt : s.pending = []
  pending_eq : t.pending = []

/-- What a move does to a session. -/
structure MovesOn (s : Session n) (m : Move) (t : Session n) : Prop where
  log : s.LogGrows t t.turn
  maxTurns_eq : t.maxTurns = s.maxTurns
  phase : t.phase = s.phase ∨ t.phase = .over
  turn : t.turn = s.turn ∨ m = .advance ∧ s.NewTurn t

theorem Stays.movesOn {s t : Session n} (h : s.Stays t) (m : Move) : s.MovesOn m t where
  log := h.turn_eq ▸ h.log
  maxTurns_eq := h.maxTurns_eq
  phase := h.phase
  turn := .inl h.turn_eq

end Session

namespace Rulebook

theorem advance_movesOn {settings : Settings} {s t : Session n} (h : advance settings s = some t) :
    s.MovesOn .advance t := by
  rw [advance] at h
  split at h
  · cases h
  · rename_i hready
    rw [not_or] at hready
    have hdealt : s.pending = [] := by simpa using hready.2
    simp only at h
    split at h
    · -- after the last turn the game is over
      cases h
      exact (Session.Touch.finish s).stays.movesOn _
    · rename_i hturn
      cases h
      rw [Session.note_eq]
      refine ⟨?_, rfl, .inl rfl, .inr ⟨rfl, rfl, ?_, hready.1, hdealt, hdealt⟩⟩
      · exact ⟨_, rfl, fun entry hentry =>
          ⟨Entry.turn_eq_of_mem (Option.mem_toList.mp hentry),
            Entry.text_ne_empty_of_mem (Option.mem_toList.mp hentry)⟩⟩
      · exact Int.not_lt.mp hturn

/-- A move either finds nothing to do or moves the session on. -/
theorem make_movesOn (rules : Rulebook) (s : Session n) (m : Move) :
    Play.Ensures (rules.make s m) (fun t? => s.MovesOn m (t?.getD s)) fun _ => True := by
  have hnone : s.MovesOn m s := Session.Stays.movesOn (.of_eq rfl rfl rfl rfl) m
  by_cases hm : m = .advance
  · subst hm
    refine .pure ?_
    cases h : advance rules.settings s with
    | none => exact hnone
    | some t => exact advance_movesOn h
  · refine .mono (rules.make_touches s hm) fun t? ht => ?_
    cases t? with
    | none => exact hnone
    | some t => exact (Session.Touches.stays (ht t rfl)).movesOn m

end Rulebook

/-! ### Games -/

namespace Session

/-- One move leads from one session to another, by some rules and with some dice. -/
def Moves (s t : Session n) : Prop :=
  ∃ (rules : Rulebook) (m : Move) (d d' : Dice) (t? : Option (Session n)),
    (rules.make s m).run.run d = (.ok t?, d') ∧ t?.getD s = t

/-- A game of moves that succeed leads from one session to another. -/
abbrev Reaches : Session n → Session n → Prop :=
  ReflTransGen Moves

/-- A game goes on with a move, whether it succeeds or not. -/
theorem reaches_after (s : Session n) (rules : Rulebook) (m : Move) (d : Dice) :
    s.Reaches (s.after ((rules.make s m).run.run d).1) := by
  cases hr : (rules.make s m).run.run d with
  | mk r d' =>
    match r with
    | .ok (some t) => exact .single ⟨rules, m, d, d', some t, hr, rfl⟩
    | .ok none => exact .refl
    | .error _ => exact .refl

/-- An item is in the queue of every session of a game from one session to another. -/
inductive Waits (item : Pending) : Session n → Session n → Prop
  | start {s : Session n} (h : item ∈ s.pending) : Waits item s s
  | move {s t u : Session n} (h : Waits item s t) (hmove : t.Moves u) (hu : item ∈ u.pending) :
      Waits item s u

/-- A history in order: entries of one turn come after those of the turns before, and neither
they nor the session are beyond their time. -/
structure InOrder (s : Session n) : Prop where
  sorted : (s.log.map Entry.turn).Pairwise (· ≤ ·)
  past : ∀ entry ∈ s.log, entry.turn ≤ s.turn
  turn_le : s.turn ≤ max 0 s.maxTurns

theorem Moves.movesOn {s t : Session n} (h : s.Moves t) : ∃ m, s.MovesOn m t := by
  obtain ⟨rules, m, d, d', t?, hmake, rfl⟩ := h
  have hmoves := rules.make_movesOn s m d
  rw [hmake] at hmoves
  exact ⟨m, hmoves⟩

theorem MovesOn.turn_le {s t : Session n} {m : Move} (h : s.MovesOn m t) : s.turn ≤ t.turn := by
  rcases h.turn with hsame | ⟨-, hnew⟩
  · exact Int.le_of_eq hsame.symm
  · have hturn := hnew.turn_eq
    omega

theorem InOrder.move {s t : Session n} {m : Move} (hs : s.InOrder) (h : s.MovesOn m t) :
    t.InOrder := by
  obtain ⟨entries, hlog, hentries⟩ := h.log
  have hold : ∀ entry ∈ s.log, entry.turn ≤ t.turn := fun entry hentry =>
    Int.le_trans (hs.past entry hentry) h.turn_le
  refine ⟨?_, ?_, ?_⟩
  · rw [hlog, List.map_append, List.pairwise_append]
    refine ⟨hs.sorted, List.pairwise_map.mpr ?_, ?_⟩
    · -- all new entries are of one turn
      refine List.pairwise_of_forall_mem_list fun a ha b hb => ?_
      exact Int.le_of_eq ((hentries a ha).1.trans (hentries b hb).1.symm)
    · intro a ha b hb
      obtain ⟨entry, hentry, rfl⟩ := List.mem_map.mp ha
      obtain ⟨entry', hentry', rfl⟩ := List.mem_map.mp hb
      rw [(hentries entry' hentry').1]
      exact hold entry hentry
  · rw [hlog]
    exact List.forall_mem_append.mpr ⟨hold, fun entry hentry =>
      Int.le_of_eq (hentries entry hentry).1⟩
  · rcases h.turn with hsame | ⟨-, hnew⟩
    · rw [hsame, h.maxTurns_eq]
      exact hs.turn_le
    · have hturn := hnew.turn_le
      omega

theorem InOrder.reaches {s t : Session n} (hs : s.InOrder) (h : s.Reaches t) : t.InOrder := by
  induction h with
  | refl => exact hs
  | tail _ hmove ih =>
    obtain ⟨m, hmoves⟩ := hmove.movesOn
    exact ih.move hmoves

theorem maxTurns_eq_of_reaches {s t : Session n} (h : s.Reaches t) : t.maxTurns = s.maxTurns := by
  induction h with
  | refl => rfl
  | tail _ hmove ih =>
    obtain ⟨m, hmoves⟩ := hmove.movesOn
    exact hmoves.maxTurns_eq.trans ih

/-- A move after which something waits begins no turn. -/
theorem Moves.turn_eq_of_mem {s t : Session n} (h : s.Moves t) {item : Pending}
    (hitem : item ∈ t.pending) : t.turn = s.turn := by
  obtain ⟨m, hmoves⟩ := h.movesOn
  rcases hmoves.turn with hsame | ⟨-, hnew⟩
  · exact hsame
  · rw [hnew.pending_eq] at hitem
    cases hitem

theorem Waits.mem {s t : Session n} {item : Pending} (h : Waits item s t) : item ∈ s.pending := by
  induction h with
  | start h => exact h
  | move _ _ _ ih => exact ih

/-- Nothing waits from one turn to another. -/
theorem Waits.turn_eq {s t : Session n} {item : Pending} (h : Waits item s t) :
    t.turn = s.turn := by
  induction h with
  | start => rfl
  | move _ hmove hu ih => exact (hmove.turn_eq_of_mem hu).trans ih

/-- Whatever waits in a game that began without anything waiting was put into the queue by some
move, and has waited ever since. -/
theorem exists_waits {s t : Session n} (hs : s.pending = []) (h : s.Reaches t) {item : Pending}
    (hitem : item ∈ t.pending) :
    ∃ u v, s.Reaches u ∧ item ∉ u.pending ∧ u.Moves v ∧ v.Waits item t := by
  induction h with
  | refl =>
    rw [hs] at hitem
    cases hitem
  | @tail t u hreaches hmove ih =>
    by_cases hbefore : item ∈ t.pending
    · obtain ⟨v, w, hv, hnew, hvw, hwaits⟩ := ih hbefore
      exact ⟨v, w, hv, hnew, hvw, .move hwaits hmove hitem⟩
    · exact ⟨t, u, hreaches, hbefore, hmove, .start hitem⟩

end Session

namespace Opening

theorem firstSession_inOrder (settings : Settings) (playerName : String) (cast : List Character) :
    (firstSession settings playerName cast).InOrder where
  sorted := List.pairwise_singleton _ _
  past := List.forall_mem_singleton.mpr (Int.le_refl 0)
  turn_le := Int.le_max_left 0 _

theorem start_firstSession (o : Opening) (templates : Mapping Template) (settings : Settings) :
    Play.Ensures (o.start templates settings)
      (fun game => ∃ cast : List Character,
        game = ⟨cast.length, firstSession settings o.playerName cast⟩) fun _ => True :=
  .bind (.trivial _) fun cast _ => .pure ⟨cast, rfl⟩

end Opening

/-- A session only moves forward. A move adds entries of the turn that it leaves, none of them
empty, does not change the number of turns, and may end the game; it begins a new turn only if
it is meant to, nothing is waiting, the game is not over and there is a turn left.  So nothing
that a move has put into the queue waits in another turn, and in a game from its opening the
entries are in the order of their turns and not beyond the session's, which stays within the
number of turns, and whatever waits was put into the queue in the turn in which it waits. -/
theorem history_moves_forward :
    (∀ {n : Nat} (rules : Rulebook) (s : Session n) (m : Move),
      Play.Ensures (rules.make s m) (fun t? => s.MovesOn m (t?.getD s)) fun _ => True) ∧
    (∀ {n : Nat} (s t u : Session n) (item : Pending),
      s.Moves t → t.Waits item u → u.turn = s.turn) ∧
    ∀ (o : Opening) (templates : Mapping Template) (settings : Settings),
      Play.Ensures (o.start templates settings)
        (fun game => ∀ t, game.2.Reaches t → t.InOrder ∧ t.maxTurns = settings.maxTurns ∧
          ∀ item ∈ t.pending, ∃ u v, game.2.Reaches u ∧ item ∉ u.pending ∧ u.Moves v ∧
            v.Waits item t ∧ t.turn = u.turn)
        fun _ => True := by
  have houtlive : ∀ {n : Nat} (s t u : Session n) (item : Pending),
      s.Moves t → t.Waits item u → u.turn = s.turn := by
    intro n s t u item hmove hwaits
    exact hwaits.turn_eq.trans (hmove.turn_eq_of_mem hwaits.mem)
  refine ⟨fun rules s m => rules.make_movesOn s m, houtlive, fun o templates settings => ?_⟩
  refine .mono (o.start_firstSession templates settings) ?_
  rintro _ ⟨cast, rfl⟩ t ht
  refine ⟨(Opening.firstSession_inOrder settings o.playerName cast).reaches ht,
    Session.maxTurns_eq_of_reaches ht, fun item hitem => ?_⟩
  obtain ⟨u, v, hu, hnew, hmove, hwaits⟩ := Session.exists_waits rfl ht hitem
  exact ⟨u, v, hu, hnew, hmove, hwaits, houtlive u v t item hmove hwaits⟩

/-- An event that waits for the player. -/
def visitors : Event :=
  { Event.plain "来访" with options := [⟨"开门", "", ""⟩] }

theorem visitors_wait_the_same_evening :
    ∃ t item, evening.Moves t ∧ t.Waits item t ∧ item ∉ evening.pending ∧
      t.turn = evening.turn := by
  have hrun : ((nightRules.make evening (.process visitors "c1" .empty)).run.run
      (.fresh fun _ => 0)).1.toOption.join.map (fun t => t.pending.isEmpty) = some false := by
    decide +kernel
  obtain ⟨t, ht, hpending⟩ := Option.map_eq_some_iff.mp hrun
  have hmake : ((nightRules.make evening (.process visitors "c1" .empty)).run.run
      (.fresh fun _ => 0)).1 = .ok (some t) :=
    Play.eq_ok_of_join ht
  have hmove : evening.Moves t :=
    ⟨nightRules, .process visitors "c1" .empty, _, _, some t, Prod.ext hmake rfl, rfl⟩
  obtain ⟨item, hitem⟩ := List.exists_mem_of_ne_nil t.pending (by simpa using hpending)
  exact ⟨t, item, hmove, .start hitem, by simp [evening],
    history_moves_forward.2.1 evening t t item hmove (.start hitem)⟩

end EventScript
