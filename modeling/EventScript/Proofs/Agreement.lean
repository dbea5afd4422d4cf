/-
Accessors in conditions and in quantities.

An accessor may stand in a quantity and, compared with another quantity, in a condition.  The
two are evaluated apart from each other, and both come down to what one character reads off
another, `Reading.seen`:

* `evaluateCondition_comparison` — a condition compares what the acting character reads;
* `evaluateQuantity_text` — a quantity is what the character of the selector reads off itself;
* `conditions_read_what_quantities_read` — hence both give the same number and roll the same
  dice, but for relations of somebody else to `当前角色`, where a quantity takes the word for
  the other one.
-/
import EventScript.Proofs.Comparison

namespace EventScript

variable {n : Nat}

/-! ### What is read -/

namespace Reading

variable (w : World n)

/-- The number that one character reads off another, if the reading is about somebody. -/
def seen (viewer holder : Seat n) (scope : Scope) : Reading → Option Int
  | stat name => some (((w.character holder).attribute? (String.ofList name)).getD 0)
  | layers tag => some ((w.character holder).tagLayers (String.ofList tag))
  | relation object kind =>
    (w.objectId? viewer scope object).map fun id => ((w.character holder).relation id).score kind

/-- A quantity is what a character reads off itself. -/
theorem value_eq (holder : Seat n) (scope : Scope) (r : Reading) :
    r.value w holder scope = (r.seen w holder holder scope).getD 0 := by
  cases r with
  | stat name => rfl
  | layers tag => rfl
  | relation object kind =>
    rw [value, seen]
    cases w.objectId? holder scope object <;> rfl

/-- A trait is about what the acting character reads off the other one. -/
theorem holds_compared (subject holder : Seat n) (scope : Scope) (r : Reading) (c : Comparison)
    (q : Quantity) {k : Int} (hk : r.seen w subject holder scope = some k) :
    (r.compared c q).holds w subject holder scope = (do
      let other ← q.value w subject scope
      pure (c.holds k other)) := by
  cases r with
  | stat name =>
    obtain rfl := Option.some.inj hk
    rfl
  | layers tag =>
    obtain rfl := Option.some.inj hk
    rfl
  | relation object kind =>
    obtain ⟨id, hid, rfl⟩ := Option.map_eq_some_iff.mp hk
    rw [compared, Trait.holds]
    simp only [hid]

end Reading

/-- The seat of the character that an accessor is read off. -/
def Accessor.seat? (w : World n) (subject : Seat n) (scope : Scope) (a : Accessor) :
    Option (Seat n) :=
  match a.holder with
  | none => some subject
  | some key => w.resolve? subject scope key

/-- What an accessor stands for is what that character reads off itself. -/
theorem Accessor.value_eq (w : World n) (subject : Seat n) (scope : Scope) (a : Accessor) :
    a.value w subject scope =
      ((a.seat? w subject scope).bind fun holder => a.reading.seen w holder holder scope).getD 0 := by
  obtain ⟨holder, reading⟩ := a
  cases holder with
  | none => exact reading.value_eq w subject scope
  | some key =>
    cases hseat : w.resolve? subject scope key with
    | none =>
      simp only [Accessor.value, Accessor.seat?, hseat]
      rfl
    | some seat =>
      simp only [Accessor.value, Accessor.seat?, hseat]
      exact reading.value_eq w seat scope

/-- What a key means depends on who uses it only if it is the word for the acting character. -/
theorem World.objectId?_eq (w : World n) {key : Text} (h : key.trim ≠ "当前角色".toList)
    (i j : Seat n) (scope : Scope) : w.objectId? i scope key = w.objectId? j scope key := by
  have hresolve : w.resolve? i scope key = w.resolve? j scope key := by
    rw [resolve?, resolve?]
    simp only [h, if_false]
  rw [objectId?, objectId?, hresolve]

theorem World.objectId?_self (w : World n) (i : Seat n) (scope : Scope) :
    w.objectId? i scope "当前角色".toList = some (w.character i).id :=
  rfl

section

variable {w : World n} {subject holder : Seat n} {scope : Scope} {a : Accessor}

/-- A condition compares what the acting character reads off the other one. -/
theorem evaluateCondition_comparison (ha : a.IsPlain)
    (hholder : a.seat? w subject scope = some holder) {k : Int}
    (hk : a.reading.seen w subject holder scope = some k) (choice : Option Int) (c : Comparison)
    {t : Text} (hline : '\n' ∉ t) (ht : t.trim ≠ []) (hor : topOccurrences ['|', '|'] t = [])
    (hand : topOccurrences ['&', '&'] t = []) :
    evaluateCondition w choice subject scope (a.text ++ c.against t) = (do
      let other ← evaluateQuantity w subject scope t
      pure (c.holds k other)) := by
  rw [evaluateCondition_of_no_marks w choice subject scope
    (topOccurrences_comparison ha.isNamed (.inl rfl) hor)
    (topOccurrences_comparison ha.isNamed (.inr rfl) hand),
    Condition.readClause_comparison ha hline ht]
  show Predicate.holds w choice subject scope (.trait a.holder _) = _
  rw [evaluateQuantity, ← Reading.holds_compared w subject holder scope a.reading c _ hk]
  obtain ⟨key?, reading⟩ := a
  cases key? with
  | none =>
    obtain rfl := Option.some.inj hholder
    rfl
  | some key =>
    have hkey : w.resolve? subject scope key = some holder := hholder
    rw [Predicate.holds, hkey]

/-- A quantity is what the other one reads off itself. -/
theorem evaluateQuantity_text (ha : a.IsPlain) (hholder : a.seat? w subject scope = some holder) :
    evaluateQuantity w subject scope a.text =
      pure ((a.reading.seen w holder holder scope).getD 0) := by
  rw [evaluateQuantity, Quantity.read_text ha.isNamed, Quantity.value, Accessor.value_eq, hholder]
  rfl

/-- The acting character and the other one read the same, but for relations to `当前角色`. -/
theorem Reading.seen_eq (w : World n) (scope : Scope) {r : Reading} (hr : r.word.IsWord)
    (h : holder = subject ∨ ∀ kind, r ≠ .relation "当前角色".toList kind) :
    r.seen w subject holder scope = r.seen w holder holder scope := by
  rcases h with rfl | h
  · rfl
  · cases r with
    | stat name => rfl
    | layers tag => rfl
    | relation object kind =>
      have hobject : object.IsWord := hr
      have hself : object.trim ≠ "当前角色".toList := by
        rw [hobject.trim_eq]
        rintro rfl
        exact h kind rfl
      rw [seen, seen, w.objectId?_eq hself subject holder]

end

/-- A condition that compares an accessor reads the same number as a quantity, and rolls the same
dice, unless the accessor asks how somebody else stands to `当前角色`.  Of such a relation the
condition reads the score toward the acting character, and the quantity the score of the other
one toward itself. -/
theorem conditions_read_what_quantities_read (w : World n) (choice : Option Int)
    (subject holder : Seat n) (scope : Scope) (a : Accessor) (c : Comparison) (t : Text)
    (ha : a.IsPlain) (hholder : a.seat? w subject scope = some holder)
    (hobject : ∀ object kind, a.reading = .relation object kind →
      w.objectId? subject scope object ≠ none)
    (hline : '\n' ∉ t) (ht : t.trim ≠ []) (hor : topOccurrences ['|', '|'] t = [])
    (hand : topOccurrences ['&', '&'] t = []) :
    ((holder = subject ∨ ∀ kind, a.reading ≠ .relation "当前角色".toList kind) →
      evaluateCondition w choice subject scope (a.text ++ c.against t) = (do
        let k ← evaluateQuantity w subject scope a.text
        let other ← evaluateQuantity w subject scope t
        pure (c.holds k other))) ∧
    ∀ kind, a.reading = .relation "当前角色".toList kind →
      evaluateCondition w choice subject scope (a.text ++ c.against t) = (do
        let other ← evaluateQuantity w subject scope t
        pure (c.holds (((w.character holder).relation (w.character subject).id).score kind) other)) ∧
      evaluateQuantity w subject scope a.text =
        pure (((w.character holder).relation (w.character holder).id).score kind) := by
  constructor
  · intro hsame
    obtain ⟨k, hk⟩ : ∃ k, a.reading.seen w subject holder scope = some k := by
      cases hreading : a.reading with
      | stat name => exact ⟨_, rfl⟩
      | layers tag => exact ⟨_, rfl⟩
      | relation object kind =>
        obtain ⟨id, hid⟩ := Option.ne_none_iff_exists'.mp (hobject object kind hreading)
        exact ⟨_, Option.map_eq_some_iff.mpr ⟨id, hid, rfl⟩⟩
    rw [evaluateCondition_comparison ha hholder hk choice c hline ht hor hand,
      evaluateQuantity_text ha hholder, ← Reading.seen_eq w scope ha.word hsame, hk]
    rfl
  · intro kind hreading
    constructor
    · refine evaluateCondition_comparison ha hholder ?_ choice c hline ht hor hand
      rw [hreading, Reading.seen, w.objectId?_self]
      rfl
    · rw [evaluateQuantity_text ha hholder, hreading, Reading.seen, w.objectId?_self]
      rfl

instance (a : Accessor) : Decidable a.IsPlain :=
  decidable_of_iff (a.reading.word.IsWord ∧ (∀ key ∈ a.holder, key.IsWord) ∧
      (∀ key ∈ a.holder, key ∉ expressionHeads) ∧ ∀ key ∈ a.holder, ¬ Clause.someoneWord <+: key)
    ⟨fun h => ⟨h.1, h.2.1, h.2.2.1, h.2.2.2⟩,
      fun h => ⟨h.word, h.holder, h.holder_notMem, h.holder_not_someone⟩⟩

instance (a : Accessor) : Decidable a.IsNamed :=
  decidable_of_iff (a.reading.word.IsWord ∧ (∀ key ∈ a.holder, key.IsWord) ∧
      ∀ key ∈ a.holder, key ∉ expressionHeads)
    ⟨fun h => ⟨h.1, h.2.1, h.2.2⟩, fun h => ⟨h.word, h.holder, h.holder_notMem⟩⟩

/-- The world of a trainer and of a companion who has become a friend. -/
def friendWorld : World 2 :=
  ⟨#v[.plain "p1" "训练员" "甲",
    { Character.plain "c1" "特别周" "特别周" with relations := ⟨[("p1", ⟨12, 0⟩)]⟩ }], 1,
    Settings.standard⟩

/-- How the companion stands to the acting character. -/
def friendship : Accessor :=
  ⟨some "特别周".toList, .relation "当前角色".toList .friendship⟩

/-- How the companion stands to the player. -/
def playerFriendship : Accessor :=
  ⟨some "特别周".toList, .relation "玩家".toList .friendship⟩

example : friendship.text = "特别周.关系.当前角色.友情".toList := by decide

/-- For a quantity the companion stands to itself, for a condition to the trainer; about anybody
else the two agree. -/
theorem friendship_is_not_itself :
    friendship.IsPlain ∧ friendship.seat? friendWorld 0 .empty = some 1 ∧
    evaluateCondition friendWorld none 0 .empty
      (friendship.text ++ Comparison.eq.against friendship.text) = pure false ∧
    evaluateCondition friendWorld none 0 .empty
      (playerFriendship.text ++ Comparison.eq.against "随机(1, 20)".toList) = (do
        let k ← evaluateQuantity friendWorld 0 .empty playerFriendship.text
        let other ← evaluateQuantity friendWorld 0 .empty "随机(1, 20)".toList
        pure (Comparison.eq.holds k other)) := by
  have hplain : friendship.IsPlain := by decide +kernel
  have hplayer : playerFriendship.IsPlain := by decide +kernel
  have hobject : ∀ object kind, friendship.reading = .relation object kind →
      friendWorld.objectId? 0 .empty object ≠ none := by
    intro object kind h
    cases h
    decide
  have hobject' : ∀ object kind, playerFriendship.reading = .relation object kind →
      friendWorld.objectId? 0 .empty object ≠ none := by
    intro object kind h
    cases h
    decide
  have hdiffers : ∀ kind, playerFriendship.reading ≠ .relation "当前角色".toList kind := by
    intro kind h
    cases h
  obtain ⟨-, hself⟩ := conditions_read_what_quantities_read friendWorld none 0 1 .empty friendship
    .eq friendship.text hplain rfl hobject (by decide) (by decide) (by decide) (by decide)
  obtain ⟨hagree, -⟩ := conditions_read_what_quantities_read friendWorld none 0 1 .empty
    playerFriendship .eq "随机(1, 20)".toList hplayer rfl hobject' (by decide) (by decide) (by decide)
    (by decide)
  obtain ⟨hcondition, hquantity⟩ := hself .friendship rfl
  refine ⟨hplain, rfl, hcondition.trans ?_, hagree (.inr hdiffers)⟩
  rw [hquantity]
  rfl

end EventScript
