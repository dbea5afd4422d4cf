/-
Scripts that leave nothing to chance.

Dice are rolled for random numbers, for characters and attributes drawn at random, and for the two
gambles; all of them have to be asked for by name.  Whatever a script evaluates is a piece of its
text, and texts in variables are never evaluated, so a script in whose text the names do not occur
rolls no dice.

* `Quantity.isCertain_read` and `Condition.isCertain_read` — what is read from a text without the
  name has no random number in it, at any depth;
* `Operation.isCertain_apply` — an operation without the name that is no gamble rolls no dice;
* `Script.isCertain_run` — neither does a script, loops included;
* `scripts_without_chance_are_certain` — all of it, for commands, conditions and quantities.
-/
import EventScript.Proofs.Piece
import EventScript.Proofs.Sequence

namespace EventScript

open Chance

variable {n : Nat}

/-! ### Quantities -/

theorem isUnmarked_randomWord : randomWord.IsUnmarked :=
  ⟨by decide, by decide⟩

/-- A text that begins with the name of something random does not lack it. -/
theorem not_isPrefixOf_of_lacks {start t : Text} (h : Text.Lacks randomWord t)
    (hstart : randomWord <:+: start) : start.isPrefixOf t = false := by
  rw [← Bool.not_eq_true, List.isPrefixOf_iff_prefix]
  exact fun hprefix => h (hstart.trans hprefix.isInfix)

theorem not_isPrefixOf_randomCall {t : Text} (h : Text.Lacks randomWord t) :
    (randomWord ++ ['(']).isPrefixOf t = false :=
  not_isPrefixOf_of_lacks h ⟨[], ['('], rfl⟩

namespace Quantity

/-- Is the quantity no random number? -/
def isCertain : Quantity → Bool
  | random .. => false
  | _ => true

theorem isCertain_read {t : Text} (h : Text.Lacks randomWord t) : (read t).isCertain = true := by
  have hplain : ∀ u, (readSimple u).isCertain = true := by
    intro u
    unfold readSimple
    split <;> rfl
  have hcall := not_isPrefixOf_randomCall (h.of_isInfix (Text.isInfix_trim t))
  rw [read]
  simp only [hcall]
  split
  · rfl
  · split
    · rfl
    · split
      · rfl
      · exact hplain _

theorem isCertain_value {q : Quantity} (hq : q.isCertain = true) (w : World n) (subject : Seat n)
    (scope : Scope) : IsCertain (q.value w subject scope) := by
  cases q with
  | random low high => cases hq
  | _ => exact .pure _

end Quantity

theorem isCertain_evaluateQuantity {t : Text} (h : Text.Lacks randomWord t) (w : World n)
    (subject : Seat n) (scope : Scope) : IsCertain (evaluateQuantity w subject scope t) :=
  Quantity.isCertain_value (Quantity.isCertain_read h) w subject scope

/-! ### Parts of predicates -/

/-- What a comparison goes on with is a piece of its text. -/
theorem Comparison.infix_of_readThen? {β : Type} {accept : Text → Option β} {t : Text}
    {c : Comparison} {b : β} (h : readThen? accept t = some (c, b)) :
    ∃ u, u <:+: t ∧ accept u = some b := by
  obtain ⟨c', -, hread⟩ := List.exists_of_findSome?_eq_some h
  obtain ⟨rest, hrest, hread⟩ := Option.bind_eq_some_iff.mp hread
  obtain ⟨b', hb, hpair⟩ := Option.map_eq_some_iff.mp hread
  cases hpair
  refine ⟨Text.trimStart rest, ?_, hb⟩
  exact ((List.dropWhile_suffix _).trans (Text.isSuffix_after? hrest)).isInfix.trans
    (List.dropWhile_suffix _).isInfix

theorem isCertain_of_readComparison? {t : Text} {c : Comparison} {q : Quantity}
    (h : Text.Lacks randomWord t) (hread : readComparison? t = some (c, q)) :
    q.isCertain = true := by
  obtain ⟨⟨c', rest⟩, hrest, hpair⟩ := Option.map_eq_some_iff.mp hread
  cases hpair
  obtain ⟨u, hu, haccept⟩ := Comparison.infix_of_readThen? hrest
  unfold Comparison.oneLine? at haccept
  split at haccept
  · cases haccept
  · cases haccept
    exact Quantity.isCertain_read (h.of_isInfix hu)

theorem infix_of_shortestBody? {β : Type} {accept : Text → Option β} {t body : Text} {b : β}
    (h : shortestBody? accept t = some (body, b)) : ∃ u, u <:+: t ∧ accept u = some b := by
  induction t generalizing body with
  | nil => cases h
  | cons c rest ih =>
    have hrest : rest <:+: c :: rest := (List.suffix_cons c rest).isInfix
    unfold shortestBody? at h
    split at h
    · cases h
    · split at h
      · rename_i b' haccept
        cases h
        exact ⟨rest, hrest, haccept⟩
      · obtain ⟨⟨body', b'⟩, hbody, hpair⟩ := Option.map_eq_some_iff.mp h
        cases hpair
        obtain ⟨u, hu, haccept⟩ := ih hbody
        exact ⟨u, hu.trans hrest, haccept⟩

/-- What brackets are followed by is a piece of the text. -/
theorem infix_of_bracketBody? {β : Type} {accept : Text → Option β} {t body : Text} {b : β}
    (h : bracketBody? accept t = some (body, b)) : ∃ u, u <:+: t ∧ accept u = some b := by
  obtain ⟨k, -, hbody⟩ := List.exists_of_findSome?_eq_some h
  obtain ⟨u, hu, haccept⟩ := infix_of_shortestBody? hbody
  exact ⟨u, hu.trans (List.drop_suffix k t).isInfix, haccept⟩

theorem infix_of_afterBlanks? {mark t rest : Text} (h : afterBlanks? mark t = some rest) :
    rest <:+: t :=
  (Text.isSuffix_after? h).isInfix.trans (List.dropWhile_suffix _).isInfix

/-- A comparison after brackets. -/
theorem isCertain_of_bracketBody? {mark t body : Text} {c : Comparison} {q : Quantity}
    (h : Text.Lacks randomWord t)
    (hread : bracketBody? (fun rest => (afterBlanks? mark rest).bind readComparison?) t =
      some (body, c, q)) : q.isCertain = true := by
  obtain ⟨u, hu, haccept⟩ := infix_of_bracketBody? hread
  obtain ⟨rest, hrest, hcomparison⟩ := Option.bind_eq_some_iff.mp haccept
  exact isCertain_of_readComparison? (h.of_isInfix ((infix_of_afterBlanks? hrest).trans hu))
    hcomparison

theorem infix_of_splitSelector (path : Text) : (splitSelector path).2 <:+: path := by
  have hpath := Text.isInfix_trim path
  unfold splitSelector
  simp only
  split
  · rename_i c rest heq
    split
    · exact hpath
    · have hrest : c :: rest <:+: path.trim := by
        refine ((List.suffix_cons '.' (c :: rest)).trans ?_).isInfix
        rw [← heq]
        exact List.dropWhile_suffix _
      exact ((Text.isInfix_trim _).trans hrest).trans hpath
  · exact hpath

/-! ### Predicates -/

namespace Trait

/-- Does the question compare with no random number? -/
def isCertain : Trait → Bool
  | layers _ _ q | stat _ _ q | fired _ _ q | relation _ _ _ q => q.isCertain
  | _ => true

theorem isCertain_of_read? {t : Text} {trait : Trait} (h : Text.Lacks randomWord t)
    (hread : read? t = some trait) : trait.isCertain = true := by
  obtain ⟨⟨start, go⟩, hform, hread⟩ := List.exists_of_findSome?_eq_some hread
  obtain ⟨rest, hrest, hgo⟩ := Option.bind_eq_some_iff.mp hread
  have h := h.of_isInfix (Text.isSuffix_after? hrest).isInfix
  simp only [forms, List.mem_cons, Prod.mk.injEq, List.not_mem_nil, or_false] at hform
  rcases hform with ⟨-, rfl⟩ | ⟨-, rfl⟩ | ⟨-, rfl⟩ | ⟨-, rfl⟩ | ⟨-, rfl⟩ | ⟨-, rfl⟩ | ⟨-, rfl⟩ |
    ⟨-, rfl⟩
  · obtain ⟨⟨tag, c, q⟩, hbody, rfl⟩ := Option.map_eq_some_iff.mp hgo
    exact isCertain_of_bracketBody? h hbody
  · unfold tagged? at hgo
    split at hgo
    · obtain ⟨tag, -, rfl⟩ := Option.map_eq_some_iff.mp hgo
      rfl
    · obtain ⟨tag, -, rfl⟩ := Option.map_eq_some_iff.mp hgo
      rfl
    · cases hgo
  · unfold attribute? at hgo
    simp only at hgo
    split at hgo
    · cases hgo
    · obtain ⟨⟨c, q⟩, hcomparison, rfl⟩ := Option.map_eq_some_iff.mp hgo
      exact isCertain_of_readComparison? (h.of_isInfix (List.dropWhile_suffix _).isInfix)
        hcomparison
  · obtain ⟨⟨event, c, q⟩, hbody, rfl⟩ := Option.map_eq_some_iff.mp hgo
    exact isCertain_of_bracketBody? h hbody
  · unfold relation? at hgo
    simp only at hgo
    split at hgo
    · rename_i more hmore
      split at hgo
      · cases hgo
      · obtain ⟨kind, -, hkind⟩ := List.exists_of_findSome?_eq_some hgo
        obtain ⟨u, hu, hkind⟩ := Option.bind_eq_some_iff.mp hkind
        obtain ⟨⟨c, q⟩, hcomparison, rfl⟩ := Option.map_eq_some_iff.mp hkind
        have hsuffix : more <:+: rest :=
          (hmore ▸ List.suffix_cons '.' more).isInfix.trans (List.dropWhile_suffix _).isInfix
        exact isCertain_of_readComparison?
          (h.of_isInfix ((Text.isSuffix_after? hu).isInfix.trans hsuffix)) hcomparison
    · cases hgo
  · obtain ⟨⟨same, u⟩, -, hteam⟩ := Option.bind_eq_some_iff.mp hgo
    simp only at hteam
    split at hteam
    · cases hteam
      rfl
    · split at hteam
      · cases hteam
        rfl
      · cases hteam
  · obtain ⟨p, -, rfl⟩ := Option.map_eq_some_iff.mp hgo
    rfl
  · obtain ⟨p, -, rfl⟩ := Option.map_eq_some_iff.mp hgo
    rfl

theorem isCertain_holds {t : Trait} (ht : t.isCertain = true) (w : World n)
    (subject holder : Seat n) (scope : Scope) : IsCertain (t.holds w subject holder scope) := by
  have compare : ∀ (c : Comparison) (k : Int) (q : Quantity), q.isCertain = true →
      IsCertain (do let r ← q.value w subject scope; pure (c.holds k r)) :=
    fun c k q hq => .bind (Quantity.isCertain_value hq w subject scope) fun r => .pure _
  cases t with
  | layers tag c q => exact compare c _ q ht
  | stat name c q => exact compare c _ q ht
  | fired event c q => exact compare c _ q ht
  | relation object kind c q =>
    unfold holds
    simp only
    split
    · exact compare c _ q ht
    · exact .pure _
  | tagged present tag => exact .pure _
  | inTeam expected => exact .pure _
  | template same id => exact .pure _
  | gender same name => exact .pure _

end Trait

namespace Predicate

/-- Does the question neither ask for a random number nor compare with one? -/
def isCertain : Predicate → Bool
  | random .. => false
  | teamSize _ q | variableIs _ _ q => q.isCertain
  | trait _ t => t.isCertain
  | _ => true

theorem isCertain_of_read? {t : Text} {p : Predicate} (h : Text.Lacks randomWord t)
    (hread : read? t = some p) : p.isCertain = true := by
  unfold read? at hread
  rw [Option.orElse_eq_orElse, Option.orElse_eq_or, Option.orElse_eq_or] at hread
  rcases Option.or_eq_some_iff.mp hread with hform | ⟨-, hread⟩
  · obtain ⟨⟨start, go⟩, hmem, hform⟩ := List.exists_of_findSome?_eq_some hform
    obtain ⟨rest, hrest, hgo⟩ := Option.bind_eq_some_iff.mp hform
    have h := h.of_isInfix (Text.isSuffix_after? hrest).isInfix
    simp only [forms, List.mem_cons, Prod.mk.injEq, List.not_mem_nil, or_false] at hmem
    rcases hmem with ⟨-, rfl⟩ | ⟨-, rfl⟩ | ⟨-, rfl⟩ | ⟨-, rfl⟩ | ⟨-, rfl⟩ | ⟨-, rfl⟩ | ⟨-, rfl⟩
    · obtain ⟨x, -, rfl⟩ := Option.map_eq_some_iff.mp hgo
      rfl
    · obtain ⟨x, -, rfl⟩ := Option.map_eq_some_iff.mp hgo
      rfl
    · obtain ⟨x, -, rfl⟩ := Option.map_eq_some_iff.mp hgo
      rfl
    · obtain ⟨x, -, rfl⟩ := Option.map_eq_some_iff.mp hgo
      rfl
    · obtain ⟨⟨c, q⟩, hcomparison, rfl⟩ := Option.map_eq_some_iff.mp hgo
      exact isCertain_of_readComparison? h hcomparison
    · unfold variableSet? at hgo
      simp only at hgo
      split at hgo
      · cases hgo
        rfl
      · cases hgo
    · unfold variableIs? at hgo
      simp only at hgo
      split at hgo
      · cases hgo
      · obtain ⟨⟨c, q⟩, hcomparison, rfl⟩ := Option.map_eq_some_iff.mp hgo
        exact isCertain_of_readComparison? (h.of_isInfix (List.dropWhile_suffix _).isInfix)
          hcomparison
  · rcases Option.or_eq_some_iff.mp hread with hrandom | ⟨-, htrait⟩
    · unfold random? at hrandom
      rw [not_isPrefixOf_randomCall h] at hrandom
      cases hrandom
    · obtain ⟨u, hu, rfl⟩ := Option.map_eq_some_iff.mp htrait
      exact Trait.isCertain_of_read? (h.of_isInfix (infix_of_splitSelector t)) hu

theorem isCertain_holds {p : Predicate} (hp : p.isCertain = true) (w : World n)
    (choice : Option Int) (subject : Seat n) (scope : Scope) :
    IsCertain (p.holds w choice subject scope) := by
  cases p with
  | teamSize c q => exact .bind (Quantity.isCertain_value hp w subject scope) fun r => .pure _
  | variableIs key c q => exact .bind (Quantity.isCertain_value hp w subject scope) fun r => .pure _
  | random low high c q => cases hp
  | trait holder t =>
    cases holder with
    | none => exact Trait.isCertain_holds hp w subject subject scope
    | some key =>
      rw [holds]
      split
      · exact Trait.isCertain_holds hp w subject _ scope
      · exact .pure _
  | chosen c k => exact .pure _
  | month c k => exact .pure _
  | year c k => exact .pure _
  | period same name => exact .pure _
  | variableSet key => exact .pure _
  | impossible => exact .pure _

end Predicate

/-! ### Conditions -/

theorem Chance.IsCertain.anyM {α : Type} {f : α → Chance Bool} (hf : ∀ a, IsCertain (f a))
    (xs : List α) : IsCertain (xs.anyM f) := by
  induction xs with
  | nil => exact .pure _
  | cons x rest ih =>
    refine .bind (hf x) fun b => ?_
    cases b with
    | true => exact .pure _
    | false => exact ih

namespace Condition

/-- Does no predicate of the condition have to do with random numbers? -/
def isCertain : Condition → Bool
  | constant _ => true
  | both a b | either a b => a.isCertain && b.isCertain
  | someone c => c.isCertain
  | predicate p => p.isCertain

theorem isCertain_all {cs : List Condition} (h : ∀ c ∈ cs, c.isCertain = true) :
    (all cs).isCertain = true := by
  induction cs with
  | nil => rfl
  | cons c rest ih =>
    obtain ⟨hc, hrest⟩ := List.forall_mem_cons.mp h
    rw [all, isCertain, hc, ih hrest, Bool.and_self]

theorem isCertain_any {cs : List Condition} (h : ∀ c ∈ cs, c.isCertain = true) :
    (any cs).isCertain = true := by
  induction cs with
  | nil => rfl
  | cons c rest ih =>
    obtain ⟨hc, hrest⟩ := List.forall_mem_cons.mp h
    rw [any, isCertain, hc, ih hrest, Bool.and_self]

/-- What is in the brackets of a clause is a piece of it. -/
theorem infix_of_clause {t inside : Text}
    (h : Clause.read t = .group inside ∨ Clause.read t = .someone inside) : inside <:+: t := by
  unfold Clause.read Clause.readOpen at h
  split at h
  · simp at h
  split at h
  · simp at h
  split at h
  · simp at h
  split at h
  · rename_i hinside
    simp only [Clause.group.injEq, reduceCtorEq, or_false] at h
    exact h ▸ infix_of_unwrap? hinside
  · split at h
    · rename_i rest hrest
      split at h
      · rename_i hinside
        simp only [Clause.someone.injEq, reduceCtorEq, false_or] at h
        exact h ▸ (infix_of_unwrap? hinside).trans (Text.isSuffix_after? hrest).isInfix
      · simp at h
    · split at h <;> simp at h

theorem isCertain_predicate_of_clause {t : Text} {p : Predicate} (h : Text.Lacks randomWord t)
    (hread : Clause.read t = .predicate p) : p.isCertain = true := by
  unfold Clause.read Clause.readOpen at hread
  split at hread
  · cases hread
  split at hread
  · cases hread
  split at hread
  · cases hread
  split at hread
  · cases hread
  · split at hread
    · split at hread <;> cases hread
    · split at hread
      · rename_i hp
        cases hread
        exact Predicate.isCertain_of_read? h hp
      · cases hread

/-- A condition in whose text the name of random numbers does not occur has none. -/
theorem isCertain_read (t : Text) (h : Text.Lacks randomWord t) : (read t).isCertain = true := by
  rw [read_eq]
  refine isCertain_any (List.forall_mem_map.mpr fun part hpart => ?_)
  refine isCertain_all (List.forall_mem_map.mpr fun clause hclause => ?_)
  have hpiece : clause.trim <:+: t :=
    ((Text.isInfix_trim clause).trans (infix_of_mem_splitTop hclause)).trans
      (infix_of_mem_splitTop hpart)
  have hopeners : openers clause.trim ≤ openers t := openers_le_of_sublist hpiece.sublist
  rw [readClause]
  cases hread : Clause.read clause.trim with
  | constant b => rfl
  | group inside =>
    have hlt := Clause.openers_lt (.inl hread)
    exact isCertain_read inside (h.of_isInfix ((infix_of_clause (.inl hread)).trans hpiece))
  | someone inside =>
    have hlt := Clause.openers_lt (.inr hread)
    exact isCertain_read inside (h.of_isInfix ((infix_of_clause (.inr hread)).trans hpiece))
  | predicate p => exact isCertain_predicate_of_clause (h.of_isInfix hpiece) hread
  termination_by openers t
  decreasing_by all_goals omega

theorem isCertain_holds {c : Condition} (hc : c.isCertain = true) (w : World n)
    (choice : Option Int) (subject : Seat n) (scope : Scope) :
    IsCertain (c.holds w choice subject scope) := by
  induction c generalizing subject scope with
  | constant b => exact .pure _
  | both a b iha ihb =>
    obtain ⟨ha, hb⟩ := Bool.and_eq_true_iff.mp hc
    refine .bind (iha ha subject scope) fun first => ?_
    cases first with
    | true => exact ihb hb subject scope
    | false => exact .pure _
  | either a b iha ihb =>
    obtain ⟨ha, hb⟩ := Bool.and_eq_true_iff.mp hc
    refine .bind (iha ha subject scope) fun first => ?_
    cases first with
    | true => exact .pure _
    | false => exact ihb hb subject scope
  | someone c ih => exact .anyM (fun i => ih hc i _) _
  | predicate p => exact Predicate.isCertain_holds hc w choice subject scope

end Condition

theorem isCertain_evaluateCondition {t : Text} (h : Text.Lacks randomWord t) (w : World n)
    (choice : Option Int) (subject : Seat n) (scope : Scope) :
    IsCertain (evaluateCondition w choice subject scope t) :=
  Condition.isCertain_holds (Condition.isCertain_read t h) w choice subject scope

/-! ### Operations -/

namespace Operation

theorem isCertain_attributeFor {name : Text} (h : Text.Lacks randomWord name) :
    IsCertain (attributeFor name) := by
  unfold attributeFor
  split
  · rename_i heq
    exact absurd (heq ▸ List.infix_rfl) h
  · exact .pure _

theorem isCertain_feelForEach {value : Text} (h : Text.Lacks randomWord value)
    (subject first : Seat n) (kind : Text) (rest : List (Seat n)) (p : Progress n) :
    IsCertain (feelForEach subject first kind value rest p) := by
  induction rest generalizing p with
  | nil => exact .pure p
  | cons second rest ih => exact .bind (isCertain_evaluateQuantity h _ _ _) fun amount => ih _

theorem isCertain_feelInGroup {value : Text} (h : Text.Lacks randomWord value)
    (subject : Seat n) (kind : Text) (members : List (Seat n)) (p : Progress n) :
    IsCertain (feelInGroup subject kind value members p) := by
  induction members generalizing p with
  | nil => exact .pure p
  | cons first rest ih =>
    exact .bind (isCertain_feelForEach h subject first kind rest p) fun q => ih q

theorem isCertain_membersWhere {condition : Text} (h : Text.Lacks randomWord condition)
    (p : Progress n) (rs : List Reference) : IsCertain (membersWhere p condition rs) := by
  induction rs with
  | nil => exact .pure _
  | cons r rest ih =>
    have hfits : IsCertain (fits p condition r) := by
      unfold fits
      split
      · exact isCertain_evaluateCondition h _ _ _ _
      · exact .pure _
    exact .bind hfits fun keep => .bind ih fun others => .pure _

theorem isCertain_applyForEach {loop : Seat n → Progress n → Chance (Progress n)}
    (hloop : ∀ i q, IsCertain (loop i q)) (rs : List Reference) (p : Progress n) :
    IsCertain (applyForEach loop rs p) := by
  induction rs generalizing p with
  | nil => exact .pure p
  | cons r rest ih =>
    have hr : IsCertain (applyFor loop r p) := by
      unfold applyFor
      split
      · exact hloop _ p
      · exact .pure p
    exact .bind hr fun q => ih q

theorem isCertain_assignPlain {value : Text} (h : Text.Lacks randomWord value) (subject : Seat n)
    (type : Option VariableType) (key : Text) (p : Progress n) :
    IsCertain (assignPlain subject type key value p) := by
  unfold assignPlain
  split
  · exact .bind (isCertain_evaluateQuantity h _ _ _) fun k => .pure _
  · split
    · exact .pure _
    · split
      · exact .pure _
      · exact .pure _

/-- Characters are only drawn by forms whose name says so. -/
theorem isCertain_applyAssign {value : Text} (h : Text.Lacks randomWord value) (subject : Seat n)
    (type : Option VariableType) (key : Text) (p : Progress n) :
    IsCertain (applyAssign subject type key value p) := by
  have hmate : beginsWith "获取随机队友()" value = false :=
    not_isPrefixOf_of_lacks h ⟨"获取".toList, "队友()".toList, rfl⟩
  have hanyone : beginsWith "获取随机全员角色()" value = false :=
    not_isPrefixOf_of_lacks h ⟨"获取".toList, "全员角色()".toList, rfl⟩
  have hmember : beginsWith "列表随机取值" value = false :=
    not_isPrefixOf_of_lacks h ⟨"列表".toList, "取值".toList, rfl⟩
  unfold applyAssign
  simp only [hmate, hanyone, hmember, Bool.false_eq_true, if_false]
  split
  · exact .pure _
  · split
    · exact .pure _
    · exact isCertain_assignPlain h subject type key p

theorem isCertain_applyCompute {value : Text} (h : Text.Lacks randomWord value) (subject : Seat n)
    (key : Text) (negative : Bool) (p : Progress n) :
    IsCertain (applyCompute subject key negative value p) := by
  unfold applyCompute
  split
  · exact .bind (isCertain_evaluateQuantity h _ _ _) fun _ => .pure _
  · exact .pure _

/-- An operation that is no gamble, in whose texts the name does not occur, rolls no dice. -/
theorem isCertain_apply {op : Operation} (hop : op.isGamble = false) (h : op.Lacks randomWord)
    (subject actor : Seat n) {loop : Seat n → Progress n → Chance (Progress n)}
    (hloop : ∀ i q, IsCertain (loop i q)) (p : Progress n) :
    IsCertain (op.apply subject actor loop p) := by
  cases op with
  | changeAttribute name value =>
    refine .bind (isCertain_evaluateQuantity (h value (by simp [texts])) _ _ _) fun amount => ?_
    exact .bind (isCertain_attributeFor (h name (by simp [texts]))) fun name => .pure _
  | changeRelation kind holder object value =>
    rw [apply]
    split
    · exact .bind (isCertain_evaluateQuantity (h value (by simp [texts])) _ _ _) fun _ => .pure _
    · exact .pure _
  | changePlayerRelation kind value =>
    rw [apply]
    split
    · exact .bind (isCertain_evaluateQuantity (h value (by simp [texts])) _ _ _) fun _ => .pure _
    · exact .pure _
  | changeMutualRelation kind first second value =>
    rw [apply]
    split
    · exact .bind (isCertain_evaluateQuantity (h value (by simp [texts])) _ _ _) fun _ => .pure _
    · exact .pure _
  | changeGroupRelation kind list value =>
    rw [apply]
    split
    · exact .pure _
    · split
      · exact .pure _
      · exact .map _ (isCertain_feelInGroup (h value (by simp [texts])) _ _ _ _)
  | grantTag tag layers =>
    exact .bind (isCertain_evaluateQuantity (h layers (by simp [texts])) _ _ _) fun _ => .pure _
  | adjustTag tag delta =>
    exact .bind (isCertain_evaluateQuantity (h delta (by simp [texts])) _ _ _) fun _ => .pure _
  | removeTag tag =>
    rw [apply]
    split
    · exact .pure _
    · exact .pure _
  | assign type key value => exact isCertain_applyAssign (h value (by simp [texts])) _ _ _ _
  | compute key negative value => exact isCertain_applyCompute (h value (by simp [texts])) _ _ _ _
  | jump event pause => exact .pure _
  | chanceJump chance event otherwise => cases hop
  | filterList list condition =>
    rw [apply]
    split
    · exact .pure _
    · exact .bind (isCertain_membersWhere (h condition (by simp [texts])) _ _) fun _ => .pure _
  | excludeFromList list target =>
    rw [apply]
    split
    · exact .pure _
    · exact .pure _
    · exact .pure _
  | truncateList list count =>
    rw [apply]
    split
    · exact .pure _
    · exact .bind (isCertain_evaluateQuantity (h count (by simp [texts])) _ _ _) fun _ => .pure _
  | appendToList list target =>
    rw [apply]
    split
    · exact .pure _
    · exact .pure _
    · exact .pure _
  | forEach list command =>
    rw [apply]
    split
    · exact .pure _
    · exact .bind (isCertain_applyForEach hloop _ _) fun _ => .pure _
  | joinTeam target =>
    rw [apply]
    split
    · exact .pure _
    · exact .pure _
  | pair first second => cases hop
  | unknown verb => exact .pure _
  | malformed verb => exact .pure _

end Operation

/-! ### Scripts -/

/-- The names of everything that rolls dice. -/
def randomWords : List Text :=
  randomWord :: Operation.gambles

theorem isUnmarked_of_mem_randomWords : ∀ word ∈ randomWords, word.IsUnmarked :=
  List.forall_mem_cons.mpr ⟨isUnmarked_randomWord, Operation.isUnmarked_of_mem_gambles⟩

theorem Statement.isCertain_attempt {raw : Text}
    (h : ∀ word ∈ randomWords, Text.Lacks word raw) (subject : Seat n)
    {loop : Seat n → Progress n → Chance (Progress n)} (hloop : ∀ i q, IsCertain (loop i q))
    (p : Progress n) : IsCertain ((Statement.read raw).attempt subject loop p) := by
  obtain ⟨hrandom, hgambles⟩ := List.forall_mem_cons.mp h
  obtain ⟨hguard, hoperation⟩ := Statement.lacks_read isUnmarked_randomWord hrandom
  have hpasses : IsCertain ((Statement.read raw).passes subject p) := by
    unfold Statement.passes
    split
    · exact .pure _
    · rename_i guard heq
      exact isCertain_evaluateCondition (hguard guard heq) _ _ _ _
  refine .bind hpasses fun passes => ?_
  split
  · split
    · exact Operation.isCertain_apply (Statement.isGamble_read hgambles) hoperation subject _
        hloop p
    · exact .pure _
  · exact .pure _

theorem Script.isCertain_run {script : List Step}
    (h : ∀ s ∈ script, ∀ (subject : Seat n) (p : Progress n), IsCertain (Step.attempt s subject p))
    (subject : Seat n) (p : Progress n) : IsCertain (Script.run script subject p) := by
  induction script generalizing p with
  | nil =>
    rw [Script.run]
    exact .pure p
  | cons s rest ih =>
    obtain ⟨hs, hrest⟩ := List.forall_mem_cons.mp h
    rw [Script.run]
    exact .bind (hs subject p) fun a => ih hrest _

/-- A script without the names rolls no dice, and neither do the scripts inside of it. -/
theorem Script.isCertain_run_read (command : Text)
    (h : ∀ word ∈ randomWords, Text.Lacks word command) (subject : Seat n) (p : Progress n) :
    IsCertain (Script.run (Script.read command) subject p) := by
  rw [Script.read_eq]
  refine Script.isCertain_run (List.forall_mem_map.mpr fun raw hraw i q => ?_) subject p
  have hpiece : raw <:+: command := infix_of_mem_map_trim (List.mem_filter.mp hraw).1
  have hopeners : openers raw ≤ openers command := openers_le_of_sublist hpiece.sublist
  have hwords : ∀ word ∈ randomWords, Text.Lacks word raw := fun word hword =>
    (h word hword).of_isInfix hpiece
  rw [Step.read]
  split
  · rename_i list body hbody
    rw [Step.attempt]
    refine Statement.isCertain_attempt hwords i (fun j r => ?_) q
    -- what a loop carries out is a piece of the text as well
    have hlt := Statement.openers_body_lt hbody
    refine Script.isCertain_run_read body (fun word hword => ?_) j r
    have hlacks := (Statement.lacks_read (isUnmarked_of_mem_randomWords word hword)
      (hwords word hword)).2
    rw [hbody] at hlacks
    exact hlacks body (by simp [Operation.texts])
  · rw [Step.attempt]
    refine Statement.isCertain_attempt hwords i (fun j r => ?_) q
    rw [Script.run]
    exact .pure r
  termination_by openers command
  decreasing_by omega

/-- Scripts that do not ask for chance leave nothing to it.  A command in whose text neither
`随机` nor the names of the two gambles occur rolls no dice and does the same whatever the dice
are, and so do a condition and a quantity in whose text `随机` does not occur; whatever texts the
variables hold, they are not evaluated. -/
theorem scripts_without_chance_are_certain (w : World n) (subject : Seat n) (scope : Scope) :
    (∀ command : Text, Text.Lacks "随机".toList command → Text.Lacks "概率跳转".toList command →
      Text.Lacks "同房".toList command → IsCertain (execute w subject scope command)) ∧
    (∀ (choice : Option Int) (t : Text), Text.Lacks "随机".toList t →
      IsCertain (evaluateCondition w choice subject scope t)) ∧
    ∀ t : Text, Text.Lacks "随机".toList t → IsCertain (evaluateQuantity w subject scope t) := by
  refine ⟨fun command hrandom hjump hpair => ?_, fun choice t h => ?_, fun t h => ?_⟩
  · refine Script.isCertain_run_read command (fun word hword => ?_) subject _
    simp only [randomWords, Operation.gambles, List.mem_cons, List.not_mem_nil, or_false] at hword
    rcases hword with rfl | rfl | rfl
    · exact hrandom
    · exact hjump
    · exact hpair
  · exact isCertain_evaluateCondition h w choice subject scope
  · exact isCertain_evaluateQuantity h w subject scope

/-- Variables among which a text looks like dice. -/
def storedDice : Scope :=
  ⟨[("骰子", .text "随机(1, 6)")]⟩

/-- The text in the variable is not evaluated, wherever it is used. -/
theorem stored_dice_are_not_rolled :
    IsCertain (execute trainerWorld 0 storedDice
      "设置变量 数字 点数 = 变量.骰子; 属性变更 体力 点数 若 变量.骰子 == 0".toList) ∧
    IsCertain (evaluateCondition trainerWorld none 0 storedDice "变量.骰子 > 0".toList) ∧
    IsCertain (evaluateQuantity trainerWorld 0 storedDice "变量.骰子".toList) := by
  obtain ⟨hcommand, hcondition, hquantity⟩ :=
    scripts_without_chance_are_certain trainerWorld 0 storedDice
  exact ⟨hcommand _ (by decide) (by decide) (by decide), hcondition none _ (by decide),
    hquantity _ (by decide)⟩

end EventScript
