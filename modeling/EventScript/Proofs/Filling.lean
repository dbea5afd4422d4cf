/-
How filling a pattern can fail.

Only the pattern itself can be at fault: `Pattern.isFault_of_fill` says that filling fails
with none but the failures of patterns.
-/
import EventScript.Text.Pattern

namespace EventScript

namespace Pattern

variable {α β : Type}

/-- The failures of patterns. -/
def IsFault : Failure → Prop
  | .badText => True
  | .unknownSlot _ => True
  | .noPosition => True
  | .noMember => True
  | .unsuitable => True
  | _ => False

/-- If a result is a failure, it is one of patterns. -/
def IsSound (r : Except Failure α) : Prop :=
  ∀ f, r = .error f → IsFault f

theorem IsSound.ok (a : α) : IsSound (.ok a : Except Failure α) := by
  rintro f ⟨⟩

theorem IsSound.error {f : Failure} (h : IsFault f) : IsSound (.error f : Except Failure α) := by
  rintro _ ⟨⟩
  exact h

theorem IsSound.bind {r : Except Failure α} {g : α → Except Failure β} (hr : IsSound r)
    (hg : ∀ a, IsSound (g a)) : IsSound (r >>= g) := by
  cases r with
  | ok a => exact hg a
  | error f => exact .error (hr f rfl)

theorem IsSound.map {r : Except Failure α} (g : α → β) (hr : IsSound r) : IsSound (g <$> r) := by
  cases r with
  | ok a => exact .ok (g a)
  | error f => exact .error (hr f rfl)

theorem IsSound.ite {c : Prop} [Decidable c] {r r' : Except Failure α} (hr : IsSound r)
    (hr' : IsSound r') : IsSound (if c then r else r') := by
  split
  · exact hr
  · exact hr'

theorem isSound_formatAs (spec t : Text) : IsSound (formatAs spec t) := by
  unfold formatAs
  exact .ite (.error trivial) (.ok _)

theorem isSound_characterAt (t position : Text) : IsSound (characterAt t position) := by
  unfold characterAt
  split
  · exact .error trivial
  · split
    · split
      · exact .ok _
      · exact .error trivial
    · exact .error trivial

theorem isSound_descend (t path : Text) : IsSound (descend t path) := by
  fun_induction descend t path with
  | case1 t => exact .ok t
  | case2 t rest h => exact .error trivial
  | case3 t rest head more h f hf => exact .error (isSound_characterAt _ _ f hf)
  | case4 t rest head more h c hc hlt ih => exact ih
  | case5 t c rest =>
    refine .error ?_
    split
    · trivial
    · trivial
  | case6 => exact .error trivial

theorem isSound_supply (name path : Text) : IsSound (supply name path) := by
  unfold supply
  simp only
  split
  · exact .error trivial
  · split
    · exact .error trivial
    · exact isSound_descend _ _

theorem isSound_convert (conversion : Option Char) (t : Text) : IsSound (convert conversion t) := by
  unfold convert
  split
  · exact .ok _
  · exact .ok _
  · exact .ok _
  · exact .ok _
  · exact .error trivial

variable {expand : Text → Except Failure Text}

theorem isSound_fillSlot (hexpand : ∀ t, IsSound (expand t)) (name : Text) (r : Request) :
    IsSound (fillSlot expand name r) := by
  refine .bind (isSound_supply _ _) fun part => .bind (isSound_convert _ _) fun converted => ?_
  simp only
  split
  · exact .bind (hexpand _) fun format => isSound_formatAs _ _
  · exact isSound_formatAs _ _

theorem isSound_fillWith (hexpand : ∀ t, IsSound (expand t)) (name t : Text) :
    IsSound (fillWith expand name t) := by
  fun_induction fillWith expand name t with
  | case1 => exact .ok _
  | case2 rest ih => exact .map _ ih
  | case3 rest ih => exact .map _ ih
  | case4 => exact .error trivial
  | case5 => exact .error trivial
  | case6 rest _ r more h hlt ih =>
    exact .bind (isSound_fillSlot hexpand _ _) fun filled => .bind ih fun others => .ok _
  | case7 c rest _ _ _ _ ih => exact .map _ ih

/-- Filling a pattern fails only with the failures of patterns. -/
theorem isFault_of_fill {pattern name : String} {f : Failure} (h : fill pattern name = .error f) :
    IsFault f :=
  have hnested : ∀ _ : Text, IsSound (.error .badText : Except Failure Text) :=
    fun _ => .error trivial
  have hinner : ∀ t, IsSound (fillWith (fun _ => .error .badText) name.toList t) :=
    isSound_fillWith hnested name.toList
  IsSound.map _ (isSound_fillWith hinner name.toList pattern.toList) f h

end Pattern

end EventScript
