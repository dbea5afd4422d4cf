/-
Mappings from names to values that remember the order of their keys.

A key keeps the position at which it was first put; putting it again changes its value
in place.  The two views of a mapping are `get?` and `keys`:

* `mem_of_get?` and `get?_of_mem` — a lookup finds the entry with the key;
* `get?_put_self` and `get?_put_of_ne` — what a lookup finds after `put`;
* `put_put` — putting a key twice is putting it once;
* `keys_put` — a new key comes last, a known key stays where it was;
* `keys_ofList`, `get?_ofList` — of the pairs of a list with one key, the first gives the
  position and the last the value;
* `merge_ofList` — merging mappings is putting their lists together.
-/

namespace EventScript

/-- A mapping from names to values, in the order of first insertion. -/
structure Mapping (α : Type) where
  entries : List (String × α)
  deriving Repr, DecidableEq

namespace Mapping

variable {α β : Type}

/-- The mapping without keys. -/
def empty : Mapping α := ⟨[]⟩

instance : Inhabited (Mapping α) := ⟨empty⟩

/-- The value of a key in a list of pairs. -/
def lookup (k : String) : List (String × α) → Option α
  | [] => none
  | (k', v) :: rest => if k' = k then some v else lookup k rest

/-- The value of a key. -/
def get? (m : Mapping α) (k : String) : Option α :=
  lookup k m.entries

/-- The value of a key, or a default. -/
def getD (m : Mapping α) (k : String) (default : α) : α :=
  (m.get? k).getD default

/-- Does the mapping have the key? -/
def contains (m : Mapping α) (k : String) : Bool :=
  (m.get? k).isSome

/-- The keys in order. -/
def keys (m : Mapping α) : List String :=
  m.entries.map Prod.fst

/-- The values in the order of their keys. -/
def values (m : Mapping α) : List α :=
  m.entries.map Prod.snd

/-- Puts a value into a list of pairs: in place if the key is there, else at the end. -/
def insertPair (k : String) (v : α) : List (String × α) → List (String × α)
  | [] => [(k, v)]
  | (k', v') :: rest => if k' = k then (k', v) :: rest else (k', v') :: insertPair k v rest

/-- Gives a key a value. -/
def put (m : Mapping α) (k : String) (v : α) : Mapping α :=
  ⟨insertPair k v m.entries⟩

/-- The mapping of a list of pairs: of two pairs with one key, the first gives the
position and the last the value. -/
def ofList (pairs : List (String × α)) : Mapping α :=
  pairs.foldl (fun m p => m.put p.1 p.2) empty

/-- Puts all entries of a second mapping into a first. -/
def merge (m other : Mapping α) : Mapping α :=
  other.entries.foldl (fun m p => m.put p.1 p.2) m

/-- Changes every value. -/
def map (f : α → β) (m : Mapping α) : Mapping β :=
  ⟨m.entries.map fun p => (p.1, f p.2)⟩

/-! ### Laws -/

theorem lookup_of_notMem {k : String} {l : List (String × α)} (h : k ∉ l.map Prod.fst) :
    lookup k l = none := by
  induction l with
  | nil => rfl
  | cons p rest ih =>
    rw [List.map_cons, List.mem_cons, not_or] at h
    rw [lookup, if_neg (Ne.symm h.1), ih h.2]

theorem get?_of_notMem {m : Mapping α} {k : String} (h : k ∉ m.keys) : m.get? k = none :=
  lookup_of_notMem h

theorem mem_of_get? {m : Mapping α} {k : String} {v : α} (h : m.get? k = some v) :
    (k, v) ∈ m.entries := by
  have key : ∀ l : List (String × α), lookup k l = some v → (k, v) ∈ l := by
    intro l hl
    induction l with
    | nil => cases hl
    | cons p rest ih =>
      by_cases hp : p.1 = k
      · rw [lookup, if_pos hp, Option.some_inj] at hl
        exact List.mem_cons.mpr (.inl (Prod.ext hp.symm hl.symm))
      · rw [lookup, if_neg hp] at hl
        exact List.mem_cons_of_mem p (ih hl)
  exact key m.entries h

theorem get?_of_mem {m : Mapping α} (hm : m.keys.Nodup) {k : String} {v : α}
    (h : (k, v) ∈ m.entries) : m.get? k = some v := by
  have key : ∀ l : List (String × α), (l.map Prod.fst).Nodup → (k, v) ∈ l →
      lookup k l = some v := by
    intro l hl hmem
    induction l with
    | nil => cases hmem
    | cons p rest ih =>
      obtain ⟨hp, hrest⟩ := List.nodup_cons.mp hl
      rcases List.mem_cons.mp hmem with rfl | hmem
      · rw [lookup, if_pos rfl]
      · have hne : p.1 ≠ k := fun heq => hp (heq ▸ List.mem_map_of_mem hmem)
        rw [lookup, if_neg hne, ih hrest hmem]
  exact key m.entries hm h

theorem lookup_insertPair_self (k : String) (v : α) (l : List (String × α)) :
    lookup k (insertPair k v l) = some v := by
  induction l with
  | nil => simp [insertPair, lookup]
  | cons p rest ih =>
    by_cases h : p.1 = k
    · simp [insertPair, lookup, h]
    · simp [insertPair, lookup, h, ih]

theorem lookup_insertPair_of_ne {k k' : String} (h : k ≠ k') (v : α) (l : List (String × α)) :
    lookup k' (insertPair k v l) = lookup k' l := by
  induction l with
  | nil => simp [insertPair, lookup, h]
  | cons p rest ih =>
    by_cases hp : p.1 = k
    · simp [insertPair, lookup, hp, h]
    · by_cases hp' : p.1 = k'
      · simp [insertPair, lookup, hp', h.symm]
      · simp [insertPair, lookup, hp, hp', ih]

@[simp] theorem get?_put_self (m : Mapping α) (k : String) (v : α) :
    (m.put k v).get? k = some v :=
  lookup_insertPair_self k v m.entries

theorem get?_put_of_ne (m : Mapping α) {k k' : String} (h : k ≠ k') (v : α) :
    (m.put k v).get? k' = m.get? k' :=
  lookup_insertPair_of_ne h v m.entries

theorem insertPair_insertPair (k : String) (v v' : α) (l : List (String × α)) :
    insertPair k v (insertPair k v' l) = insertPair k v l := by
  induction l with
  | nil => simp [insertPair]
  | cons p rest ih =>
    by_cases h : p.1 = k
    · simp [insertPair, h]
    · simp [insertPair, h, ih]

/-- Of two values put under one key, the last one stays. -/
theorem put_put (m : Mapping α) (k : String) (v v' : α) : (m.put k v').put k v = m.put k v :=
  congrArg Mapping.mk (insertPair_insertPair k v v' m.entries)

theorem map_fst_insertPair (k : String) (v : α) (l : List (String × α)) :
    (insertPair k v l).map Prod.fst =
      if k ∈ l.map Prod.fst then l.map Prod.fst else l.map Prod.fst ++ [k] := by
  induction l with
  | nil => simp [insertPair]
  | cons p rest ih =>
    by_cases h : p.1 = k
    · simp [insertPair, h]
    · have h' : k ≠ p.1 := fun e => h e.symm
      by_cases hr : k ∈ rest.map Prod.fst
      · simp only [insertPair, h, if_false, List.map_cons, ih, hr, if_true, List.mem_cons, or_true]
      · simp only [insertPair, h, if_false, List.map_cons, ih, hr, List.mem_cons, h', or_self,
          List.cons_append]

theorem keys_put (m : Mapping α) (k : String) (v : α) :
    (m.put k v).keys = if k ∈ m.keys then m.keys else m.keys ++ [k] :=
  map_fst_insertPair k v m.entries

end Mapping

/-! ### First occurrences in lists of keys -/

theorem eraseDups_of_nodup {l : List String} (h : l.Nodup) : l.eraseDups = l := by
  induction l with
  | nil => rfl
  | cons a rest ih =>
    obtain ⟨ha, hrest⟩ := List.nodup_cons.mp h
    have hfilter : rest.filter (fun b => !b == a) = rest := by
      refine List.filter_eq_self.mpr fun b hb => ?_
      have hba : b ≠ a := fun e => ha (e ▸ hb)
      simp [hba]
    rw [List.eraseDups_cons, hfilter, ih hrest]

/-- The first occurrences of some members are the members among the first occurrences. -/
theorem eraseDups_filter (p : String → Bool) (l : List String) :
    (l.filter p).eraseDups = l.eraseDups.filter p := by
  match l with
  | [] => rfl
  | a :: rest =>
    have ih := eraseDups_filter p (rest.filter fun b => !b == a)
    rw [List.filter_filter] at ih
    rw [List.eraseDups_cons, List.filter_cons, List.filter_cons, ← ih]
    by_cases ha : p a
    · rw [if_pos ha, if_pos ha, List.eraseDups_cons, List.filter_filter]
      simp only [Bool.and_comm]
    · rw [if_neg ha, if_neg ha]
      -- what is left out anyway need not be left out once more
      refine congrArg List.eraseDups (List.filter_congr fun b _ => ?_)
      by_cases hb : b = a
      · subst hb
        simp [ha]
      · simp [hb]
  termination_by l.length
  decreasing_by exact Nat.lt_succ_of_le (List.length_filter_le ..)

theorem nodup_eraseDups (l : List String) : l.eraseDups.Nodup := by
  match l with
  | [] => exact List.nodup_nil
  | a :: rest =>
    rw [List.eraseDups_cons]
    refine List.nodup_cons.mpr ⟨?_, nodup_eraseDups _⟩
    rw [List.mem_eraseDups]
    simp
  termination_by l.length
  decreasing_by exact Nat.lt_succ_of_le (List.length_filter_le ..)

theorem eraseDups_append_eraseDups (l l' : List String) :
    (l ++ l'.eraseDups).eraseDups = (l ++ l').eraseDups := by
  rw [List.eraseDups_append, List.eraseDups_append, List.removeAll, List.removeAll,
    eraseDups_filter, eraseDups_filter, eraseDups_of_nodup (nodup_eraseDups l')]

namespace Mapping

variable {α : Type}

/-! ### Lists of pairs as mappings -/

theorem lookup_append (k : String) (l l' : List (String × α)) :
    lookup k (l ++ l') = (lookup k l).or (lookup k l') := by
  induction l with
  | nil => rfl
  | cons p rest ih =>
    by_cases hp : p.1 = k
    · simp [lookup, hp]
    · simp [lookup, hp, ih]

theorem lookup_reverse {l : List (String × α)} (h : (l.map Prod.fst).Nodup) (k : String) :
    lookup k l.reverse = lookup k l := by
  induction l with
  | nil => rfl
  | cons p rest ih =>
    obtain ⟨hp, hrest⟩ := List.nodup_cons.mp h
    rw [List.reverse_cons, lookup_append, ih hrest]
    by_cases hk : p.1 = k
    · subst hk
      rw [lookup_of_notMem hp]
      simp [lookup]
    · simp [lookup, hk]

theorem lookup_map_key {f : α → String} (k : String) (l : List α) :
    lookup k (l.map fun a => (f a, a)) = l.find? fun a => f a == k := by
  induction l with
  | nil => rfl
  | cons a rest ih =>
    by_cases ha : f a = k
    · simp [lookup, ha]
    · simp [lookup, ha, ih]

/-- Mappings without repeated keys are the same if they have the same keys in the same order
and the same values. -/
theorem eq_of_get?_eq {m m' : Mapping α} (hm : m.keys.Nodup) (hkeys : m'.keys = m.keys)
    (hget : ∀ k, m'.get? k = m.get? k) : m' = m := by
  have key : ∀ l l' : List (String × α), (l.map Prod.fst).Nodup →
      l'.map Prod.fst = l.map Prod.fst → (∀ k, lookup k l' = lookup k l) → l' = l := by
    intro l
    induction l with
    | nil => exact fun l' _ h _ => List.map_eq_nil_iff.mp h
    | cons p rest ih =>
      intro l' hnodup hfst hlookup
      obtain ⟨hp, hrest⟩ := List.nodup_cons.mp hnodup
      cases l' with
      | nil => cases hfst
      | cons q rest' =>
        obtain ⟨hq, hfst⟩ := List.cons.inj hfst
        have hvalue := hlookup p.1
        rw [lookup, if_pos hq, lookup, if_pos rfl, Option.some_inj] at hvalue
        rw [Prod.ext hq hvalue, ih rest' hrest hfst fun k => ?_]
        by_cases hk : p.1 = k
        · -- the first key is in neither rest
          subst hk
          rw [lookup_of_notMem hp, lookup_of_notMem (hfst ▸ hp)]
        · have hother := hlookup k
          rwa [lookup, if_neg (hq ▸ hk), lookup, if_neg hk] at hother
  exact congrArg Mapping.mk (key m.entries m'.entries hm hkeys hget)

theorem keys_foldl_put {m : Mapping α} (hm : m.keys.Nodup) (pairs : List (String × α)) :
    (pairs.foldl (fun m p => m.put p.1 p.2) m).keys =
      (m.keys ++ pairs.map Prod.fst).eraseDups := by
  induction pairs generalizing m with
  | nil => rw [List.foldl_nil, List.map_nil, List.append_nil, eraseDups_of_nodup hm]
  | cons p rest ih =>
    have hput := keys_put m p.1 p.2
    rw [List.foldl_cons, List.map_cons]
    by_cases hp : p.1 ∈ m.keys
    · rw [if_pos hp] at hput
      rw [ih (hput ▸ hm), hput, List.eraseDups_append, List.eraseDups_append, List.removeAll,
        List.removeAll, List.filter_cons, if_neg (by simp [hp])]
    · rw [if_neg hp] at hput
      have hnodup : (m.keys ++ [p.1]).Nodup :=
        List.nodup_append.mpr ⟨hm, List.pairwise_singleton _ _, fun a ha b hb hab =>
          hp (List.mem_singleton.mp hb ▸ hab ▸ ha)⟩
      rw [ih (hput ▸ hnodup), hput, List.append_assoc, List.singleton_append]

theorem get?_foldl_put (m : Mapping α) (pairs : List (String × α)) (k : String) :
    (pairs.foldl (fun m p => m.put p.1 p.2) m).get? k =
      (lookup k pairs.reverse).or (m.get? k) := by
  induction pairs generalizing m with
  | nil => rfl
  | cons p rest ih =>
    rw [List.foldl_cons, ih, List.reverse_cons, lookup_append, Option.or_assoc]
    by_cases hp : p.1 = k
    · subst hp
      rw [get?_put_self]
      simp [lookup]
    · rw [get?_put_of_ne m hp]
      simp [lookup, hp]

/-- A key has the position of its first pair. -/
theorem keys_ofList (pairs : List (String × α)) :
    (ofList pairs).keys = (pairs.map Prod.fst).eraseDups := by
  have hempty : (empty : Mapping α).keys.Nodup := List.nodup_nil
  rw [ofList, keys_foldl_put hempty]
  rfl

theorem nodup_keys_ofList (pairs : List (String × α)) : (ofList pairs).keys.Nodup := by
  rw [keys_ofList]
  exact nodup_eraseDups _

/-- A key has the value of its last pair. -/
theorem get?_ofList (pairs : List (String × α)) (k : String) :
    (ofList pairs).get? k = lookup k pairs.reverse := by
  rw [ofList, get?_foldl_put]
  exact Option.or_none

/-- Merging the mappings of two lists is the mapping of both lists together. -/
theorem merge_ofList (pairs pairs' : List (String × α)) :
    (ofList pairs).merge (ofList pairs') = ofList (pairs ++ pairs') := by
  have hnodup := nodup_keys_ofList pairs
  have htogether : ofList (pairs ++ pairs') =
      pairs'.foldl (fun m p => m.put p.1 p.2) (ofList pairs) := by
    rw [ofList, List.foldl_append]
    rfl
  refine eq_of_get?_eq (nodup_keys_ofList _) ?_ fun k => ?_
  · rw [htogether, merge, keys_foldl_put hnodup, keys_foldl_put hnodup]
    show (_ ++ (ofList pairs').keys).eraseDups = _
    rw [keys_ofList pairs', eraseDups_append_eraseDups]
  · rw [htogether, merge, get?_foldl_put, get?_foldl_put,
      lookup_reverse (nodup_keys_ofList pairs')]
    show ((ofList pairs').get? k).or _ = _
    rw [get?_ofList]

end Mapping

end EventScript
