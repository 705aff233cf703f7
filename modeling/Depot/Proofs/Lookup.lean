/-!
# Looking up in a table

The parties of a pool, the tasks of a storage, its objects and the failures ordered in advance are
tables: lists of keys with a value each. What a change of one entry does to a look-up is said here
once for all of them.
-/

set_option autoImplicit false

namespace Depot

universe u v

variable {α : Type u} {β : Type v} [BEq α] [LawfulBEq α]

/-- What is found in a table is one of its entries. -/
theorem mem_of_lookup {k : α} {y : β} {l : List (α × β)} (h : l.lookup k = some y) :
    (k, y) ∈ l := by
  obtain ⟨first, rest, hl, -⟩ := List.lookup_eq_some_iff.1 h
  rw [hl]
  exact List.mem_append_right first List.mem_cons_self

variable [DecidableEq α]

/-- A look-up in a table in which the value of one key was replaced. -/
theorem lookup_replace (k k' : α) (y : β) (l : List (α × β)) :
    (l.map fun q => if q.1 = k then (k, y) else q).lookup k' =
      if k' = k then (l.lookup k).map fun _ => y else l.lookup k' := by
  induction l with
  | nil => simp
  | cons q l ih =>
    obtain ⟨a, b⟩ := q
    by_cases ha : a = k
    · subst ha
      by_cases hk : k' = a
      · subst hk
        simp
      · have hne : (k' == a) = false := beq_false_of_ne hk
        rw [if_neg hk] at ih ⊢
        simp [List.lookup_cons, hne, ih]
    · have hka : (k == a) = false := beq_false_of_ne (Ne.symm ha)
      rw [List.map_cons, if_neg ha, List.lookup_cons, List.lookup_cons, List.lookup_cons, hka, ih]
      by_cases hk : k' = k
      · subst hk
        rw [hka]
      · rw [if_neg hk, if_neg hk]

/-- A look-up in a table from which one key was removed. -/
theorem lookup_remove (k k' : α) (l : List (α × β)) :
    (l.filter fun q => q.1 ≠ k).lookup k' = if k' = k then none else l.lookup k' := by
  induction l with
  | nil => simp
  | cons q l ih =>
    obtain ⟨a, b⟩ := q
    by_cases ha : a = k
    · subst ha
      rw [List.filter_cons_of_neg (by simp), ih]
      by_cases hk : k' = a
      · rw [if_pos hk, if_pos hk]
      · rw [if_neg hk, if_neg hk, List.lookup_cons, beq_false_of_ne hk]
    · rw [List.filter_cons_of_pos (by simpa using ha), List.lookup_cons, List.lookup_cons, ih]
      by_cases hk : k' = k
      · subst hk
        rw [beq_false_of_ne (Ne.symm ha), if_pos rfl]
      · rw [if_neg hk, if_neg hk]

/-- A look-up in a table with one more entry at its end. -/
theorem lookup_concat (k k' : α) (y : β) (l : List (α × β)) :
    (l ++ [(k, y)]).lookup k' = (l.lookup k').or (if k' = k then some y else none) := by
  rw [List.lookup_append, List.lookup_cons, List.lookup_nil]
  by_cases hk : k' = k
  · rw [if_pos hk, beq_iff_eq.2 hk]
  · rw [if_neg hk, beq_false_of_ne hk]

end Depot
