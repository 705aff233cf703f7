import Depot.Json.Reader

/-!
# Layouts of a JSON document

The compact and the indented form of a document are one form with different space between the
tokens (`compact_eq`, `indented_eq`). What is shown of that form holds of both.
-/

set_option autoImplicit false

namespace Depot.Json

/-- What stands between the tokens of a document. -/
structure Layout where
  /-- In front of an item at a level, and of the closing bracket that goes back to that level. -/
  gap : Nat → List Char
  /-- Between the colon and the value of a member. -/
  lead : List Char
  isSpace_gap : ∀ level, ∀ c ∈ gap level, isSpace c = true
  isSpace_lead : ∀ c ∈ lead, isSpace c = true

/-- The separator of an item from the one before it, if it is not the first. -/
def comma (first : Bool) : List Char := if first then [] else [',']

mutual

/-- A value in a layout. -/
def Value.write (L : Layout) (level : Nat) : Value → List Char
  | .null => "null".toList
  | .bool true => "true".toList
  | .bool false => "false".toList
  | .number n => n.text
  | .string s => quote s
  | .array items => '[' :: (Value.writeItems L level true items ++ [']'])
  | .object members => '{' :: (Value.writeMembers L level true members ++ ['}'])

/-- The items of an array at a level, up to its closing bracket; `first` if none was written. -/
def Value.writeItems (L : Layout) (level : Nat) (first : Bool) : List Value → List Char
  | [] => if first then [] else L.gap level
  | v :: rest =>
    comma first ++ (L.gap (level + 1) ++ (v.write L (level + 1) ++
      Value.writeItems L level false rest))

/-- The members of an object at a level, up to its closing bracket; `first` if none was written. -/
def Value.writeMembers (L : Layout) (level : Nat) (first : Bool) :
    List (String × Value) → List Char
  | [] => if first then [] else L.gap level
  | (name, v) :: rest =>
    comma first ++ (L.gap (level + 1) ++ (quote name ++ (':' :: (L.lead ++
      (v.write L (level + 1) ++ Value.writeMembers L level false rest)))))

end

/-- Every member takes a character at least. -/
theorem length_le_writeMembers (L : Layout) (level : Nat) (first : Bool)
    (members : List (String × Value)) :
    members.length ≤ (Value.writeMembers L level first members).length := by
  induction members generalizing first with
  | nil => exact Nat.zero_le _
  | cons m members ih =>
    obtain ⟨name, v⟩ := m
    have hrest := ih false
    simp only [Value.writeMembers, List.length_append, List.length_cons]
    omega

namespace Layout

/-- No space at all. -/
def compact : Layout where
  gap := fun _ => []
  lead := []
  isSpace_gap := fun _ _ h => absurd h List.not_mem_nil
  isSpace_lead := fun _ h => absurd h List.not_mem_nil

/-- One line an item, two spaces a level. -/
def indented : Layout where
  gap := newline
  lead := [' ']
  isSpace_gap := by
    intro level c hc
    rcases List.mem_cons.1 hc with rfl | hc
    · rfl
    · rw [(List.mem_replicate.1 hc).2]
      rfl
  isSpace_lead := by
    intro c hc
    rw [List.mem_singleton.1 hc]
    rfl

end Layout

mutual

theorem Value.compact_eq (level : Nat) : ∀ v : Value, v.compact = v.write .compact level
  | .null => rfl
  | .bool true => rfl
  | .bool false => rfl
  | .number _ => rfl
  | .string _ => rfl
  | .array items => by rw [Value.compact, Value.write, Value.compactItems_eq level items]
  | .object members => by rw [Value.compact, Value.write, Value.compactMembers_eq level members]

theorem Value.compactItems_eq (level : Nat) : ∀ items : List Value,
    Value.compactItems items = Value.writeItems .compact level true items
  | [] => rfl
  | [v] => by
    rw [Value.compactItems, Value.compact_eq (level + 1) v]
    simp [Value.writeItems, comma, Layout.compact]
  | v :: w :: rest => by
    rw [Value.compactItems, Value.compact_eq (level + 1) v, Value.compactItems_eq level (w :: rest)]
    · simp [Value.writeItems, comma, Layout.compact]
    · exact List.cons_ne_nil _ _

theorem Value.compactMembers_eq (level : Nat) : ∀ members : List (String × Value),
    Value.compactMembers members = Value.writeMembers .compact level true members
  | [] => rfl
  | [(name, v)] => by
    rw [Value.compactMembers, Value.compact_eq (level + 1) v]
    simp [Value.writeMembers, comma, Layout.compact]
  | (name, v) :: w :: rest => by
    rw [Value.compactMembers, Value.compact_eq (level + 1) v,
      Value.compactMembers_eq level (w :: rest)]
    · simp [Value.writeMembers, comma, Layout.compact]
    · exact List.cons_ne_nil _ _

end

mutual

theorem Value.indented_eq (level : Nat) : ∀ v : Value, v.indented level = v.write .indented level
  | .null => rfl
  | .bool true => rfl
  | .bool false => rfl
  | .number _ => rfl
  | .string _ => rfl
  | .array [] => rfl
  | .array (v :: rest) => by
    rw [Value.indented, Value.write, Value.writeItems, ← Value.indentedItems_eq level rest,
      Value.indented_eq (level + 1) v]
    simp [comma, Layout.indented]
  | .object [] => rfl
  | .object ((name, v) :: rest) => by
    rw [Value.indented, Value.write, Value.writeMembers, ← Value.indentedMembers_eq level rest,
      Value.indented_eq (level + 1) v]
    simp [comma, Layout.indented]

theorem Value.indentedItems_eq (level : Nat) : ∀ items : List Value,
    Value.indentedItems (level + 1) items ++ newline level =
      Value.writeItems .indented level false items
  | [] => rfl
  | v :: rest => by
    rw [Value.indentedItems, Value.writeItems, ← Value.indentedItems_eq level rest,
      Value.indented_eq (level + 1) v]
    simp [comma, Layout.indented]

theorem Value.indentedMembers_eq (level : Nat) : ∀ members : List (String × Value),
    Value.indentedMembers (level + 1) members ++ newline level =
      Value.writeMembers .indented level false members
  | [] => rfl
  | (name, v) :: rest => by
    rw [Value.indentedMembers, Value.writeMembers, ← Value.indentedMembers_eq level rest,
      Value.indented_eq (level + 1) v]
    simp [comma, Layout.indented]

end

end Depot.Json
