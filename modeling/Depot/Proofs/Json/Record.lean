import Depot.Json.Record
import Depot.Proofs.Json.Reading

/-!
# A record is read back as it was written

The members of an object are given to the reader of a record one after the other, each of them from
its colon on (`readFields_more`). If each is taken as it should be, whatever follows it (`Takes`),
so is the whole object, in whatever layout it was written (`readObject_write`). A member that is a
string is read back as that string (`readString_write`).
-/

set_option autoImplicit false

namespace Depot.Json

/-! ## Members one by one -/

section Fields

variable {σ : Type} (member : σ → String → Scan σ) (L : Layout) (level : Nat)

theorem readFields_done {fuel : Nat} {first : Bool} (state : σ) (rest : List Char) :
    readFields member (fuel + 1) first state (Value.writeMembers L level first [] ++ '}' :: rest) =
      .ok (state, '}' :: rest) := by
  rw [readFields, nextMember_done]
  rfl

/-- The next member is given to the reader of the record from its colon on. -/
theorem readFields_more {fuel : Nat} {first : Bool} {state state' : σ} {name : String} {v : Value}
    {members : List (String × Value)} {rest : List Char}
    (h : member state name (':' :: (L.lead ++ (v.write L (level + 1) ++
      (Value.writeMembers L level false members ++ '}' :: rest)))) =
      .ok (state', Value.writeMembers L level false members ++ '}' :: rest)) :
    readFields member (fuel + 1) first state
        (Value.writeMembers L level first ((name, v) :: members) ++ '}' :: rest) =
      readFields member fuel false state'
        (Value.writeMembers L level false members ++ '}' :: rest) := by
  rw [writeMembers_cons, readFields, nextMember_more L (level + 1) first]
  simp only [bind, Except.bind, scanString_escape, h]

/-- The reader of a record takes some members, one after the other, and comes from one state to
another: each of them is read back from its colon on, in front of anything that may follow it. -/
inductive Takes : σ → List (String × Value) → σ → Prop where
  | nil {state : σ} : Takes state [] state
  | cons {state state' state'' : σ} {name : String} {v : Value} {members : List (String × Value)} :
      (∀ rest, Stops rest → member state name (':' :: (L.lead ++ (v.write L (level + 1) ++ rest))) =
        .ok (state', rest)) →
      Takes state' members state'' → Takes state ((name, v) :: members) state''

variable {member L level}

theorem readFields_write {state state' : σ} {members : List (String × Value)}
    (h : Takes member L level state members state') {fuel : Nat} {first : Bool} {rest : List Char}
    (hfuel : members.length < fuel) :
    readFields member fuel first state (Value.writeMembers L level first members ++ '}' :: rest) =
      .ok (state', '}' :: rest) := by
  -- on the members, each of which uses one unit of fuel
  induction h generalizing fuel first with
  | nil =>
    cases fuel with
    | zero => exact absurd hfuel (Nat.not_lt_zero _)
    | succ fuel => exact readFields_done member L level _ rest
  | @cons _ _ _ _ _ members hmember _ ih =>
    cases fuel with
    | zero => exact absurd hfuel (Nat.not_lt_zero _)
    | succ fuel =>
      have hread := hmember _ (stops_members L level members rest)
      rw [readFields_more member L level hread]
      exact ih (Nat.lt_of_succ_lt_succ hfuel)

/-- **A record is read back** behind the opening bracket of its object. -/
theorem readObject_write {state state' : σ} {members : List (String × Value)}
    (h : Takes member L level state members state') (rest : List Char) :
    readObject member state (Value.writeMembers L level true members ++ '}' :: rest) =
      .ok (state', rest) := by
  -- the text is at least as long as there are members, which is fuel enough
  have hlength : members.length <
      (Value.writeMembers L level true members ++ '}' :: rest).length + 1 := by
    have hle := length_le_writeMembers L level true members
    rw [List.length_append]
    omega
  have hfields : readFields member _ true state
      (Value.writeMembers L level true members ++ '}' :: rest) = .ok (state', '}' :: rest) :=
    readFields_write h hlength
  have hend : endObject ('}' :: rest) = .ok rest := rfl
  simp only [readObject, hfields, hend, bind, Except.bind]
  rfl

end Fields

/-! ## Members that are strings -/

section Strings

variable (L : Layout) (level : Nat) (s : String) (rest : List Char)

/-- A string behind the space that may stand in front of it. -/
theorem skipSpace_string :
    skipSpace (L.lead ++ ((Value.string s).write L level ++ rest)) =
      '"' :: (escape s.toList ++ '"' :: rest) := by
  rw [skipSpace_append L.isSpace_lead, write_string]
  rfl

theorem readString_write :
    readString (L.lead ++ ((Value.string s).write L level ++ rest)) = .ok (s, rest) := by
  rw [readString, skipSpace_string]
  exact scanString_escape s rest

/-- A string may also stand where none would be possible. -/
theorem readString?_write :
    readString? (L.lead ++ ((Value.string s).write L level ++ rest)) = .ok (some s, rest) := by
  have hread : readString ('"' :: (escape s.toList ++ '"' :: rest)) = .ok (s, rest) :=
    scanString_escape s rest
  rw [readString?, skipSpace_string]
  show (readString ('"' :: (escape s.toList ++ '"' :: rest))).map _ = _
  rw [hread]
  rfl

end Strings

end Depot.Json
