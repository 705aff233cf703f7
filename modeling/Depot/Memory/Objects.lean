import Depot.Listing

/-!
# Stored objects

The objects of a store by bucket and key, in ascending order. Keys are compared character by
character by code.
-/

set_option autoImplicit false

namespace Depot.Memory

/-- Where an object is stored. -/
structure Location where
  bucket : String
  key : String
  deriving DecidableEq, Repr, Inhabited

namespace Location

/-- The order of locations: by bucket, and by key within a bucket. -/
protected def Lt (a b : Location) : Prop :=
  a.bucket < b.bucket ∨ (a.bucket = b.bucket ∧ a.key < b.key)

instance : LT Location := ⟨Location.Lt⟩

theorem lt_iff {a b : Location} :
    a < b ↔ a.bucket < b.bucket ∨ (a.bucket = b.bucket ∧ a.key < b.key) := Iff.rfl

instance (a b : Location) : Decidable (a < b) :=
  inferInstanceAs (Decidable (a.bucket < b.bucket ∨ (a.bucket = b.bucket ∧ a.key < b.key)))

protected theorem lt_irrefl (a : Location) : ¬ a < a := by
  rw [lt_iff]
  rintro (h | ⟨-, h⟩) <;> exact String.lt_irrefl _ h

protected theorem lt_trans {a b c : Location} (hab : a < b) (hbc : b < c) : a < c := by
  rw [lt_iff] at *
  rcases hab with h | ⟨e, h⟩ <;> rcases hbc with h' | ⟨e', h'⟩
  · exact .inl (String.lt_trans h h')
  · exact .inl (e' ▸ h)
  · exact .inl (e ▸ h')
  · exact .inr ⟨e.trans e', String.lt_trans h h'⟩

/-- Of two strings that differ, one is before the other. -/
theorem string_lt_of_ne {a b : String} (hne : a ≠ b) (h : ¬ a < b) : b < a := by
  rw [← String.not_le]
  intro hle
  exact hne (String.le_antisymm hle (String.not_lt.1 h))

protected theorem lt_of_ne {a b : Location} (hne : a ≠ b) (h : ¬ a < b) : b < a := by
  rw [lt_iff] at *
  rw [not_or] at h
  by_cases hb : a.bucket = b.bucket
  · refine .inr ⟨hb.symm, string_lt_of_ne (fun hk => hne ?_) fun hk => h.2 ⟨hb, hk⟩⟩
    cases a
    cases b
    simp_all
  · exact .inl (string_lt_of_ne hb h.1)

end Location

/-- A stored object. -/
structure StoredObject where
  data : ByteArray
  updated : Time.Instant
  options : WriteOptions

/-- What a listing tells about an object. -/
def StoredObject.attributes (o : StoredObject) (key : String) : Attributes :=
  ⟨key, o.data.size, some o.updated⟩

/-- All objects of a store, in the order of their locations, at most one at each. -/
structure Objects where
  entries : List (Location × StoredObject)
  sorted : entries.Pairwise fun a b => a.1 < b.1

namespace Objects

/-- No objects. -/
def empty : Objects := ⟨[], .nil⟩

instance : Inhabited Objects := ⟨empty⟩

/-- The object at a location. -/
def get? (objects : Objects) (l : Location) : Option StoredObject := objects.entries.lookup l

/-- Puts an object in its place among the entries, instead of the one that is there. -/
def insertEntry (l : Location) (o : StoredObject) :
    List (Location × StoredObject) → List (Location × StoredObject)
  | [] => [(l, o)]
  | (l', o') :: rest =>
    if l = l' then (l, o) :: rest
    else if l < l' then (l, o) :: (l', o') :: rest
    else (l', o') :: insertEntry l o rest

theorem mem_insertEntry {l : Location} {o : StoredObject} {x : Location × StoredObject}
    {es : List (Location × StoredObject)} (h : x ∈ insertEntry l o es) : x = (l, o) ∨ x ∈ es := by
  induction es with
  | nil => simpa [insertEntry] using h
  | cons e rest ih =>
    obtain ⟨l', o'⟩ := e
    simp only [insertEntry] at h
    split at h
    · rcases List.mem_cons.1 h with h | h
      · exact .inl h
      · exact .inr (List.mem_cons_of_mem _ h)
    · split at h
      · exact List.mem_cons.1 h
      · rcases List.mem_cons.1 h with h | h
        · exact .inr (h ▸ List.mem_cons_self)
        · exact (ih h).imp_right (List.mem_cons_of_mem _)

theorem sorted_insertEntry {l : Location} {o : StoredObject}
    {es : List (Location × StoredObject)} (h : es.Pairwise fun a b => a.1 < b.1) :
    (insertEntry l o es).Pairwise fun a b => a.1 < b.1 := by
  induction es with
  | nil => simp [insertEntry]
  | cons e rest ih =>
    obtain ⟨l', o'⟩ := e
    obtain ⟨hhead, hrest⟩ := List.pairwise_cons.1 h
    simp only [insertEntry]
    split
    · next heq => exact List.pairwise_cons.2 ⟨fun x hx => heq ▸ hhead x hx, hrest⟩
    · next hne =>
      split
      · next hlt =>
        refine List.pairwise_cons.2 ⟨fun x hx => ?_, h⟩
        rcases List.mem_cons.1 hx with hx | hx
        · exact hx ▸ hlt
        · exact Location.lt_trans hlt (hhead x hx)
      · next hnlt =>
        refine List.pairwise_cons.2 ⟨fun x hx => ?_, ih hrest⟩
        rcases mem_insertEntry hx with hx | hx
        · exact hx ▸ Location.lt_of_ne hne hnlt
        · exact hhead x hx

/-- Stores an object at a location. -/
def insert (objects : Objects) (l : Location) (o : StoredObject) : Objects :=
  ⟨insertEntry l o objects.entries, sorted_insertEntry objects.sorted⟩

/-- Removes the object at a location. -/
def erase (objects : Objects) (l : Location) : Objects :=
  ⟨objects.entries.filter fun e => e.1 ≠ l, objects.sorted.filter _⟩

/-- The objects of a bucket by key, in order. -/
def ofBucket (objects : Objects) (bucket : String) : List (String × StoredObject) :=
  (objects.entries.filter fun e => e.1.bucket = bucket).map fun e => (e.1.key, e.2)

/-- The keys of a bucket, in order. -/
def keys (objects : Objects) (bucket : String) : List String := (objects.ofBucket bucket).map (·.1)

/-! ## Listing -/

/-- The front of a text up to the end of the first occurrence of `mark`, if there is one. -/
def upToFirst (mark : List Char) : List Char → Option (List Char)
  | [] => if mark = [] then some [] else none
  | c :: cs => if mark.isPrefixOf (c :: cs) then some mark else (upToFirst mark cs).map (c :: ·)

/-- The item that stands for an object with the given key, which begins with `lead`. -/
def item (lead : String) (delimiter : Option String) (key : String) (o : StoredObject) : Listed :=
  match delimiter with
  | none => .object (o.attributes key)
  | some d =>
    match upToFirst d.toList (key.toList.drop lead.toList.length) with
    | some front => .group (lead ++ String.ofList front)
    | none => .object (o.attributes key)

/-- Items without those that equal the next one. -/
def squash : List Listed → List Listed
  | a :: b :: rest => if a = b then squash (b :: rest) else a :: squash (b :: rest)
  | short => short

/-- All items of a listing. The keys of one group follow each other. -/
def items (objects : Objects) (q : Query) : List Listed :=
  squash <| ((objects.ofBucket q.bucket).filter fun e => q.lead.toList.isPrefixOf e.1.toList).map
    fun e => item q.lead q.delimiter e.1 e.2

/-- Whether an item is behind those that a token stands for. -/
def isAfter (token : Option String) (i : Listed) : Bool :=
  match token with
  | some t => t < i.key
  | none => true

/-- One page of a listing. Its token is the key of its last item. -/
def page (objects : Objects) (pageSize : Nat) (q : Query) : Page :=
  let rest := (objects.items q).filter (isAfter q.token)
  let shown := rest.take pageSize
  ⟨shown, if pageSize < rest.length then shown.getLast?.map (·.key) else none⟩

end Objects

end Depot.Memory
