import Depot.Entry.Json
import Depot.Proofs.Json.Record
import Depot.Proofs.Time.Instant

/-!
# An entry is read back as it was written

The type of an entry is its first member; the others are taken in, whatever their names, and looked
up at the end (`takes_others`, `ofMembers_others`). So an entry is read back from its JSON form in
any layout (`scan_write`), and from its compact text (`ofText_toText`).
-/

set_option autoImplicit false

namespace Depot.Entry

open Depot.Json

/-! ## Single members -/

theorem ofWord?_word (tag : Tag) : Tag.ofWord? tag.word = some tag := by
  cases tag <;> rfl

/-- The type of an entry is read back. -/
theorem readMember_tag (L : Layout) (level : Nat) (tag : Tag) (others : List (String × Value))
    (rest : List Char) :
    readMember ⟨none, others⟩ "type"
        (':' :: (L.lead ++ ((Value.string tag.word).write L level ++ rest))) =
      .ok (⟨some tag, others⟩, rest) := by
  have htag : readTag (L.lead ++ ((Value.string tag.word).write L level ++ rest)) =
      .ok (tag, rest) := by
    simp only [readTag, readString_write, bind, Except.bind, ofWord?_word]
    rfl
  rw [readMember, if_pos rfl]
  simp only [scanColon_cons, bind, Except.bind, htag]
  rfl

/-- Any other member is taken in. -/
theorem readMember_other (L : Layout) (level : Nat) {m : Members} {name : String} {v : Value}
    {rest : List Char} (hname : name ≠ "type") (hv : v.Plain (depthLimit - 1))
    (hrest : Stops rest) :
    readMember m name (':' :: (L.lead ++ (v.write L level ++ rest))) =
      .ok ({ m with others := m.others ++ [(name, v)] }, rest) := by
  have hread : scanValue (depthLimit - 1) (L.lead ++ (v.write L level ++ rest)) = .ok (v, rest) :=
    scanValue_write L L.isSpace_lead hv hrest
  rw [readMember, if_neg hname]
  simp only [scanColon_cons, bind, Except.bind, hread]
  rfl

/-- All members of other names than the type are taken in, in order. -/
theorem takes_others (L : Layout) (level : Nat) {members : List (String × Value)} (m : Members)
    (hnames : ∀ x ∈ members, x.1 ≠ "type") (hvalues : Value.PlainMembers (depthLimit - 1) members) :
    Takes readMember L level m members { m with others := m.others ++ members } := by
  -- on the members: each one is put behind those before
  induction members generalizing m with
  | nil =>
    rw [List.append_nil]
    exact .nil
  | cons x members ih =>
    obtain ⟨name, v⟩ := x
    obtain ⟨hname, hnames⟩ := List.forall_mem_cons.1 hnames
    obtain ⟨hv, hvalues⟩ : v.Plain (depthLimit - 1) ∧ _ := hvalues
    have hrest := ih { m with others := m.others ++ [(name, v)] } hnames hvalues
    rw [List.append_assoc, List.singleton_append] at hrest
    exact .cons (fun rest => readMember_other L (level + 1) hname hv) hrest

/-! ## The entry -/

/-- The type of an entry. -/
def tag : Entry → Tag
  | object _ _ _ => .object
  | directory _ => .directory

/-- The members of an entry besides its type. -/
def others : Entry → List (String × Value)
  | object name size modified =>
    [("name", .string name), ("size", .number (.integer size))] ++
      (modified.map fun t => ("last_modified", Value.string t.text)).toList
  | directory name => [("name", .string name)]

theorem toJson_eq (e : Entry) :
    e.toJson = .object (("type", .string e.tag.word) :: e.others) := by
  cases e <;> rfl

theorem others_ne_type (e : Entry) : ∀ x ∈ e.others, x.1 ≠ "type" := by
  cases e with
  | object name size modified => cases modified <;> simp [others]
  | directory name => simp [others]

theorem plain_others {e : Entry} (h : e.size ≤ maxSize) (depth : Nat) :
    Value.PlainMembers depth e.others := by
  have hsize : ∀ n : Nat, n ≤ maxSize → -(Nat.pow 2 63 : Int) ≤ n ∧ (n : Int) ≤ maxInteger := by
    intro n hn
    exact ⟨by omega, Int.ofNat_le.2 hn⟩
  cases e with
  | object name size modified =>
    cases modified <;>
      simp [others, Value.PlainMembers, Value.Plain, hsize size h]
  | directory name => simp [others, Value.PlainMembers, Value.Plain]

/-- The JSON form of an entry can be read back. -/
theorem plain_toJson {e : Entry} (h : e.size ≤ maxSize) {depth : Nat} (hdepth : 1 < depth) :
    e.toJson.Plain depth := by
  rw [toJson_eq]
  exact ⟨hdepth, trivial, plain_others h (depth - 1)⟩

/-- What the members of an entry say is that entry. -/
theorem ofMembers_others {e : Entry} (h : e.size ≤ maxSize) :
    ofMembers e.tag e.others = .ok e := by
  cases e with
  | object name size modified =>
    have hsize : sizeOf (.number (.integer size)) = .ok size := by
      have hle : size ≤ maxSize := h
      simp [sizeOf, hle]
    cases modified with
    | none =>
      simp [ofMembers, tag, others, member?, nameOf, hsize, modifiedOf, bind, Except.bind, pure,
        Except.pure]
    | some t =>
      simp [ofMembers, tag, others, member?, nameOf, hsize, modifiedOf, Time.Instant.ofText?_text,
        bind, Except.bind, pure, Except.pure]
  | directory name =>
    simp [ofMembers, tag, others, member?, nameOf, bind, Except.bind, pure, Except.pure]

/-- An entry is read back from its JSON form, in whatever layout. -/
theorem scan_write (L : Layout) (level : Nat) {e : Entry} (h : e.size ≤ maxSize)
    (rest : List Char) : scan (e.toJson.write L level ++ rest) = .ok (e, rest) := by
  have htakes : Takes readMember L level ⟨none, []⟩ (("type", .string e.tag.word) :: e.others)
      ⟨some e.tag, e.others⟩ :=
    .cons (fun rest _ => readMember_tag L (level + 1) e.tag [] rest)
      (takes_others L level ⟨some e.tag, []⟩ e.others_ne_type (plain_others h _))
  rw [toJson_eq, write_object, scan, skipSpace_cons rfl]
  simp only [readObject_write htakes, bind, Except.bind, pure, Except.pure, ofMembers_others h]

theorem ofText_write (L : Layout) {e : Entry} (h : e.size ≤ maxSize) :
    ofText (String.ofList (e.toJson.write L 0)) = .ok e := by
  have hread := scan_write L 0 h []
  rw [List.append_nil] at hread
  simp only [ofText, String.toList_ofList, hread, bind, Except.bind]
  rfl

/-- **Entries survive JSON.** An entry whose size has 64 bits is read back from its compact and from
its indented text, whatever its name and its time are. -/
theorem ofText_toText (e : Entry) (h : e.size ≤ maxSize) :
    ofText e.toJson.toText = .ok e ∧ ofText e.toJson.toPretty = .ok e := by
  constructor
  · rw [Value.toText, Value.compact_eq 0]
    exact ofText_write .compact h
  · rw [Value.toPretty, Value.indented_eq 0]
    exact ofText_write .indented h

/-- The largest size, the earliest time, and a name with a quote, a backslash, control characters
and a character beyond the first 65536. -/
theorem ofText_toText_of_limits :
    let e : Entry := .object "a\"\\\n\x01\x7f\u0000😀" maxSize
      (some { nanos := Time.minNanos, le_max := by decide, min_le := by decide })
    e.size ≤ maxSize ∧ ofText e.toJson.toText = .ok e ∧ ofText e.toJson.toPretty = .ok e := by
  intro e
  have h : e.size ≤ maxSize := Nat.le_refl _
  exact ⟨h, ofText_toText e h⟩

end Depot.Entry
