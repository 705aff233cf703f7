import Depot.Entry.Shallow
import Depot.Proofs.Storage.Addresses

/-!
# Shallow walks and deep walks

A walk that shows immediate entries only is listed by groups, the other one object by object, and
both are cut into pages of their own. The item of an object and its immediate entry are the same
(`entry_item`), and where the items of a listing are not repeated, its directories are shown once
(`entries_squash`). So the entries of the one walk are a quotient of those of the other
(`entries_eq_once`). The main statement is `shallow_walk_is_quotient`.
-/

set_option autoImplicit false

namespace Depot

/-! ## Immediate entries -/

/-- Up to the first of a mark of one character are the characters in front of it, and it. -/
theorem Memory.Objects.upToFirst_singleton (c : Char) (x : List Char) :
    upToFirst [c] x = if c ∈ x then some (x.takeWhile (· ≠ c) ++ [c]) else none := by
  induction x with
  | nil => rfl
  | cons d x ih =>
    rw [upToFirst_cons, ih]
    by_cases hd : c = d
    · subst hd
      simp
    · have hlead : ¬ [c] <+: d :: x := fun h => hd (List.cons_prefix_cons.1 h).1
      have hne : d ≠ c := Ne.symm hd
      by_cases hmem : c ∈ x
      · simp [hlead, hmem, hne]
      · simp [hlead, hmem, hd]

namespace Entry

variable {e e' inner : Entry} {l : List Entry} {name : String} {size : Nat}
  {modified : Option Time.Instant}

theorem mem_once : e ∈ once l ↔ e ∈ l := by
  induction l with
  | nil => rfl
  | cons first rest ih =>
    cases first with
    | object name size modified => rw [once, List.mem_cons, List.mem_cons, ih]
    | directory name =>
      rw [once, List.mem_cons, List.mem_cons, List.mem_filter, decide_eq_true_eq, ih]
      constructor
      · exact fun h => h.imp_right And.left
      · rintro (h | h)
        · exact .inl h
        · by_cases heq : e = directory name
          · exact .inl heq
          · exact .inr ⟨h, heq⟩

/-- A directory that comes again at once is left out. -/
theorem once_of_same (name : String) (rest : List Entry) :
    once (directory name :: directory name :: rest) = once (directory name :: rest) := by
  rw [once, once, List.filter_cons_of_neg (by simp), List.filter_filter]
  simp only [Bool.and_self]

/-- A directory that does not come again has nothing left out behind it. -/
theorem once_of_notMem {rest : List Entry} (h : directory name ∉ rest) :
    once (directory name :: rest) = directory name :: once rest := by
  rw [once, List.filter_eq_self.2]
  intro e he
  rw [decide_eq_true_eq]
  rintro rfl
  exact h (mem_once.1 he)

/-- Up to the first separator there is no other one. -/
theorem takeWhile_of_first {front rest : List Char} (h : Key.separator ∉ front) :
    (front ++ Key.separator :: rest).takeWhile (· ≠ Key.separator) = front := by
  rw [List.takeWhile_append_of_pos]
  · simp
  · intro c hc
    rw [decide_eq_true_eq]
    rintro rfl
    exact h hc

/-- An object is shown as it is, or as the directory of what is in front of the first separator. -/
theorem immediate_cases (name : String) (size : Nat) (modified : Option Time.Instant) :
    (Key.separator ∉ name.toList ∧
      immediate (object name size modified) = object name size modified) ∨
    ∃ front rest, name.toList = front ++ Key.separator :: rest ∧ Key.separator ∉ front ∧
      immediate (object name size modified) =
        directory (String.ofList (front ++ [Key.separator])) := by
  by_cases hmem : Key.separator ∈ name.toList
  · obtain ⟨front, rest, hname, hfront⟩ :
        ∃ front rest, name.toList = front ++ Key.separator :: rest ∧ Key.separator ∉ front :=
      List.eq_append_cons_of_mem hmem
    refine .inr ⟨front, rest, hname, hfront, ?_⟩
    rw [immediate, if_pos hmem, hname, takeWhile_of_first hfront]
  · exact .inl ⟨hmem, by rw [immediate, if_neg hmem]⟩

/-- Names that go on behind the same first separator are in the same directory. -/
theorem immediate_of_lead {front : List Char} (hfront : Key.separator ∉ front)
    (h : front ++ [Key.separator] <+: name.toList) :
    immediate (object name size modified) =
      directory (String.ofList (front ++ [Key.separator])) := by
  obtain ⟨rest, hrest⟩ := h
  rw [List.append_assoc, List.singleton_append] at hrest
  rcases immediate_cases name size modified with ⟨hnone, -⟩ | ⟨front', rest', hname, hfront', himm⟩
  · rw [← hrest] at hnone
    exact absurd (List.mem_append_right front List.mem_cons_self) hnone
  · -- there is only one first separator
    have hsame := congrArg (List.takeWhile (· ≠ Key.separator)) (hrest.trans hname)
    rw [takeWhile_of_first hfront, takeWhile_of_first hfront'] at hsame
    rw [himm, hsame]

/-- An entry is covered by what is shown of it. -/
theorem covers_immediate (e : Entry) : e.immediate.Covers e := by
  cases e with
  | directory name => exact .same _
  | object name size modified =>
    rcases immediate_cases name size modified with ⟨-, himm⟩ | ⟨front, rest, hname, -, himm⟩
    · rw [himm]
      exact .same _
    · rw [himm]
      apply Covers.within
      rw [String.toList_ofList, Entry.name, hname]
      exact ⟨rest, by simp⟩

/-- **An object is covered by nothing else** of what is shown of objects. -/
theorem eq_immediate_of_covers (he : e.isDirectory = false) (hinner : inner.isDirectory = false)
    (h : e.immediate.Covers inner) : e.immediate = inner.immediate := by
  cases e with
  | directory name => cases he
  | object name size modified =>
    rcases immediate_cases name size modified with ⟨-, himm⟩ | ⟨front, -, -, hfront, himm⟩
    · rw [himm] at h
      cases h with
      | same => rfl
    · rw [himm] at h ⊢
      cases h with
      | same => cases hinner
      | within hlead =>
        cases inner with
        | directory name => cases hinner
        | object name size modified =>
          rw [String.toList_ofList] at hlead
          exact (immediate_of_lead hfront hlead).symm

end Entry

/-! ## The items of the two listings -/

section Items

open Memory.Objects

variable {objects : Memory.Objects} {lead key : String} {i j : Listed} {l : List Listed}

/-- Items of keys that begin alike have different entries. -/
theorem entry_inj (hi : lead.toList <+: i.key.toList) (hj : lead.toList <+: j.key.toList)
    (h : i.entry lead = j.entry lead) : i = j := by
  have hname : ∀ {key : String}, lead.toList <+: key.toList →
      key = lead ++ Key.relativeName lead key := by
    rintro key ⟨rest, hrest⟩
    have hkey : key = lead ++ String.ofList rest := by
      rw [← String.toList_inj, String.toList_append, String.toList_ofList, hrest]
    rw [hkey, Key.relativeName_append]
  have hkey : i.key = j.key := by
    rw [hname hi, hname hj, ← Storage.name_entry, ← Storage.name_entry, h]
  cases i with
  | group g =>
    cases j with
    | group g' => exact congrArg Listed.group hkey
    | object a => cases h
  | object a =>
    cases j with
    | group g => cases h
    | object a' =>
      obtain ⟨key, size, updated⟩ := a
      obtain ⟨key', size', updated'⟩ := a'
      obtain ⟨-, rfl, rfl⟩ := Entry.object.inj h
      cases hkey
      rfl

/-- **The item of an object in a listing by groups** has the immediate entry of the object. -/
theorem entry_item (hkey : lead.toList <+: key.toList) (o : Memory.StoredObject) :
    (item lead (some (String.singleton Key.separator)) key o).entry lead =
      Entry.immediate ((Listed.object (o.attributes key)).entry lead) := by
  obtain ⟨name, rfl⟩ : ∃ name, key = lead ++ name := by
    obtain ⟨rest, hrest⟩ := hkey
    refine ⟨String.ofList rest, ?_⟩
    rw [← String.toList_inj, String.toList_append, String.toList_ofList, hrest]
  have hname : (lead ++ name).toList.drop lead.toList.length = name.toList := by
    rw [String.toList_append, List.drop_left]
  have hmark : (String.singleton Key.separator).toList = [Key.separator] := rfl
  have hentry : (Listed.object (o.attributes (lead ++ name))).entry lead =
      .object name o.data.size (some o.updated) := by
    rw [Listed.entry, Memory.StoredObject.attributes, Key.relativeName_append]
  rw [hentry, Entry.immediate]
  simp only [item, hname, hmark, upToFirst_singleton]
  by_cases hmem : Key.separator ∈ name.toList
  · simp only [if_pos hmem]
    rw [Listed.entry, Key.relativeName_append]
  · simp only [if_neg hmem]
    exact hentry

/-- **Entries that are not repeated.** Where equal items are groups and follow each other, the
entries of the items without repetitions are those without repeated directories. -/
theorem entries_squash (hlead : ∀ i ∈ l, lead.toList <+: i.key.toList)
    (h : l.Pairwise fun i j => (i = j ∧ ∃ g, i = .group g) ∨ i.key < j.key) :
    (squash l).map (·.entry lead) = Entry.once (l.map (·.entry lead)) := by
  fun_induction squash l with
  | case1 i rest ih =>
    obtain ⟨hhead, htail⟩ := List.pairwise_cons.1 h
    have hrest := ih (fun j hj => hlead j (List.mem_cons_of_mem i hj)) htail
    rcases hhead i List.mem_cons_self with ⟨-, g, rfl⟩ | hlt
    · -- the directory is shown for the first of the two items
      rw [hrest]
      exact (Entry.once_of_same _ _).symm
    · exact absurd hlt (lt_irrefl i.key)
  | case2 i j rest hne ih =>
    obtain ⟨hhead, htail⟩ := List.pairwise_cons.1 h
    have hrest := ih (fun k hk => hlead k (List.mem_cons_of_mem i hk)) htail
    rw [List.map_cons, hrest, List.map_cons (l := j :: rest)]
    cases i with
    | object a => rfl
    | group g =>
      -- the group does not come again behind a later item
      have hij : (Listed.group g).key < j.key :=
        (hhead j List.mem_cons_self).resolve_left fun heq => hne heq.1
      have hnot : Listed.group g ∉ j :: rest := by
        intro hmem
        rcases List.mem_cons.1 hmem with heq | hmem
        · exact hne heq
        · rcases (List.pairwise_cons.1 htail).1 _ hmem with ⟨heq, -⟩ | hlt
          · exact hne heq.symm
          · exact absurd hlt (lt_asymm hij)
      refine (Entry.once_of_notMem ?_).symm
      intro hmem
      obtain ⟨k, hk, heq⟩ := List.mem_map.1 hmem
      apply hnot
      rwa [← entry_inj (hlead k (List.mem_cons_of_mem _ hk)) (hlead _ List.mem_cons_self) heq]
  | case3 short hshort =>
    cases short with
    | nil => rfl
    | cons i rest =>
      cases rest with
      | nil => cases i <;> rfl
      | cons j rest => exact absurd rfl (hshort i j rest)

/-- The items of objects are in order, and only groups come twice. -/
theorem pairwise_item (objects : Memory.Objects) (bucket lead : String)
    (delimiter : Option String) :
    ((objects.matching bucket lead).map fun e => item lead delimiter e.1 e.2).Pairwise
      fun i j => (i = j ∧ ∃ g, i = .group g) ∨ i.key < j.key := by
  rw [List.pairwise_map]
  apply (objects.sorted_matching bucket lead).imp_of_mem
  intro a b ha hb hlt
  have hlead := (mem_matching.1 ha).2
  have hlead' := (mem_matching.1 hb).2
  rcases item_eq_or_lt hlead hlead' hlt a.2 b.2 with heq | hless
  · refine .inl ⟨heq, ?_⟩
    rcases item_cases hlead delimiter a.2 with ⟨g, -, -, hitem⟩ | ⟨-, hitem⟩
    · exact ⟨g, hitem⟩
    · rcases item_cases hlead' delimiter b.2 with ⟨g, -, -, hitem'⟩ | ⟨-, hitem'⟩
      · exact ⟨g, heq.trans hitem'⟩
      · -- objects under different keys are different items
        rw [hitem, hitem'] at heq
        have hkey : a.1 = b.1 := congrArg Listed.key heq
        exact absurd (hkey ▸ hlt) (lt_irrefl _)
  · exact .inr hless

/-- The key of the item of an object begins as the keys that are listed do. -/
theorem lead_prefix_item (hkey : lead.toList <+: key.toList) (delimiter : Option String)
    (o : Memory.StoredObject) : lead.toList <+: (item lead delimiter key o).key.toList := by
  rcases item_cases hkey delimiter o with ⟨g, hg, -, hitem⟩ | ⟨-, hitem⟩
  · rw [hitem]
    exact hg.lead_prefix
  · rw [hitem]
    exact hkey

/-- A listing without groups has all objects, in order. -/
theorem items_flat (objects : Memory.Objects) (bucket lead : String) :
    objects.items ⟨bucket, lead, none, none⟩ =
      (objects.matching bucket lead).map fun e => .object (e.2.attributes e.1) := by
  have hirrefl : Std.Irrefl fun a b : Listed => a.key < b.key := ⟨fun a => lt_irrefl a.key⟩
  have hantisymm : Std.Antisymm fun a b : Listed => a.key < b.key :=
    ⟨fun a b hab hba => absurd hba (lt_asymm hab)⟩
  -- both are in strict order, so it is enough that they have the same members
  apply List.Pairwise.eq_of_mem_iff (objects.items_sorted _)
  · exact List.pairwise_map.2 (objects.sorted_matching bucket lead)
  · intro x
    rw [mem_flat, List.mem_map, Prod.exists]

/-- **The entries of a listing by groups are a quotient** of those of the listing without groups. -/
theorem map_entry_items (objects : Memory.Objects) (bucket lead : String) :
    (objects.items ⟨bucket, lead, some (String.singleton Key.separator), none⟩).map
        (·.entry lead) =
      Entry.once (((objects.items ⟨bucket, lead, none, none⟩).map (·.entry lead)).map
        Entry.immediate) := by
  have hlead : ∀ x ∈ objects.matching bucket lead, lead.toList <+: x.1.toList :=
    fun x hx => (mem_matching.1 hx).2
  rw [items_eq, items_flat, entries_squash ?_ (pairwise_item objects bucket lead _)]
  · rw [List.map_map, List.map_map, List.map_map]
    refine congrArg Entry.once (List.map_congr_left ?_)
    intro x hx
    simp only [Function.comp_apply]
    exact entry_item (hlead x hx) x.2
  · intro i hi
    obtain ⟨x, hx, rfl⟩ := List.mem_map.1 hi
    exact lead_prefix_item (hlead x hx) _ x.2

end Items

namespace Storage

variable {setup : Setup} {objects : Memory.Objects} {path key : String} {o : Memory.StoredObject}
  {e : Entry}

/-! ## The entries of the two walks -/

/-- **The entries of a shallow walk are a quotient of those of the deep walk.** -/
theorem entries_eq_once (setup : Setup) (objects : Memory.Objects) (path : String) :
    setup.entries objects path false =
      Entry.once ((setup.entries objects path true).map Entry.immediate) :=
  map_entry_items objects setup.bucket (setup.roots.walkPrefix path)

/-- What a deep walk finds are the objects below the path, under what their keys have behind it. -/
theorem mem_entries_deep : e ∈ setup.entries objects path true ↔
    ∃ key o, objects.get? ⟨setup.bucket, key⟩ = some o ∧
      (setup.roots.walkPrefix path).toList <+: key.toList ∧
      e = .object (Key.relativeName (setup.roots.walkPrefix path) key) o.data.size
        (some o.updated) := by
  have hflat : objects.items (setup.query path true) = _ :=
    items_flat objects setup.bucket (setup.roots.walkPrefix path)
  rw [Setup.entries, hflat, List.map_map, List.mem_map, Prod.exists]
  constructor
  · rintro ⟨key, o, hmatching, rfl⟩
    obtain ⟨ho, hkey⟩ := Memory.Objects.mem_matching.1 hmatching
    exact ⟨key, o, ho, hkey, rfl⟩
  · rintro ⟨key, o, ho, hkey, rfl⟩
    exact ⟨key, o, Memory.Objects.mem_matching.2 ⟨ho, hkey⟩, rfl⟩

/-- No entry of a walk comes twice. -/
theorem nodup_entries (setup : Setup) (objects : Memory.Objects) (path : String)
    (recursive : Bool) : (setup.entries objects path recursive).Nodup := by
  have hitems : (objects.items (setup.query path recursive)).Nodup :=
    (objects.items_sorted _).imp fun hlt heq => ne_of_lt hlt (congrArg Listed.key heq)
  apply hitems.map_on
  intro i hi j hj heq
  have hlead : ∀ i ∈ objects.items (setup.query path recursive),
      (setup.roots.walkPrefix path).toList <+: i.key.toList := by
    intro i hi
    obtain ⟨key, o, hmatching, rfl⟩ := Memory.Objects.mem_items.1 hi
    exact lead_prefix_item (Memory.Objects.mem_matching.1 hmatching).2 _ o
  exact entry_inj (hlead i hi) (hlead j hj) heq

/-- **Every entry of the deep walk is covered once** by the shallow walk. -/
theorem existsUnique_covers (he : e ∈ setup.entries objects path true) :
    ∃! s, s ∈ setup.entries objects path false ∧ s.Covers e := by
  have hobject : ∀ x ∈ setup.entries objects path true, x.isDirectory = false := by
    intro x hx
    obtain ⟨key, o, -, -, rfl⟩ := mem_entries_deep.1 hx
    rfl
  rw [entries_eq_once]
  refine ⟨e.immediate, ⟨?_, e.covers_immediate⟩, ?_⟩
  · exact Entry.mem_once.2 (List.mem_map_of_mem he)
  · rintro s ⟨hs, hcovers⟩
    obtain ⟨x, hx, rfl⟩ := List.mem_map.1 (Entry.mem_once.1 hs)
    exact Entry.eq_immediate_of_covers (hobject x hx) (hobject e he) hcovers

/-- What the shallow walk shows covers something that the deep walk finds. -/
theorem exists_covered (hs : e ∈ setup.entries objects path false) :
    ∃ x ∈ setup.entries objects path true, e.Covers x := by
  rw [entries_eq_once] at hs
  obtain ⟨x, hx, rfl⟩ := List.mem_map.1 (Entry.mem_once.1 hs)
  exact ⟨x, hx, x.covers_immediate⟩

/-- **A shallow walk is the quotient of the deep walk.** No call is to fail, the keys of the bucket
are any texts, and pages have any size. Below any path, both walks come to their end, and however
their steps are scheduled, each of them finds the same entries every time:

- the shallow walk finds the immediate entries of what the deep walk finds, in the same order, with
  each directory where it comes first;
- the deep walk finds an entry for every stored object below the path, named by what its key has
  behind that of the path, and nothing else;
- no entry of the shallow walk comes twice, and every stored object below the path is covered by
  exactly one of them;
- every directory that the shallow walk finds covers a stored object below the path. -/
theorem shallow_walk_is_quotient {kind : String} {config : Config}
    (hvalid : config.validate = .ok ()) {w : Memory} (hw : w.Unfailing) (hsize : 1 ≤ w.pageSize)
    (path : String) :
    let env : Env Memory Memory.Writer := ⟨.ofConfig kind config, Memory.backend⟩
    let lead := env.setup.roots.walkPrefix path
    let entry (key : String) (o : Memory.StoredObject) : Entry :=
      .object (Key.relativeName lead key) o.data.size (some o.updated)
    ∃ m, connect kind Memory.backend config w = .ok m ∧ ∃ deep shallow,
      ((∃ m', m.Walks env path true (.ok deep) m') ∧
        ∀ found m', m.Walks env path true found m' → found = .ok deep) ∧
      ((∃ m', m.Walks env path false (.ok shallow) m') ∧
        ∀ found m', m.Walks env path false found m' → found = .ok shallow) ∧
      shallow = Entry.once (deep.map Entry.immediate) ∧ shallow.Nodup ∧
      (∀ e, e ∈ deep ↔ ∃ key o, w.objects.get? ⟨config.bucket, key⟩ = some o ∧
        lead.toList <+: key.toList ∧ e = entry key o) ∧
      (∀ key o, w.objects.get? ⟨config.bucket, key⟩ = some o → lead.toList <+: key.toList →
        ∃! s, s ∈ shallow ∧ s.Covers (entry key o)) ∧
      ∀ name, .directory name ∈ shallow → ∃ key o,
        w.objects.get? ⟨config.bucket, key⟩ = some o ∧ lead.toList <+: key.toList ∧
          (Entry.directory name).Covers (entry key o) := by
  intro env lead entry
  have hlists : Lists w.objects w.pageSize w := ⟨hw, rfl, rfl⟩
  obtain ⟨m, hconnect⟩ : ∃ m, connect kind Memory.backend config w = .ok m :=
    exists_connect kind hvalid hlists.create.2
  have hm := Settled.of_connect hconnect hw
  have hdeep : ∀ e, e ∈ env.setup.entries w.objects path true ↔
      ∃ key o, w.objects.get? ⟨config.bucket, key⟩ = some o ∧ lead.toList <+: key.toList ∧
        e = entry key o :=
    fun e => mem_entries_deep
  refine ⟨m, hconnect, env.setup.entries w.objects path true,
    env.setup.entries w.objects path false,
    ⟨hm.exists_walks _ hsize path true, fun found m' h => (hm.of_walks hsize h).1⟩,
    ⟨hm.exists_walks _ hsize path false, fun found m' h => (hm.of_walks hsize h).1⟩,
    entries_eq_once _ _ _, nodup_entries _ _ _ _, hdeep, ?_, ?_⟩
  · intro key o ho hkey
    exact existsUnique_covers ((hdeep _).2 ⟨key, o, ho, hkey, rfl⟩)
  · intro name hname
    obtain ⟨x, hx, hcovers⟩ := exists_covered hname
    obtain ⟨key, o, ho, hkey, rfl⟩ := (hdeep x).1 hx
    exact ⟨key, o, ho, hkey, hcovers⟩

/-- A key that is the path itself with a separator behind it, one with two separators behind the
path, and an object beside a directory of the same name with two objects in it. -/
theorem shallow_walk_is_quotient_of_directory :
    ∃ (config : Config) (w : Memory) (m m' : Machine Memory Memory.Writer) (shallow : List Entry),
      w.objects.keys config.bucket = ["p/", "p//x", "p/a", "p/a/b", "p/a/c", "q"] ∧
      w.pageSize = 2 ∧ connect "memory" Memory.backend config w = .ok m ∧
      m.Walks ⟨.ofConfig "memory" config, Memory.backend⟩ "p" false (.ok shallow) m' ∧
      shallow.map (fun e => (e.name, e.isDirectory)) =
        [("", false), ("/", true), ("a", false), ("a/", true)] := by
  let config : Config := { Config.standard with bucket := "b" }
  let o : Memory.StoredObject := ⟨.empty, default, ⟨none, []⟩⟩
  let objects : Memory.Objects :=
    ["p//x", "q", "p/a/c", "p/", "p/a", "p/a/b"].foldl (fun os key => os.insert ⟨"b", key⟩ o) .empty
  let w : Memory := { Memory.new 2 with objects }
  have hvalid : config.validate = .ok () := Config.validate_standard (by decide)
  have hw : w.Unfailing := by
    intro call n h
    cases h
  obtain ⟨m, hconnect, deep, shallow, ⟨⟨m₁, hdeep⟩, -⟩, ⟨⟨m₂, hshallow⟩, -⟩, hquotient, -⟩ :=
    @shallow_walk_is_quotient "memory" config hvalid w hw (by decide) "p"
  refine ⟨config, w, m, m₂, shallow, by decide +kernel, rfl, hconnect, hshallow, ?_⟩
  have hentries := ((Settled.of_connect hconnect hw).of_walks (by decide) hdeep).1
  rw [hquotient, Except.ok.inj hentries]
  decide +kernel

end Storage

end Depot
