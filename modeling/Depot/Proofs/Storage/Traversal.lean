import Depot.Proofs.Listing.Pages
import Depot.Proofs.Listing.Tree
import Depot.Proofs.Reference
import Depot.Proofs.Storage.Walking

/-!
# Walks and traversals

A walk that has the storage to itself goes through all items of its listing in order, whatever the
size of the pages (`Settled.of_walks`), and comes to its end. So what a traversal emits is told by
the tree of the listing (`Settled.of_visits`), and as every directory is deeper than the one before
it, a traversal ends (`Settled.exists_visits`). The main statement is `traversal_agrees`.
-/

set_option autoImplicit false

namespace Depot

open Memory (Objects)

namespace Storage

open Reference (Stores)

variable {setup : Setup} {objects : Objects} {size : Nat} {w : Memory} {c : Client}
  {path : String} {recursive : Bool} {q : Query} {visited : List Entry}

/-! ## A walk that has the storage to itself -/

/-- A store with these objects lists pages of a size, and no call on it is to fail. -/
structure Lists (objects : Objects) (size : Nat) (w : Memory) : Prop where
  unfailing : w.Unfailing
  objects : w.objects = objects
  pageSize : w.pageSize = size

theorem Lists.takeFailure (h : Lists objects size w) (call : Memory.Call) :
    w.takeFailure call = (w, false) :=
  Stores.takeFailure ⟨h.unfailing, rfl⟩ call

theorem Lists.create (h : Lists objects size w) :
    Lists objects size w.create.world ∧ w.create.result = .ok () := by
  simp only [Memory.create, h.takeFailure]
  exact ⟨⟨h.unfailing, h.objects, h.pageSize⟩, rfl⟩

theorem Lists.list (h : Lists objects size w) (c : Client) (q : Query) :
    Lists objects size (Memory.backend.list c q w).world ∧
      (Memory.backend.list c q w).result = .ok (objects.page size q) := by
  rw [Memory.list_eq (h.unfailing .list), h.objects, h.pageSize]
  exact ⟨⟨h.unfailing, rfl, rfl⟩, rfl⟩

theorem Setup.query_lead (setup : Setup) (path : String) (recursive : Bool) :
    (setup.query path recursive).lead = setup.roots.walkPrefix path := by
  rw [Setup.query]

theorem Lists.length_served_create (h : Lists objects size w) :
    w.create.world.served.length = w.served.length := by
  simp only [Memory.create, h.takeFailure, Answer.now]

/-- Every call is counted. -/
theorem Lists.length_served_list (h : Lists objects size w) (c : Client) (q : Query) :
    (Memory.backend.list c q w).world.served.length = w.served.length + 1 := by
  rw [Memory.list_eq (h.unfailing .list)]
  rfl

/-- The pages of a store of objects, of which `n` are asked for until there are none left. -/
def pagerOf (setup : Setup) (objects : Objects) (size n : Nat) (path : String)
    (recursive : Bool) : Pager (storing setup) path recursive id where
  Remain w token pages := Lists objects size w ∧ w.served.length + pages.length = n ∧
    objects.Remain size (setup.query path recursive) token pages
  valid := storing_isValid setup
  create := by
    rintro w token pages ⟨hw, hserved, hremain⟩
    obtain ⟨hcreated, hresult⟩ := hw.create
    refine ⟨hresult, hcreated, ?_, hremain⟩
    exact (congrArg (· + pages.length) hw.length_served_create).trans hserved
  last := fun h => h.2.2.cons.2.1
  full := fun h => h.2.2.cons.2.2.1
  list := by
    rintro w token first pages c ⟨hw, hserved, hremain⟩
    obtain ⟨hfirst, -, -, hlater⟩ := hremain.cons
    obtain ⟨hlists, hresult⟩ := hw.list c { setup.query path recursive with token := token }
    rw [← hfirst] at hresult
    refine ⟨⟨first, hresult, rfl, rfl⟩, hlists, ?_, hlater⟩
    rw [hw.length_served_list, ← hserved, List.length_cons]
    omega

/-! ## Walks -/

section Walks

variable {m m' : Machine Memory Memory.Writer} {found : Except StoreError (List Entry)}

/-- A storage in which nothing goes on, over a store with these objects. -/
structure Settled (objects : Objects) (size : Nat) (m : Machine Memory Memory.Writer) : Prop where
  resting : Resting m
  lists : Lists objects size m.world

theorem Settled.of_connect {kind : String} {config : Config}
    (h : connect kind Memory.backend config w = .ok m) (hw : w.Unfailing) :
    Settled w.objects w.pageSize m := by
  obtain ⟨-, -, -, hworld, -, -⟩ := connect_eq_ok h
  refine ⟨.of_connect h, ?_⟩
  rw [hworld]
  exact (Lists.create ⟨hw, rfl, rfl⟩).1

/-- What a walk finds: the entries of all items of its listing. -/
def Setup.entries (setup : Setup) (objects : Objects) (path : String) (recursive : Bool) :
    List Entry :=
  (objects.items (setup.query path recursive)).map (·.entry (setup.roots.walkPrefix path))

/-- **A walk finds what is listed**, with as many calls as there are pages, whatever happens in
between, and nothing goes on afterwards. -/
theorem Settled.of_walks_cuts {pages : List Page} (h : Settled objects size m)
    (hpages : Memory.Cuts size (objects.items (setup.query path recursive)) pages)
    (hwalks : m.Walks (storing setup) path recursive found m') :
    found = .ok (setup.entries objects path recursive) ∧ Settled objects size m' ∧
      m'.world.served.length = m.world.served.length + pages.length := by
  obtain ⟨⟨entries, rfl, hentries⟩, ⟨token, hlists, hserved, -⟩, hresting⟩ :=
    (pagerOf setup objects size (m.world.served.length + pages.length) path recursive).of_walks
      hpages.ne_nil h.resting ⟨h.lists, rfl, .of_cuts hpages⟩ hwalks
  rw [hpages.flatMap_items, Setup.query_lead, List.map_id] at hentries
  exact ⟨congrArg Except.ok hentries, ⟨hresting, hlists⟩, hserved⟩

theorem Settled.of_walks (h : Settled objects size m) (hsize : 1 ≤ size)
    (hwalks : m.Walks (storing setup) path recursive found m') :
    found = .ok (setup.entries objects path recursive) ∧ Settled objects size m' := by
  obtain ⟨pages, hpages⟩ := Memory.exists_cuts hsize (objects.items (setup.query path recursive))
  obtain ⟨hfound, hm', -⟩ := h.of_walks_cuts hpages hwalks
  exact ⟨hfound, hm'⟩

theorem Settled.exists_walks (h : Settled objects size m) (setup : Setup) (hsize : 1 ≤ size)
    (path : String) (recursive : Bool) : ∃ m',
      m.Walks (storing setup) path recursive (.ok (setup.entries objects path recursive)) m' := by
  obtain ⟨pages, hpages⟩ := Memory.exists_cuts hsize (objects.items (setup.query path recursive))
  obtain ⟨entries, m', hwalks⟩ :=
    (pagerOf setup objects size (m.world.served.length + pages.length) path
      recursive).exists_walks hpages.ne_nil h.resting ⟨h.lists, rfl, .of_cuts hpages⟩
  rw [(h.of_walks hsize hwalks).1] at hwalks
  exact ⟨m', hwalks⟩

end Walks

/-! ## Traversals -/

section Traversals

variable {m m' : Machine Memory Memory.Writer} {found emitted : Except StoreError (List Entry)}
  {root g : String} {l : List Listed} {i : Listed}

/-- What is emitted for some items that were found by a walk of a path. -/
def Setup.emission (setup : Setup) (objects : Objects) (path : String) (l : List Listed) :
    List Entry :=
  (l.flatMap (objects.expand setup.bucket)).map fun i =>
    (i.entry (setup.roots.walkPrefix path)).joined path

theorem emission_cons (setup : Setup) (objects : Objects) (path : String) (i : Listed)
    (l : List Listed) : setup.emission objects path (i :: l) =
      setup.emission objects path [i] ++ setup.emission objects path l := by
  rw [Setup.emission, List.flatMap_cons, List.map_append, Setup.emission, Setup.emission,
    List.flatMap_singleton]

/-- A recursive walk finds what is emitted for all items that the other walk finds. -/
theorem emission_items (setup : Setup) (objects : Objects) (path : String) :
    setup.emission objects path (objects.items (setup.query path false)) =
      (setup.entries objects path true).map (·.joined path) := by
  rw [Setup.emission, Setup.entries, List.map_map]
  exact congrArg _ (objects.items_eq_flatMap setup.bucket (setup.roots.walkPrefix path)
    (String.singleton Key.separator)).symm

/-- A group that a walk of a path finds is below the path by one segment, and has a key. -/
theorem exists_directory (hroot : setup.roots.primary = Key.normalize root)
    (hkeys : ∀ key ∈ objects.keys setup.bucket, g.toList <+: key.toList → Key.IsNormal key)
    (hg : .group g ∈ objects.items (setup.query path false)) :
    ∃ s, Key.IsSegment s ∧
      g = setup.roots.walkPrefix path ++ String.ofList (s ++ [Key.separator]) ∧
      ∃ key ∈ objects.keys setup.bucket, g.toList <+: key.toList := by
  obtain ⟨key, o, hmatching, hitem⟩ := Objects.mem_items.1 hg
  rw [Setup.query_lead] at hmatching hitem
  obtain ⟨hget, hlead⟩ := Objects.mem_matching.1 hmatching
  have hkey : key ∈ objects.keys setup.bucket :=
    List.mem_map.2 ⟨(key, o), Objects.mem_ofBucket.2 hget, rfl⟩
  rcases Objects.item_cases hlead (setup.query path false).delimiter o with
    ⟨g', hgroup, hprefix, hitem'⟩ | ⟨-, hitem'⟩
  · rw [hitem'] at hitem
    cases hitem
    obtain ⟨s, hs, rfl⟩ := Key.exists_segment_of_isGroup (Key.toList_walkPrefix hroot path)
      ((Key.canonical_resolve _).append (Key.canonical_resolve _)) hgroup
      (hkeys key hkey hprefix) hprefix
    exact ⟨s, hs, rfl, key, hkey, hprefix⟩
  · rw [hitem'] at hitem
    cases hitem

/-- What is emitted below a directory is what is emitted for its group. -/
theorem emission_directory (hroot : setup.roots.primary = Key.normalize root) {s : Segment}
    (hs : Key.IsSegment s)
    (hg : g = setup.roots.walkPrefix path ++ String.ofList (s ++ [Key.separator])) :
    setup.emission objects (path ++ "/" ++ String.ofList (s ++ [Key.separator]))
        (objects.items
          (setup.query (path ++ "/" ++ String.ofList (s ++ [Key.separator])) false)) =
      setup.emission objects path [.group g] := by
  have hlead : setup.roots.walkPrefix (path ++ "/" ++ String.ofList (s ++ [Key.separator])) = g :=
    (Key.walkPrefix_directory hroot hs path).trans hg.symm
  have hflat : objects.items
      (setup.query (path ++ "/" ++ String.ofList (s ++ [Key.separator])) true) =
        objects.expand setup.bucket (.group g) := by
    rw [Setup.query, hlead]
    rfl
  rw [emission_items, Setup.entries, hflat, hlead, List.map_map, Setup.emission,
    List.flatMap_singleton]
  refine List.map_congr_left fun i hi => ?_
  obtain ⟨key, o, hkey, rfl⟩ := Objects.mem_flat.1 hi
  obtain ⟨rest, hrest⟩ := (Objects.mem_matching.1 hkey).2
  have hkey' : key = g ++ String.ofList rest := by
    rw [← String.toList_inj, String.toList_append, String.toList_ofList, hrest]
  subst hkey'
  -- the name below the path is that of the directory and that in the directory
  simp only [Function.comp_apply, Listed.entry, Entry.joined, Memory.StoredObject.attributes,
    Key.relativeName_append, Key.join_join hs]
  rw [hg, String.append_assoc, Key.relativeName_append]

/-- **What a traversal emits.** Whatever happens in between, the items that were found are gone
through without an error, and what is emitted is what the tree of the listing tells. -/
theorem Settled.of_visits (hroot : setup.roots.primary = Key.normalize root)
    (hkeys : ∀ key ∈ objects.keys setup.bucket, Key.IsNormal key) (hsize : 1 ≤ size)
    (hvisits : m.Visits (storing setup) path found emitted m') (h : Settled objects size m)
    (hl : ∀ i ∈ l, i ∈ objects.items (setup.query path false))
    (hfound : found = .ok (l.map (·.entry (setup.roots.walkPrefix path)))) :
    emitted = .ok (setup.emission objects path l) ∧ Settled objects size m' := by
  induction hvisits generalizing l with
  | failed => cases hfound
  | nil =>
    obtain rfl := List.map_eq_nil_iff.1 (Except.ok.inj hfound).symm
    exact ⟨rfl, h⟩
  | object _ ih =>
    obtain ⟨i, l, rfl, hi, hrest⟩ := List.map_eq_cons_iff.1 (Except.ok.inj hfound).symm
    obtain ⟨rfl, hm'⟩ :=
      ih h (fun j hj => hl j (List.mem_cons_of_mem i hj)) (congrArg Except.ok hrest.symm)
    refine ⟨?_, hm'⟩
    cases i with
    | group g => cases hi
    | object a =>
      rw [← hi]
      rfl
  | @directory m m₁ m₂ m' path name rest inner found emitted hwalks _ _ ih₁ ih₂ =>
    -- first what is below the directory, then the items that follow it
    obtain ⟨i, l, rfl, hi, hrest⟩ := List.map_eq_cons_iff.1 (Except.ok.inj hfound).symm
    cases i with
    | object a => cases hi
    | group g =>
      obtain ⟨s, hs, hg, -⟩ :=
        exists_directory hroot (fun key hkey _ => hkeys key hkey) (hl _ List.mem_cons_self)
      have hname : name = String.ofList (s ++ [Key.separator]) := by
        rw [Listed.entry, hg, Key.relativeName_append] at hi
        exact (Entry.directory.inj hi).symm
      subst hname
      obtain ⟨rfl, hm₁⟩ := h.of_walks hsize hwalks
      obtain ⟨hinner, hm₂⟩ := ih₁ hm₁ (fun j hj => hj) rfl
      obtain ⟨rfl, hm'⟩ :=
        ih₂ hm₂ (fun j hj => hl j (List.mem_cons_of_mem _ hj)) (congrArg Except.ok hrest.symm)
      refine ⟨congrArg Except.ok ?_, hm'⟩
      show inner ++ setup.emission objects path l = _
      rw [Except.ok.inj hinner, emission_directory hroot hs hg]
      exact (emission_cons setup objects path (.group g) l).symm
  | @broken m m₁ m' path name rest found e hwalks _ ih =>
    -- below a directory nothing fails either
    obtain ⟨rfl, hm₁⟩ := h.of_walks hsize hwalks
    cases (ih hm₁ (fun j hj => hj) rfl).1

/-- **Every traversal can be gone on with to its end.** Directories are deeper and deeper, and no
deeper than the keys. -/
theorem Settled.exists_visits (hroot : setup.roots.primary = Key.normalize root)
    (hkeys : ∀ key ∈ objects.keys setup.bucket, Key.IsNormal key) (hsize : 1 ≤ size) {bound : Nat}
    (hbound : ∀ key ∈ objects.keys setup.bucket, key.toList.length ≤ bound)
    (h : Settled objects size m) (hl : ∀ i ∈ l, i ∈ objects.items (setup.query path false)) :
    ∃ emitted m', m.Visits (storing setup) path
      (.ok (l.map (·.entry (setup.roots.walkPrefix path)))) emitted m' := by
  -- on how much deeper the keys can be
  induction hdepth : bound - (setup.roots.walkPrefix path).toList.length using Nat.strongRecOn
    generalizing path m l with
  | ind depth ihdepth =>
    induction l generalizing m with
    | nil => exact ⟨_, m, .nil⟩
    | cons i l ih =>
      have hrest : ∀ j ∈ l, j ∈ objects.items (setup.query path false) :=
        fun j hj => hl j (List.mem_cons_of_mem i hj)
      cases i with
      | object a =>
        obtain ⟨emitted, m', hvisits⟩ := ih h hrest
        exact ⟨_, m', .object hvisits⟩
      | group g =>
        obtain ⟨s, hs, hg, key, hkey, hprefix⟩ :=
          exists_directory hroot (fun key hkey _ => hkeys key hkey) (hl _ List.mem_cons_self)
        have hlead : setup.roots.walkPrefix
            (path ++ "/" ++ String.ofList (s ++ [Key.separator])) = g :=
          (Key.walkPrefix_directory hroot hs path).trans hg.symm
        -- the directory is deeper, and there is a key in it
        have hdeeper : bound - g.toList.length < depth := by
          have hlong := Nat.le_trans hprefix.length_le (hbound key hkey)
          have hlength : g.toList.length =
              (setup.roots.walkPrefix path).toList.length + (s.length + 1) := by
            rw [hg, String.toList_append, List.length_append, String.toList_ofList,
              List.length_append]
            rfl
          omega
        obtain ⟨m₁, hwalks⟩ := h.exists_walks setup hsize
          (path ++ "/" ++ String.ofList (s ++ [Key.separator])) false
        have hm₁ := (h.of_walks hsize hwalks).2
        obtain ⟨emitted₁, m₂, hinner⟩ := ihdepth _ hdeeper hm₁ (fun j hj => hj) (by rw [hlead])
        obtain ⟨rfl, hm₂⟩ := hm₁.of_visits hroot hkeys hsize hinner (fun j hj => hj) rfl
        obtain ⟨emitted, m', houter⟩ := ih hm₂ hrest
        have hentry : (Listed.group g).entry (setup.roots.walkPrefix path) =
            .directory (String.ofList (s ++ [Key.separator])) := by
          rw [Listed.entry, hg, Key.relativeName_append]
        rw [List.map_cons, hentry]
        exact ⟨_, m', .directory hwalks hinner houter⟩

/-- **A traversal agrees with the recursive walk.** The keys of the bucket are normal, and no call is
to fail. Then, below any path and with pages of any size, the recursive walk comes to an end, and so
does the traversal that walks each directory for itself. However the steps are scheduled, the walk
finds the same entries, and what the traversal emits is these entries in the same order, with all
names joined onto the paths that were walked. -/
theorem traversal_agrees {kind : String} {config : Config} (hvalid : config.validate = .ok ())
    {w : Memory} (hw : w.Unfailing) (hsize : 1 ≤ w.pageSize)
    (hkeys : ∀ key ∈ w.objects.keys config.bucket, Key.IsNormal key) (path : String) :
    let env : Env Memory Memory.Writer := ⟨.ofConfig kind config, Memory.backend⟩
    ∃ m, connect kind Memory.backend config w = .ok m ∧ ∃ entries,
      (∃ m', m.Walks env path true (.ok entries) m') ∧
      (∀ found m', m.Walks env path true found m' → found = .ok entries) ∧
      (∃ m', m.Traverses env path (.ok (entries.map (·.joined path))) m') ∧
      ∀ emitted m', m.Traverses env path emitted m' →
        emitted = .ok (entries.map (·.joined path)) := by
  intro env
  have hlists : Lists w.objects w.pageSize w := ⟨hw, rfl, rfl⟩
  obtain ⟨m, hconnect⟩ : ∃ m, connect kind Memory.backend config w = .ok m :=
    exists_connect kind hvalid hlists.create.2
  have hm := Settled.of_connect hconnect hw
  have hroot : (Setup.ofConfig kind config).roots.primary = Key.normalize config.path := rfl
  have hall : ∀ emitted m', m.Traverses env path emitted m' → emitted =
      .ok (((Setup.ofConfig kind config).entries w.objects path true).map (·.joined path)) := by
    rintro emitted m' ⟨found, m₁, hwalks, hvisits⟩
    obtain ⟨rfl, hm₁⟩ := hm.of_walks hsize hwalks
    rw [(hm₁.of_visits hroot hkeys hsize hvisits (fun j hj => hj) rfl).1, emission_items]
  refine ⟨m, hconnect, (Setup.ofConfig kind config).entries w.objects path true,
    hm.exists_walks _ hsize path true, fun found m' h => (hm.of_walks hsize h).1, ?_, hall⟩
  obtain ⟨bound, hbound⟩ : ∃ bound, ∀ key ∈ w.objects.keys config.bucket,
      key.toList.length ≤ bound := by
    refine ⟨((w.objects.keys config.bucket).map (·.toList.length)).sum, fun key hkey => ?_⟩
    exact List.single_le_sum (fun _ _ => Nat.zero_le _) _ (List.mem_map.2 ⟨key, hkey, rfl⟩)
  obtain ⟨m₁, hwalks⟩ := hm.exists_walks (.ofConfig kind config) hsize path false
  obtain ⟨emitted, m', hvisits⟩ :=
    (hm.of_walks hsize hwalks).2.exists_visits hroot hkeys hsize hbound (fun j hj => hj)
  have htraverses : m.Traverses env path emitted m' := ⟨_, m₁, hwalks, hvisits⟩
  refine ⟨m', ?_⟩
  rw [← hall emitted m' htraverses]
  exact htraverses

/-- An object beside a directory of the same name, another one that is sorted between the two, and a
directory in the directory, with one item on each page. -/
theorem traversal_agrees_of_directory :
    ∃ (config : Config) (w : Memory) (m m' : Machine Memory Memory.Writer) (emitted : List Entry),
      w.objects.keys config.bucket = ["d", "d-e", "d/x/y"] ∧ w.pageSize = 1 ∧
      connect "memory" Memory.backend config w = .ok m ∧
      m.Traverses ⟨.ofConfig "memory" config, Memory.backend⟩ "q/.." (.ok emitted) m' ∧
      emitted.map (·.name) = ["d", "d-e", "d/x/y"] := by
  let config : Config := { Config.standard with bucket := "b" }
  let o : Memory.StoredObject := ⟨.empty, default, ⟨none, []⟩⟩
  let objects : Objects := ["d/x/y", "d-e", "d"].foldl (fun os key => os.insert ⟨"b", key⟩ o) .empty
  let w : Memory := { Memory.new 1 with objects }
  have hvalid : config.validate = .ok () := Config.validate_standard (by decide)
  have hw : w.Unfailing := by
    intro call n h
    cases h
  have hlisted : w.objects.keys config.bucket = ["d", "d-e", "d/x/y"] := by decide +kernel
  have hkeys : ∀ key ∈ w.objects.keys config.bucket, Key.IsNormal key := by
    rw [hlisted]
    decide
  obtain ⟨m, hconnect, entries, ⟨m₁, hwalks⟩, -, ⟨m', htraverses⟩, -⟩ :=
    @traversal_agrees "memory" config hvalid w hw (Nat.le_refl 1) hkeys "q/.."
  refine ⟨config, w, m, m', _, hlisted, rfl, hconnect, htraverses, ?_⟩
  have hentries := ((Settled.of_connect hconnect hw).of_walks (by decide) hwalks).1
  rw [Except.ok.inj hentries]
  decide +kernel

end Traversals

end Storage

end Depot
