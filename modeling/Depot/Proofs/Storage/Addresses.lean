import Depot.Proofs.Storage.Traversal

/-!
# Addresses of what is visited

A key that an upload or a copy writes is made of segments (`Writes.exists_segments`). If a walk of a
path finds it, its segments are those of the path and more (`exists_more`), and these are its name,
so that path and name lead back to it (`address_entry`). The main statement is
`visited_entries_addressed`.
-/

set_option autoImplicit false

namespace Depot

/-! ## Keys below a path -/

namespace Key

variable {ls ss more : List Segment} {root key : String}

theorem toList_render_append (ls : List Segment) (hmore : more ≠ []) :
    (render (ls ++ more)).toList = trunk ls ++ (render more).toList := by
  by_cases hls : ls = []
  · subst hls
    rfl
  · rw [toList_render, intercalate_append _ hls hmore, ← toList_render_push hls, String.toList_push,
      toList_render, toList_render]

/-- **A key that begins with some segments** has more of them behind, and they are written as what
follows in the key. -/
theorem exists_more (hls : Canonical ls) (hss : Canonical ss)
    (h : trunk ls <+: (render ss).toList) :
    ∃ more, Canonical more ∧ ss = ls ++ more ∧
      (render ss).toList = trunk ls ++ (render more).toList := by
  by_cases hne : ls = []
  · subst hne
    exact ⟨ss, hss, rfl, rfl⟩
  · -- the separator behind the last segment keeps names apart that only begin alike
    rw [← toList_render_push hne] at h
    obtain ⟨more, hmore, rfl⟩ := (render_push_prefix_iff hls hne hss).1 h
    refine ⟨more, fun s hs => hss s (List.mem_append_right ls hs), rfl, ?_⟩
    exact toList_render_append ls hmore

/-- A key of one segment or more is normal. -/
theorem isNormal_render (h : Canonical ss) (hne : ss ≠ []) : IsNormal (render ss) := by
  -- a key falls into the segments that it was made of
  have hpieces : pieces (· == separator) (render ss).toList = ss := by
    rw [toList_render, pieces_eq_splitOnP]
    exact splitOn_render h hne
  intro s hs
  rw [hpieces] at hs
  obtain ⟨hnil, hdot, hdots, hwhole⟩ := h s hs
  refine ⟨hnil, hdot, hdots, fun hback => ?_⟩
  cases hwhole _ hback

/-- The key of a path that goes on with a key has the segments of both. -/
theorem primaryKey_join {roots : Roots} (hroot : roots.primary = normalize root) (path : String)
    (h : Canonical more) : roots.primaryKey (path ++ "/" ++ render more) =
      render (resolve [] root.toList ++ resolve [] path.toList ++ more) := by
  rw [Roots.primaryKey, hroot, below_normalize, resolve_join, foldl_pieces_render h,
    List.append_assoc]

/-- **What is behind the path of a directory.** The key of a path that goes on behind another path
begins with all that the keys below that one begin with. -/
theorem primaryKey_eq_append {roots : Roots} {path rel : String}
    (hroot : roots.primary = normalize root)
    (hrel : resolve [] rel.toList = resolve [] path.toList ++ more) (hmore : more ≠ []) :
    roots.primaryKey rel = roots.walkPrefix path ++ render more := by
  rw [← String.toList_inj, String.toList_append, toList_walkPrefix hroot, Roots.primaryKey, hroot,
    below_normalize, hrel, ← List.append_assoc, toList_render_append _ hmore]

end Key

/-- Keys that are written are made of segments, below either root. -/
theorem Roots.Writes.exists_segments {config : Config} {key : String}
    (h : config.roots.Writes key) : ∃ ss, Key.Canonical ss ∧ key = Key.render ss := by
  -- root and path are resolved each for itself, so that neither can take back the other
  have hbelow : ∀ root path, ∃ ss, Key.Canonical ss ∧
      Key.below (Key.normalize root) path = Key.render ss := by
    intro root path
    refine ⟨_, ?_, Key.below_normalize root path⟩
    exact (Key.canonical_resolve _).append (Key.canonical_resolve _)
  obtain ⟨path, rfl | hdisk⟩ := h
  · exact hbelow config.path path
  · cases hroot : config.diskPath with
    | none =>
      rw [Roots.diskKey, Config.roots, Roots.ofPaths, hroot] at hdisk
      cases hdisk
    | some root =>
      rw [Roots.diskKey, Config.roots, Roots.ofPaths, hroot] at hdisk
      rw [← Except.ok.inj hdisk]
      exact hbelow root path

/-- A group has its delimiter in it. -/
theorem Memory.Objects.IsGroup.ne_nil {lead d g : String} (h : IsGroup lead (some d) g)
    (hd : d.toList ≠ []) : g.toList ≠ [] := by
  obtain ⟨d, f, hd', hf, rfl⟩ := h
  cases hd'
  obtain ⟨front, rest, -, rfl, -⟩ := upToFirst_eq_some_iff.1 hf
  simp [hd]

namespace Storage

open Memory (Objects)

variable {setup : Setup} {objects : Objects} {path root key : String} {recursive : Bool}
  {i : Listed}

/-! ## Items -/

/-- **The name of an object leads back to its key.** -/
theorem address_object {ss : List Segment} (hroot : setup.roots.primary = Key.normalize root)
    (hss : Key.Canonical ss)
    (hlead : (setup.roots.walkPrefix path).toList <+: (Key.render ss).toList) :
    setup.roots.primaryKey
        (path ++ "/" ++ Key.relativeName (setup.roots.walkPrefix path) (Key.render ss)) =
      Key.render ss := by
  rw [Key.toList_walkPrefix hroot] at hlead
  obtain ⟨more, hmore, hsegments, hkey⟩ :=
    Key.exists_more ((Key.canonical_resolve _).append (Key.canonical_resolve _)) hss hlead
  have hsplit : Key.render ss = setup.roots.walkPrefix path ++ Key.render more := by
    rw [← String.toList_inj, hkey, String.toList_append, Key.toList_walkPrefix hroot]
  rw [hsplit, Key.relativeName_append, Key.primaryKey_join hroot path hmore, ← hsegments, ← hsplit]

/-- **What is visited can be addressed.** The path that was walked and the name of an entry lead to
the key of its item. -/
theorem address_entry (hroot : setup.roots.primary = Key.normalize root)
    (hkeys : ∀ key ∈ objects.keys setup.bucket, ∃ ss, Key.Canonical ss ∧ key = Key.render ss)
    (hi : i ∈ objects.items (setup.query path recursive)) :
    setup.roots.address path (i.entry (setup.roots.walkPrefix path)) = i.key := by
  obtain ⟨key, o, hmatching, hitem⟩ := Objects.mem_items.1 hi
  rw [Setup.query_lead] at hmatching hitem
  obtain ⟨hget, hlead⟩ := Objects.mem_matching.1 hmatching
  have hkey : key ∈ objects.keys setup.bucket :=
    List.mem_map.2 ⟨(key, o), Objects.mem_ofBucket.2 hget, rfl⟩
  obtain ⟨ss, hss, rfl⟩ := hkeys key hkey
  rcases Objects.item_cases hlead (setup.query path recursive).delimiter o with
    ⟨g, hgroup, -, hitem'⟩ | ⟨-, hitem'⟩
  · obtain rfl := hitem.symm.trans hitem'
    cases recursive with
    | true =>
      -- without a delimiter there are no groups
      obtain ⟨d, -, hd, -⟩ := hgroup
      cases hd
    | false =>
      have hnormal : ∀ key ∈ objects.keys setup.bucket, g.toList <+: key.toList →
          Key.IsNormal key := by
        intro key hkey hprefix
        obtain ⟨ss, hss, rfl⟩ := hkeys key hkey
        refine Key.isNormal_render hss ?_
        rintro rfl
        exact Objects.IsGroup.ne_nil (d := String.singleton Key.separator) hgroup (by decide)
          (List.prefix_nil.1 hprefix)
      -- a group is all that is below one more segment, and a directory is walked with that segment
      obtain ⟨s, hs, hg, -⟩ := exists_directory hroot hnormal hi
      show setup.roots.walkPrefix
        (path ++ "/" ++ Key.relativeName (setup.roots.walkPrefix path) g) = g
      rw [hg, Key.relativeName_append]
      exact Key.walkPrefix_directory hroot hs path
  · obtain rfl := hitem.symm.trans hitem'
    exact address_object hroot hss hlead

theorem name_entry (lead : String) (i : Listed) :
    (i.entry lead).name = Key.relativeName lead i.key := by
  cases i with
  | group key => rfl
  | object a => rfl

/-- **An object is found by its path.** If its path goes on behind the path that is walked, the walk
visits it under the segments that follow. -/
theorem mem_entries {rel : String} {o : Memory.StoredObject} {more : List Segment}
    (hroot : setup.roots.primary = Key.normalize root)
    (hget : objects.get? ⟨setup.bucket, setup.roots.primaryKey rel⟩ = some o)
    (hrel : Key.resolve [] rel.toList = Key.resolve [] path.toList ++ more) (hmore : more ≠ []) :
    setup.roots.primaryKey rel = setup.roots.walkPrefix path ++ Key.render more ∧
      .object (Key.render more) o.data.size (some o.updated) ∈
        setup.entries objects path true := by
  have hkey := Key.primaryKey_eq_append hroot hrel hmore
  refine ⟨hkey, List.mem_map.2 ⟨.object (o.attributes (setup.roots.primaryKey rel)), ?_, ?_⟩⟩
  · refine Objects.mem_items.2 ⟨_, o, Objects.mem_matching.2 ⟨hget, ?_⟩, rfl⟩
    rw [hkey, Setup.query_lead, String.toList_append]
    exact List.prefix_append _ _
  · rw [Listed.entry, Memory.StoredObject.attributes, hkey, Key.relativeName_append]

/-! ## Walks -/

section Walks

variable {size : Nat} {m m' : Machine Memory Memory.Writer} {found : Except StoreError (List Entry)}
  {rel : String} {o : Memory.StoredObject} {more : List Segment}

/-- **A walk visits what can be addressed.** The entries are those of items that stand for what is
stored, and lead to the keys of these items. -/
theorem Settled.addresses (h : Settled objects size m) (hsize : 1 ≤ size)
    (hroot : setup.roots.primary = Key.normalize root)
    (hkeys : ∀ key ∈ objects.keys setup.bucket, ∃ ss, Key.Canonical ss ∧ key = Key.render ss)
    (path : String) (recursive : Bool) : ∃ items : List Listed,
      (∃ m', m.Walks (storing setup) path recursive
        (.ok (items.map (·.entry (setup.roots.walkPrefix path)))) m') ∧
      (∀ found m', m.Walks (storing setup) path recursive found m' →
        found = .ok (items.map (·.entry (setup.roots.walkPrefix path)))) ∧
      ∀ i ∈ items,
        (∃ key o, objects.get? ⟨setup.bucket, key⟩ = some o ∧
          Memory.StandsFor (setup.query path recursive) key o i) ∧
        setup.roots.address path (i.entry (setup.roots.walkPrefix path)) = i.key := by
  refine ⟨objects.items (setup.query path recursive), h.exists_walks setup hsize path recursive,
    ?_, ?_⟩
  · intro found m' hwalks
    exact (h.of_walks hsize hwalks).1
  · intro i hi
    refine ⟨?_, address_entry hroot hkeys hi⟩
    obtain ⟨key, o, hmatching, rfl⟩ := Objects.mem_items.1 hi
    obtain ⟨hget, hlead⟩ := Objects.mem_matching.1 hmatching
    exact ⟨key, o, hget, (Objects.standsFor_iff hlead).2 rfl⟩

/-- A walk of a path in front of that of an object visits the object. -/
theorem Settled.visits (h : Settled objects size m) (hsize : 1 ≤ size)
    (hroot : setup.roots.primary = Key.normalize root)
    (hget : objects.get? ⟨setup.bucket, setup.roots.primaryKey rel⟩ = some o)
    (hrel : Key.segments (Key.normalize rel) = Key.segments (Key.normalize path) ++ more)
    (hmore : more ≠ []) (hwalks : m.Walks (storing setup) path true found m') :
    ∃ entries, found = .ok entries ∧
      .object (Key.render more) o.data.size (some o.updated) ∈ entries ∧
      setup.roots.primaryKey (path ++ "/" ++ Key.render more) = setup.roots.primaryKey rel ∧
      setup.roots.primaryKey rel = setup.roots.walkPrefix path ++ Key.render more := by
  rw [Key.normalize, Key.normalize, Key.segments_render (Key.canonical_resolve _),
    Key.segments_render (Key.canonical_resolve _)] at hrel
  obtain ⟨hkey, hmem⟩ := mem_entries hroot hget hrel hmore
  have hcanonical : Key.Canonical more := by
    intro s hs
    refine Key.canonical_resolve rel.toList s ?_
    rw [hrel]
    exact List.mem_append_right _ hs
  refine ⟨_, (h.of_walks hsize hwalks).1, hmem, ?_, hkey⟩
  rw [Key.primaryKey_join hroot path hcanonical, List.append_assoc, ← hrel, Roots.primaryKey, hroot,
    Key.below_normalize]

/-- The walk of the whole storage visits an object under its normalized path, and under no other
name. -/
theorem Settled.visits_all (h : Settled objects size m) (hsize : 1 ≤ size)
    (hroot : setup.roots.primary = Key.normalize root)
    (hkeys : ∀ key ∈ objects.keys setup.bucket, ∃ ss, Key.Canonical ss ∧ key = Key.render ss)
    (hget : objects.get? ⟨setup.bucket, setup.roots.primaryKey rel⟩ = some o)
    (hrel : Key.normalize rel ≠ "") (hwalks : m.Walks (storing setup) "" true found m') :
    ∃ entries, found = .ok entries ∧
      .object (Key.normalize rel) o.data.size (some o.updated) ∈ entries ∧
      ∀ e ∈ entries, setup.roots.address "" e = setup.roots.primaryKey rel →
        e.name = Key.normalize rel := by
  have hcanonical := Key.canonical_resolve rel.toList
  have hsegments : Key.segments (Key.normalize rel) = Key.resolve [] rel.toList :=
    Key.segments_render hcanonical
  have hmore : Key.resolve [] rel.toList ≠ [] := by
    intro hnil
    rw [Key.normalize, hnil] at hrel
    exact hrel rfl
  have hwhole : Key.segments (Key.normalize rel) =
      Key.segments (Key.normalize "") ++ Key.resolve [] rel.toList := hsegments
  obtain ⟨entries, hfound, hmem, -, hkey⟩ := h.visits hsize hroot hget hwhole hmore hwalks
  refine ⟨entries, hfound, hmem, ?_⟩
  intro e he haddress
  -- the name of an entry is what the key of its item has behind the root
  obtain rfl := Except.ok.inj (hfound.symm.trans (h.of_walks hsize hwalks).1)
  obtain ⟨i, hi, rfl⟩ := List.mem_map.1 he
  rw [address_entry hroot hkeys hi] at haddress
  rw [name_entry, haddress, hkey, Key.relativeName_append]
  rfl

/-- **What a walk visits can be addressed, and what is stored is visited.** All keys of the bucket
are ones that uploads and copies write. Then the walk of any path, of either kind, visits the
entries of some items, however its steps are scheduled, and

- each item stands for a stored object, or for a group of them;
- the path and the name of its entry lead to the key of the object, or to what the keys of the
  group begin with.

Conversely, of an object that is stored under a path,

- the recursive walk of the whole storage visits it under its normalized path and no other name, if
  that is not empty;
- the recursive walk of any path whose segments are followed by others in that path visits it under
  these others, and the path and that name lead to its key. -/
theorem visited_entries_addressed {kind : String} {config : Config}
    (hvalid : config.validate = .ok ()) {w : Memory} (hw : w.Unfailing) (hsize : 1 ≤ w.pageSize)
    (hkeys : ∀ key ∈ w.objects.keys config.bucket, config.roots.Writes key) :
    let env : Env Memory Memory.Writer := ⟨.ofConfig kind config, Memory.backend⟩
    let roots := env.setup.roots
    ∃ m, connect kind Memory.backend config w = .ok m ∧
      (∀ path recursive, ∃ items : List Listed,
        (∃ m', m.Walks env path recursive (.ok (items.map (·.entry (roots.walkPrefix path)))) m') ∧
        (∀ found m', m.Walks env path recursive found m' →
          found = .ok (items.map (·.entry (roots.walkPrefix path)))) ∧
        ∀ i ∈ items,
          (∃ key o, w.objects.get? ⟨config.bucket, key⟩ = some o ∧
            Memory.StandsFor (env.setup.query path recursive) key o i) ∧
          roots.address path (i.entry (roots.walkPrefix path)) = i.key) ∧
      ∀ rel o, w.objects.get? ⟨config.bucket, roots.primaryKey rel⟩ = some o →
        (Key.normalize rel ≠ "" → ∀ found m', m.Walks env "" true found m' →
          ∃ entries, found = .ok entries ∧
            .object (Key.normalize rel) o.data.size (some o.updated) ∈ entries ∧
            ∀ e ∈ entries, roots.address "" e = roots.primaryKey rel →
              e.name = Key.normalize rel) ∧
        ∀ path more, more ≠ [] →
          Key.segments (Key.normalize rel) = Key.segments (Key.normalize path) ++ more →
          ∀ found m', m.Walks env path true found m' → ∃ entries, found = .ok entries ∧
            .object (Key.render more) o.data.size (some o.updated) ∈ entries ∧
            roots.primaryKey (path ++ "/" ++ Key.render more) = roots.primaryKey rel := by
  intro env roots
  obtain ⟨m, hconnect⟩ : ∃ m, connect kind Memory.backend config w = .ok m :=
    exists_connect kind hvalid (Lists.create ⟨hw, rfl, rfl⟩).2
  have hm := Settled.of_connect hconnect hw
  have hroot : (Setup.ofConfig kind config).roots.primary = Key.normalize config.path := rfl
  have hsegments : ∀ key ∈ w.objects.keys config.bucket,
      ∃ ss, Key.Canonical ss ∧ key = Key.render ss :=
    fun key hkey => (hkeys key hkey).exists_segments
  refine ⟨m, hconnect, ?_, fun rel o hget => ⟨?_, ?_⟩⟩
  · intro path recursive
    exact hm.addresses hsize hroot hsegments path recursive
  · intro hrel found m' hwalks
    exact hm.visits_all hsize hroot hsegments hget hrel hwalks
  · intro path more hmore hrel found m' hwalks
    obtain ⟨entries, hfound, hmem, hback, -⟩ := hm.visits hsize hroot hget hrel hmore hwalks
    exact ⟨entries, hfound, hmem, hback⟩

/-- An object beside a directory whose name begins with its own, and an object below the other root.
The directory is visited, and in the directory the object that is stored there. -/
theorem visited_entries_addressed_of_directory :
    ∃ (config : Config) (w : Memory) (m m₁ m₂ : Machine Memory Memory.Writer)
      (entries₁ entries₂ : List Entry),
      let env : Env Memory Memory.Writer := ⟨.ofConfig "memory" config, Memory.backend⟩
      w.objects.keys config.bucket = ["disks/x", "root/a", "root/a.b/c"] ∧
      connect "memory" Memory.backend config w = .ok m ∧
      m.Walks env "" false (.ok entries₁) m₁ ∧
      entries₁.map (env.setup.roots.address "") = ["root/a", "root/a.b/"] ∧
      m.Walks env "x\\..\\a.b" true (.ok entries₂) m₂ ∧
      .object "c" 0 (some default) ∈ entries₂ ∧
      env.setup.roots.primaryKey "x\\..\\a.b/c" = "root/a.b/c" := by
  let config : Config :=
    { Config.standard with bucket := "b", path := "root", diskPath := some "disks" }
  let o : Memory.StoredObject := ⟨.empty, default, ⟨none, []⟩⟩
  let objects : Objects :=
    ["disks/x", "root/a", "root/a.b/c"].foldl (fun os key => os.insert ⟨"b", key⟩ o) .empty
  let w : Memory := { Memory.new 1 with objects }
  have hvalid : config.validate = .ok () := by decide +kernel
  have hw : w.Unfailing := by
    intro call n h
    cases h
  have hlisted : w.objects.keys config.bucket = ["disks/x", "root/a", "root/a.b/c"] := by
    decide +kernel
  have hkeys : ∀ key ∈ w.objects.keys config.bucket, config.roots.Writes key := by
    intro key hkey
    rw [hlisted] at hkey
    simp only [List.mem_cons, List.not_mem_nil, or_false] at hkey
    rcases hkey with rfl | rfl | rfl
    · exact ⟨"x", .inr (by rfl)⟩
    · exact ⟨"a", .inl (by decide +kernel)⟩
    · exact ⟨"a.b/c", .inl (by decide +kernel)⟩
  have hget : w.objects.get? ⟨config.bucket, config.roots.primaryKey "a.b/c"⟩ = some o := by
    have hkey : config.roots.primaryKey "a.b/c" = "root/a.b/c" := by decide +kernel
    rw [hkey]
    exact (Objects.get?_insert _ _ _ _).trans (if_pos rfl)
  obtain ⟨m, hconnect, hwalks, hvisits⟩ :=
    @visited_entries_addressed "memory" config hvalid w hw (Nat.le_refl 1) hkeys
  obtain ⟨_, ⟨m₁, hwalks₁⟩, -⟩ := hwalks "" false
  obtain ⟨_, ⟨m₂, hwalks₂⟩, -⟩ := hwalks "x\\..\\a.b" true
  obtain ⟨entries₂, hfound, hmem, -⟩ :=
    (hvisits "a.b/c" o hget).2 "x\\..\\a.b" [['c']] (by decide) (by decide +kernel) _ _ hwalks₂
  refine ⟨config, w, m, m₁, m₂, _, entries₂, hlisted, hconnect, hwalks₁, ?_, ?_, hmem, ?_⟩
  · have hentries := ((Settled.of_connect hconnect hw).of_walks (by decide) hwalks₁).1
    rw [Except.ok.inj hentries]
    decide +kernel
  · rw [← hfound]
    exact hwalks₂
  · decide +kernel

end Walks

end Storage

end Depot
