import Depot.Proofs.Key.Algebra
import Depot.Proofs.Memory
import Depot.Storage.Reference

/-!
# A store in memory as a map

What the calls of a store in memory make of what is stored (`Stores`), as long as none is ordered to
fail, and the keys under which a storage keeps its objects.
-/

set_option autoImplicit false

namespace Depot

namespace Reference

/-! ## Keys -/

theorem normalize_eq_empty_iff (path : String) :
    Key.normalize path = "" ↔ Key.resolve [] path.toList = [] := by
  rw [← Key.render_eq_empty_iff (Key.canonical_resolve path.toList), String.isEmpty_iff]
  rfl

/-- **The key of a path is its root followed by the normalized path.** -/
theorem below_eq_key (root path : String) :
    Key.below (Key.normalize root) path = key root path := by
  rw [Key.below_normalize, key]
  -- a slash stands between root and path only if neither of them is empty
  by_cases hroot : Key.resolve [] root.toList = []
  · rw [if_pos ((normalize_eq_empty_iff root).2 hroot), hroot]
    rfl
  · rw [if_neg fun h => hroot ((normalize_eq_empty_iff root).1 h)]
    by_cases hpath : Key.resolve [] path.toList = []
    · rw [if_pos ((normalize_eq_empty_iff path).2 hpath), hpath, List.append_nil]
      rfl
    · rw [if_neg fun h => hpath ((normalize_eq_empty_iff path).1 h)]
      apply String.toList_inj.1
      rw [String.toList_append, String.toList_append, Key.normalize, Key.normalize,
        Key.toList_render, Key.toList_render, Key.toList_render,
        Key.intercalate_append _ hroot hpath]
      rfl

theorem primaryKey_eq (c : Config) (path : String) :
    c.roots.primaryKey path = key c.path path :=
  below_eq_key c.path path

theorem diskKey_eq (c : Config) (path : String) :
    c.roots.diskKey path = match diskPlace c path with
      | some l => .ok l.key
      | none => .error (.config "object_disk_path is not configured") := by
  unfold diskPlace Roots.diskKey
  cases hroot : c.diskPath with
  | none => simp [Config.roots, Roots.ofPaths, hroot]
  | some root =>
    simp only [Config.roots, Roots.ofPaths, hroot, Option.map_some]
    rw [below_eq_key]

/-! ## Objects of disks -/

theorem run_deleteDisk (c : Config) (items : Items) (path : String) :
    (Operation.deleteDisk path).run c items =
      (diskPlace c path).elim (.error .config, items) items.delete := by
  simp only [Operation.run]
  cases diskPlace c path with
  | none => rfl
  | some l => rfl

theorem run_copy (c : Config) (items : Items) (sourceBucket sourceKey path : String) :
    (Operation.copy sourceBucket sourceKey path).run c items =
      (diskPlace c path).elim (.error .config, items) (items.copy ⟨sourceBucket, sourceKey⟩) := by
  simp only [Operation.run]
  cases diskPlace c path with
  | none => rfl
  | some l => rfl

/-! ## Calls -/

variable {m : Memory} {items : Items} {l source : Memory.Location} {c : Client}
  {kind : Memory.Call} {α : Type}

/-- A store in memory holds the items of a map, and no call on it is to fail. -/
structure Stores (m : Memory) (items : Items) : Prop where
  unfailing : m.Unfailing
  eq : Reference.items m = items

/-- An item is what a look-up finds. -/
theorem Stores.item_eq (h : Stores m items) (l : Memory.Location) :
    items l = (m.objects.get? l).map fun o => ⟨o.data, o.options⟩ := by
  rw [← h.eq]
  rfl

/-- Where no call of a kind is ordered to fail, none does. -/
theorem takeFailure_of_allows (h : m.Allows kind) : m.takeFailure kind = (m, false) := by
  unfold Memory.takeFailure
  split
  · rename_i n heq
    cases h (n + 1) heq
  · rfl

/-- Where no look-up is ordered to fail, it answers with what is stored. -/
theorem look_of_allows (h : m.Allows kind) {o : Memory.StoredObject}
    (ho : m.objects.get? l = some o) (f : Memory.StoredObject → α) (c : Client) :
    (Memory.call c kind (Memory.look l f) m).result = .ok (f o) := by
  have hmore : Memory.Allows { m with served := c :: m.served } kind := h
  simp only [Memory.call, Memory.enter, takeFailure_of_allows hmore, Bool.false_eq_true, if_false,
    Memory.look, ho, Answer.now]

theorem Stores.takeFailure (h : Stores m items) (kind : Memory.Call) :
    m.takeFailure kind = (m, false) :=
  takeFailure_of_allows (h.unfailing kind)

theorem Stores.create (h : Stores m items) :
    Stores m.create.world items ∧ m.create.result = .ok () := by
  simp only [Memory.create, h.takeFailure]
  exact ⟨⟨h.unfailing, h.eq⟩, rfl⟩

theorem Stores.destroy (h : Stores m items) : Stores m.destroy.world items := by
  have hmore : Stores { m with destroyed := m.destroyed + 1 } items := ⟨h.unfailing, h.eq⟩
  simp only [Memory.destroy, hmore.takeFailure]
  exact hmore

/-- A call does what it is for, on a store that holds the same items. -/
theorem Stores.call (h : Stores m items) (c : Client) (kind : Memory.Call)
    (act : Memory → Memory × Except StoreError α) : ∃ m', Stores m' items ∧
      Memory.call c kind act m = .now (act m').1 (act m').2 := by
  have hmore : Stores { m with served := c :: m.served } items := ⟨h.unfailing, h.eq⟩
  refine ⟨_, hmore, ?_⟩
  simp only [Memory.call, Memory.enter, hmore.takeFailure, Bool.false_eq_true, if_false]

/-- A look-up of an object answers with what is stored, if there is something. -/
theorem Stores.look (h : Stores m items) (l : Memory.Location) (f : Memory.StoredObject → α)
    (c : Client) (kind : Memory.Call) :
    Stores (Memory.call c kind (Memory.look l f) m).world items ∧
      ((∃ o : Memory.StoredObject, items l = some ⟨o.data, o.options⟩ ∧
          (Memory.call c kind (Memory.look l f) m).result = .ok (f o)) ∨
        items l = none ∧
          (Memory.call c kind (Memory.look l f) m).result = .error (Memory.absent l)) := by
  obtain ⟨m', hm', heq⟩ := h.call c kind (Memory.look l f)
  rw [heq]
  have hitem := hm'.item_eq l
  unfold Memory.look
  cases hget : m'.objects.get? l with
  | none =>
    rw [hget] at hitem
    exact ⟨hm', Or.inr ⟨hitem, rfl⟩⟩
  | some o =>
    rw [hget] at hitem
    exact ⟨hm', Or.inl ⟨o, hitem, rfl⟩⟩

theorem Stores.openWriter (h : Stores m items) (options : WriteOptions) (c : Client)
    (bucket key : String) :
    Stores (Memory.backend.openWriter c bucket key options m).world items ∧
      (Memory.backend.openWriter c bucket key options m).result =
        .ok ⟨c, ⟨bucket, key⟩, options, .empty⟩ := by
  obtain ⟨m', hm', heq⟩ := h.call c .write fun m =>
    (m, .ok (⟨c, ⟨bucket, key⟩, options, .empty⟩ : Memory.Writer))
  refine ⟨?_, ?_⟩
  · show Stores (Memory.call c .write _ m).world items
    rw [heq]
    exact hm'
  · exact congrArg Answer.result heq

theorem items_insert (m : Memory) (l : Memory.Location) (o : Memory.StoredObject) :
    Reference.items { m with objects := m.objects.insert l o } =
      (Reference.items m).set l (some ⟨o.data, o.options⟩) := by
  funext l'
  simp only [Reference.items, Items.set, Memory.Objects.get?_insert]
  split
  · rfl
  · rfl

theorem items_erase (m : Memory) (l : Memory.Location) :
    Reference.items { m with objects := m.objects.erase l } = (Reference.items m).set l none := by
  funext l'
  simp only [Reference.items, Items.set, Memory.Objects.get?_erase]
  split
  · rfl
  · rfl

theorem Stores.delete (h : Stores m items) (l : Memory.Location) (c : Client) :
    (∃ item, items l = some item ∧
        Stores (Memory.call c .delete (Memory.delete l) m).world (items.set l none) ∧
        (Memory.call c .delete (Memory.delete l) m).result = .ok ()) ∨
      items l = none ∧ Stores (Memory.call c .delete (Memory.delete l) m).world items ∧
        (Memory.call c .delete (Memory.delete l) m).result = .error (Memory.absent l) := by
  obtain ⟨m', hm', heq⟩ := h.call c .delete (Memory.delete l)
  rw [heq]
  have hitem := hm'.item_eq l
  unfold Memory.delete
  cases hget : m'.objects.get? l with
  | none =>
    rw [hget] at hitem
    exact Or.inr ⟨hitem, hm', rfl⟩
  | some o =>
    rw [hget] at hitem
    refine Or.inl ⟨_, hitem, ⟨hm'.unfailing, ?_⟩, rfl⟩
    rw [← hm'.eq]
    exact items_erase m' l

theorem Stores.copy (h : Stores m items) (source l : Memory.Location) (c : Client) :
    (∃ item, items source = some item ∧
        Stores (Memory.call c .copy (Memory.copy source l) m).world (items.set l (some item)) ∧
        (Memory.call c .copy (Memory.copy source l) m).result = .ok ()) ∨
      items source = none ∧ Stores (Memory.call c .copy (Memory.copy source l) m).world items ∧
        (Memory.call c .copy (Memory.copy source l) m).result =
          .error (Memory.absent source) := by
  obtain ⟨m', hm', heq⟩ := h.call c .copy (Memory.copy source l)
  rw [heq]
  have hitem := hm'.item_eq source
  unfold Memory.copy
  cases hget : m'.objects.get? source with
  | none =>
    rw [hget] at hitem
    exact Or.inr ⟨hitem, hm', rfl⟩
  | some o =>
    rw [hget] at hitem
    refine Or.inl ⟨_, hitem, ⟨hm'.unfailing, ?_⟩, rfl⟩
    rw [← hm'.eq]
    exact items_insert m' l _

theorem Stores.finish (h : Stores m items) (w : Memory.Writer) :
    Stores (Memory.finish w m).2.world (items.set w.location (some ⟨w.buffer, w.options⟩)) ∧
      (Memory.finish w m).2.result = .ok () := by
  have hmore : Stores { m with served := w.client :: m.served } items := ⟨h.unfailing, h.eq⟩
  simp only [Memory.finish, Memory.enter, hmore.takeFailure, Bool.false_eq_true, if_false]
  refine ⟨⟨h.unfailing, ?_⟩, rfl⟩
  rw [← hmore.eq]
  exact items_insert { m with served := w.client :: m.served } w.location _

end Reference

end Depot
