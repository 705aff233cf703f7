import Depot.Memory.Changes
import Depot.Proofs.Listing.Pages
import Depot.Proofs.Memory
import Mathlib.Data.List.Nodup

/-!
# A listing is stable under change

A listing is resumed by order and not by position: a page has the first items behind its token,
whatever has become of the item that the token is the key of (`page_split`). So all that is listed
from a query on is behind the token of the query (`Sweeps.sorted`), in stores that have nothing
to do with each other but that the pages are asked of them. An item whose place is taken whenever a
page is asked for is passed on from page to page until it is listed (`Sweeps.exists_of_key`).
The main statement is `listing_stable`.
-/

set_option autoImplicit false

namespace Depot.Memory

/-! ## What no change touches -/

/-- A store has the page size of another one, and no call is to fail in it that was not to fail in
the other one. -/
structure Steady (m m' : Memory) : Prop where
  pageSize : m'.pageSize = m.pageSize
  allows : ∀ kind, (∀ n, m.failures.lookup kind = some n → n = 0) →
    ∀ n, m'.failures.lookup kind = some n → n = 0

section Steady

variable {α : Type} {m m' m'' : Memory}

theorem Steady.refl (m : Memory) : Steady m m := ⟨rfl, fun _ h => h⟩

theorem Steady.trans (h : Steady m m') (h' : Steady m' m'') : Steady m m'' :=
  ⟨h'.pageSize.trans h.pageSize, fun kind hkind => h'.allows kind (h.allows kind hkind)⟩

/-- To take a failure orders none. -/
theorem steady_takeFailure (m : Memory) (call : Call) : Steady m (m.takeFailure call).1 := by
  unfold takeFailure
  split
  · rename_i before hbefore
    refine ⟨rfl, ?_⟩
    intro kind hkind n hn
    by_cases heq : kind = call
    · subst heq
      exact absurd (hkind _ hbefore) (Nat.succ_ne_zero before)
    · rw [List.lookup_cons, beq_false_of_ne heq, lookup_remove, if_neg heq] at hn
      exact hkind n hn
  · exact .refl m

theorem steady_enter (m : Memory) (c : Client) (call : Call) : Steady m (m.enter c call).1 := by
  have hserved : Steady m { m with served := c :: m.served } := ⟨rfl, fun _ h => h⟩
  exact hserved.trans (steady_takeFailure _ call)

theorem steady_call {act : Memory → Memory × Except StoreError α}
    (hact : ∀ m, Steady m (act m).1) (c : Client) (kind : Call) (m : Memory) :
    Steady m (call c kind act m).world := by
  have henter := steady_enter m c kind
  unfold call
  split
  · rename_i heq
    rw [heq] at henter
    exact henter
  · rename_i heq
    rw [heq] at henter
    exact henter.trans (hact _)

theorem steady_delete (l : Location) (m : Memory) : Steady m (delete l m).1 := by
  unfold delete
  split
  · exact ⟨rfl, fun _ h => h⟩
  · exact .refl m

theorem steady_copy (source target : Location) (m : Memory) :
    Steady m (copy source target m).1 := by
  unfold copy
  split
  · exact ⟨rfl, fun _ h => h⟩
  · exact .refl m

theorem steady_finish (w : Writer) (m : Memory) : Steady m (finish w m).2.world := by
  have henter := steady_enter m w.client .finish
  unfold finish
  split
  · rename_i heq
    rw [heq] at henter
    exact henter
  · rename_i heq
    rw [heq] at henter
    exact ⟨henter.pageSize, henter.allows⟩

/-- **No change makes a page smaller, or a call fail.** -/
theorem steady_apply (change : Change) (m : Memory) : Steady m (change.apply m) := by
  cases change with
  | insert l data => exact ⟨rfl, fun _ h => h⟩
  | finish w => exact steady_finish w m
  | delete c l => exact steady_call (steady_delete l) c .delete m
  | copy c source target => exact steady_call (steady_copy source target) c .copy m
  | clock now => exact ⟨rfl, fun _ h => h⟩

theorem steady_applyAll (changes : List Change) (m : Memory) :
    Steady m (Change.applyAll changes m) := by
  induction changes generalizing m with
  | nil => exact .refl m
  | cons change changes ih => exact (steady_apply change m).trans (ih _)

end Steady

/-! ## What is behind a token -/

section Behind

variable {m : Memory} {c : Client} {objects : Objects} {q : Query} {i j : Listed}
  {token : Option String} {page : Page}

/-- The items behind the token of a query. -/
def Objects.behind (objects : Objects) (q : Query) : List Listed :=
  (objects.items q).filter (Objects.isAfter q.token)

theorem Objects.mem_behind :
    i ∈ objects.behind q ↔ i ∈ objects.items q ∧ Objects.isAfter q.token i = true :=
  List.mem_filter

theorem Objects.behind_sorted (objects : Objects) (q : Query) :
    (objects.behind q).Pairwise fun i j => i.key < j.key :=
  (objects.items_sorted q).filter _

theorem isAfter_some {t : String} : Objects.isAfter (some t) i = true ↔ t < i.key :=
  decide_eq_true_iff

/-- What is behind the key of an item that is behind a token is behind the token. -/
theorem isAfter_trans (hi : Objects.isAfter token i = true) (hij : i.key < j.key) :
    Objects.isAfter token j = true := by
  cases token with
  | none => rfl
  | some t => exact isAfter_some.2 (lt_trans (isAfter_some.1 hi) hij)

/-- Less is behind the key of an item that is behind a token. -/
theorem length_behind_lt (hi : i ∈ objects.behind q) :
    (objects.behind { q with token := some i.key }).length < (objects.behind q).length := by
  have hfilter : objects.behind { q with token := some i.key } =
      (objects.behind q).filter (Objects.isAfter (some i.key)) := by
    rw [Objects.behind, Objects.behind, List.filter_filter]
    apply List.filter_congr
    intro j _
    rw [Bool.eq_iff_iff, Bool.and_eq_true]
    constructor
    · intro hij
      exact ⟨hij, isAfter_trans (Objects.mem_behind.1 hi).2 (isAfter_some.1 hij)⟩
    · exact And.left
  rw [hfilter]
  apply List.length_filter_lt_length_iff_exists.2
  refine ⟨i, hi, ?_⟩
  rw [isAfter_some]
  exact lt_irrefl i.key

/-- A page that is answered has all that is behind its token at that moment, or the first of it, and
the key of the last item as the token of the next page. -/
theorem page_of_list (hsize : 1 ≤ m.pageSize) (h : (backend.list c q m).result = .ok page) :
    page = ⟨m.objects.behind q, none⟩ ∨ ∃ shown i later,
      m.objects.behind q = shown ++ i :: later ∧ page = ⟨shown ++ [i], some i.key⟩ := by
  have hpage : page = m.objects.page m.pageSize q := by
    have hobjects := enter_objects m c .list
    have hsteady := (steady_enter m c .list).pageSize
    change (call c .list (fun m => (m, .ok (m.objects.page m.pageSize q))) m).result = _ at h
    unfold call at h
    split at h
    · cases h
    · rename_i m' hm'
      rw [hm'] at hobjects hsteady
      rw [← hobjects, ← hsteady]
      exact (Except.ok.inj h).symm
  rw [hpage]
  rcases Objects.page_split m.objects q hsize rfl with
    ⟨-, hall⟩ | ⟨shown, i, later, hbehind, -, -, hfull⟩
  · exact .inl hall
  · exact .inr ⟨shown, i, later, hbehind, hfull⟩

end Behind

/-! ## Pages of a store that changes -/

/-- Pages of stores of which nothing is known: the last one has all that is behind its token in its
store, the others have the first of it, and the next one has the key of the last item as its token.
-/
inductive Sweeps : Query → List Glimpse → Prop where
  | last (m : Memory) (q : Query) : Sweeps q [⟨m, ⟨m.objects.behind q, none⟩⟩]
  | more {m : Memory} {q : Query} {shown later : List Listed} {i : Listed}
      {glimpses : List Glimpse} : m.objects.behind q = shown ++ i :: later →
      Sweeps { q with token := some i.key } glimpses →
      Sweeps q (⟨m, ⟨shown ++ [i], some i.key⟩⟩ :: glimpses)

section Sweeps

variable {c : Client} {m : Memory} {q : Query} {changes : List (List Change)}
  {glimpses : List Glimpse} {i : Listed}

/-- Whatever the changes are, the pages of a listing are of this kind. -/
theorem FollowsAmid.sweeps (h : FollowsAmid c m q changes glimpses) (hsize : 1 ≤ m.pageSize) :
    Sweeps q glimpses := by
  induction h with
  | @last m q page a ha hpage hnext =>
    subst ha
    rcases page_of_list hsize hpage with rfl | ⟨shown, i, later, -, rfl⟩
    · exact .last m q
    · cases hnext
  | @more m q page a token changes later glimpses ha hpage hnext _ ih =>
    subst ha
    have hsteady : Steady m (Change.applyAll changes (backend.list c q m).world) :=
      (steady_call (fun m => .refl m) c .list m).trans (steady_applyAll changes _)
    rw [hsteady.pageSize] at ih
    rcases page_of_list hsize hpage with rfl | ⟨shown, i, rest, hbehind, rfl⟩
    · cases hnext
    · cases hnext
      exact .more hbehind (ih hsize)

/-- What is listed is there at that moment, behind the token of the first page. -/
theorem Sweeps.mem_behind (h : Sweeps q glimpses) :
    ∀ x ∈ glimpses.flatMap (·.items), x.2 ∈ x.1.objects.behind q := by
  induction h with
  | last m q =>
    intro x hx
    rw [List.flatMap_singleton] at hx
    obtain ⟨i, hi, rfl⟩ := List.mem_map.1 hx
    exact hi
  | @more m q shown later i glimpses hbehind _ ih =>
    intro x hx
    rw [List.flatMap_cons, List.mem_append] at hx
    rcases hx with hx | hx
    · obtain ⟨j, hj, rfl⟩ := List.mem_map.1 hx
      have hsplit : m.objects.behind q = shown ++ [i] ++ later := by
        rw [hbehind, List.append_assoc, List.singleton_append]
      rw [hsplit]
      exact List.mem_append_left later hj
    · -- a later item is behind the last one of this page, in whatever store
      obtain ⟨hitem, hafter⟩ := Objects.mem_behind.1 (ih x hx)
      have hi : i ∈ m.objects.behind q := by
        rw [hbehind]
        exact List.mem_append_right shown List.mem_cons_self
      exact Objects.mem_behind.2
        ⟨hitem, isAfter_trans (Objects.mem_behind.1 hi).2 (isAfter_some.1 hafter)⟩

/-- **What is listed is in order over all pages**, though the pages are of different stores. -/
theorem Sweeps.sorted (h : Sweeps q glimpses) :
    (glimpses.flatMap (·.items)).Pairwise fun x y => x.2.key < y.2.key := by
  induction h with
  | last m q =>
    rw [List.flatMap_singleton]
    exact List.pairwise_map.2 (m.objects.behind_sorted q)
  | @more m q shown later i glimpses hbehind hlater ih =>
    have hsorted := m.objects.behind_sorted q
    rw [hbehind, ← List.singleton_append, ← List.append_assoc] at hsorted
    have hpage := (List.pairwise_append.1 hsorted).1
    rw [List.flatMap_cons, List.pairwise_append]
    refine ⟨List.pairwise_map.2 hpage, ih, ?_⟩
    intro x hx y hy
    obtain ⟨j, hj, rfl⟩ := List.mem_map.1 hx
    have hiy : i.key < y.2.key :=
      isAfter_some.1 (Objects.mem_behind.1 (hlater.mem_behind y hy)).2
    rcases List.mem_append.1 hj with hj | hj
    · exact lt_trans ((List.pairwise_append.1 hpage).2.2 j hj i (List.mem_singleton_self i)) hiy
    · rw [List.mem_singleton.1 hj]
      exact hiy

/-- **A place that is taken whenever a page is asked for is listed.** The item need not be the same
one each time. -/
theorem Sweeps.exists_of_key (h : Sweeps q glimpses) (hi : Objects.isAfter q.token i = true)
    (hpresent : ∀ g ∈ glimpses, ∃ j ∈ g.store.objects.items q, j.key = i.key) :
    ∃ x ∈ glimpses.flatMap (·.items), x.2.key = i.key := by
  have hafter : ∀ {q : Query} {j : Listed}, j.key = i.key →
      Objects.isAfter q.token i = true → Objects.isAfter q.token j = true := by
    intro q j hkey hi
    unfold Objects.isAfter at hi ⊢
    rw [hkey]
    exact hi
  induction h with
  | last m q =>
    obtain ⟨j, hj, hkey⟩ := hpresent _ List.mem_cons_self
    rw [List.flatMap_singleton]
    exact ⟨(m, j), List.mem_map_of_mem (Objects.mem_behind.2 ⟨hj, hafter hkey hi⟩), hkey⟩
  | @more m q shown later last glimpses hbehind _ ih =>
    obtain ⟨j, hj, hkey⟩ := hpresent _ List.mem_cons_self
    have hmem : j ∈ shown ++ [last] ++ later := by
      rw [List.append_assoc, List.singleton_append, ← hbehind]
      exact Objects.mem_behind.2 ⟨hj, hafter hkey hi⟩
    rw [List.flatMap_cons]
    rcases List.mem_append.1 hmem with hshown | hlater
    · exact ⟨(m, j), List.mem_append_left _ (List.mem_map_of_mem hshown), hkey⟩
    · -- it is behind the last item of this page, so it is passed on
      have hsorted := m.objects.behind_sorted q
      rw [hbehind] at hsorted
      have hlast := (List.pairwise_cons.1 (List.pairwise_append.1 hsorted).2.1).1 j hlater
      rw [hkey] at hlast
      obtain ⟨x, hx, hxkey⟩ := ih (isAfter_some.2 hlast)
        fun g hg => hpresent g (List.mem_cons_of_mem _ hg)
      exact ⟨x, List.mem_append_right _ hx, hxkey⟩

/-- What is listed at the same place is the same. -/
theorem Sweeps.eq_of_key (h : Sweeps q glimpses) {x y : Memory × Listed}
    (hx : x ∈ glimpses.flatMap (·.items)) (hy : y ∈ glimpses.flatMap (·.items))
    (hkey : x.2.key = y.2.key) : x = y := by
  have hnodup : ((glimpses.flatMap (·.items)).map fun x => x.2.key).Nodup :=
    List.pairwise_map.2 (h.sorted.imp ne_of_lt)
  exact List.inj_on_of_nodup_map hnodup hx hy hkey

/-- **A place that is taken whenever a page is asked for is listed once**, with the item that is
there at that moment. -/
theorem Sweeps.exists_item (h : Sweeps q glimpses) (key : String)
    (hkey : ∀ i : Listed, i.key = key → Objects.isAfter q.token i = true)
    (hpresent : ∀ g ∈ glimpses, ∃ i ∈ g.store.objects.items q, i.key = key) :
    ∃ g ∈ glimpses, ∃ i ∈ g.store.objects.items q, i.key = key ∧
      (g.store, i) ∈ glimpses.flatMap (·.items) ∧
      (∀ j ∈ g.store.objects.items q, j.key = key → j = i) ∧
      ∀ y ∈ glimpses.flatMap (·.items), y.2.key = key → y = (g.store, i) := by
  obtain ⟨x, hx, hxkey⟩ :=
    h.exists_of_key (i := .group key) (hkey _ rfl) fun g hg => hpresent g hg
  obtain ⟨g, hg, hxg⟩ := List.mem_flatMap.1 hx
  obtain ⟨i, -, rfl⟩ := List.mem_map.1 hxg
  have hi : i ∈ g.store.objects.items q := (Objects.mem_behind.1 (h.mem_behind _ hx)).1
  refine ⟨g, hg, i, hi, hxkey, hx, ?_, ?_⟩
  · intro j hj hjkey
    have hnodup : ((g.store.objects.items q).map (·.key)).Nodup :=
      List.pairwise_map.2 ((g.store.objects.items_sorted q).imp ne_of_lt)
    exact List.inj_on_of_nodup_map hnodup hj hi (hjkey.trans hxkey.symm)
  · intro y hy hykey
    exact h.eq_of_key hy hx (hykey.trans hxkey.symm)

/-- The place of the item of an object does not depend on what is stored. -/
theorem item_key_eq {lead key : String} (hkey : lead.toList <+: key.toList)
    (delimiter : Option String) (o o' : StoredObject) :
    (Objects.item lead delimiter key o).key = (Objects.item lead delimiter key o').key := by
  rcases Objects.item_cases hkey delimiter o with ⟨g, hg, hprefix, hitem⟩ | ⟨hnone, hitem⟩
  · rw [hitem, Objects.item_of_group hg hprefix o']
  · rcases Objects.item_cases hkey delimiter o' with ⟨g, hg, hprefix, -⟩ | ⟨-, hitem'⟩
    · exact absurd hprefix (hnone g hg)
    · rw [hitem, hitem']
      rfl

/-- What stands for an object that is stored is an item. -/
theorem mem_items_of_standsFor {objects : Objects} {key : String} {o : StoredObject}
    (ho : objects.get? ⟨q.bucket, key⟩ = some o) (hkey : q.lead.toList <+: key.toList)
    (h : StandsFor q key o i) : i ∈ objects.items q :=
  Objects.mem_items.2 ⟨key, o, Objects.mem_matching.2 ⟨ho, hkey⟩,
    ((Objects.standsFor_iff hkey).1 h).symm⟩

end Sweeps

/-! ## The end of a listing -/

section End

variable {c : Client} {m : Memory} {q : Query}

/-- Once nothing changes any more, a listing comes to its end. -/
theorem exists_followsAmid_of_still (hlist : ∀ n, m.failures.lookup .list = some n → n = 0)
    (hsize : 1 ≤ m.pageSize) :
    ∃ n glimpses, FollowsAmid c m q (List.replicate n []) glimpses := by
  -- on how much is behind the token
  induction hbehind : (m.objects.behind q).length using Nat.strongRecOn generalizing m q with
  | ind left ih =>
    have hpage := list_eq hlist c q
    rcases Objects.page_split m.objects q hsize rfl with
      ⟨-, hall⟩ | ⟨shown, i, later, hsplit, -, -, hfull⟩
    · rw [hall] at hpage
      exact ⟨0, _, .last hpage rfl rfl⟩
    · rw [hfull] at hpage
      have hi : i ∈ m.objects.behind q := by
        rw [Objects.behind, hsplit]
        exact List.mem_append_right shown List.mem_cons_self
      have hless := length_behind_lt hi
      rw [hbehind] at hless
      obtain ⟨n, glimpses, hrest⟩ := @ih _ hless { m with served := c :: m.served }
        { q with token := some i.key } hlist hsize rfl
      exact ⟨n + 1, _, .more hpage rfl rfl hrest⟩

/-- **A listing comes to its end** once the store ceases to change, if not before. -/
theorem exists_followsAmid (hlist : ∀ n, m.failures.lookup .list = some n → n = 0)
    (hsize : 1 ≤ m.pageSize) (changes : List (List Change)) :
    ∃ done glimpses, FollowsAmid c m q done glimpses ∧
      (done <+: changes ∨ ∃ n, done = changes ++ List.replicate n []) := by
  induction changes generalizing m q with
  | nil =>
    obtain ⟨n, glimpses, h⟩ := exists_followsAmid_of_still (c := c) (q := q) hlist hsize
    exact ⟨_, glimpses, h, .inr ⟨n, rfl⟩⟩
  | cons change changes ih =>
    have hpage := list_eq hlist c q
    rcases Objects.page_split m.objects q hsize rfl with
      ⟨-, hall⟩ | ⟨shown, i, later, -, -, -, hfull⟩
    · rw [hall] at hpage
      exact ⟨[], _, .last hpage rfl rfl, .inl List.nil_prefix⟩
    · rw [hfull] at hpage
      have hserved : Steady m { m with served := c :: m.served } := ⟨rfl, fun _ h => h⟩
      have hsteady := hserved.trans (steady_applyAll change _)
      obtain ⟨done, glimpses, hrest, hdone⟩ :=
        ih (q := { q with token := some i.key }) (hsteady.allows .list hlist)
          (by rw [hsteady.pageSize]; exact hsize)
      refine ⟨change :: done, _, .more hpage rfl rfl hrest, ?_⟩
      rcases hdone with hprefix | ⟨n, rfl⟩
      · exact .inl (List.cons_prefix_cons.2 ⟨rfl, hprefix⟩)
      · exact .inr ⟨n, rfl⟩

end End

/-! ## Stability -/

/-- **A listing is stable under change.** A listing of any bucket, of the keys that begin with any
text, with any delimiter or none, is followed to its end while objects are stored, replaced, copied
and deleted between its pages, in any way:

- it comes to its end once the store ceases to change, if no call of this kind is to fail;
- the keys of its items are strictly ascending, byte by byte, over all pages, so that none comes
  twice;
- every item stands for an object that was there when the page was asked for;
- every object with such a key that was there whenever a page was asked for, under the same key and
  with whatever data, has exactly one item that stands for it;
- so has every group that had a member whenever a page was asked for, which need not be the same
  one. -/
theorem listing_stable (m : Memory) (c : Client) (bucket lead : String)
    (delimiter : Option String) (hsize : 1 ≤ m.pageSize) :
    let q : Query := ⟨bucket, lead, delimiter, none⟩
    ((∀ n, m.failures.lookup .list = some n → n = 0) → ∀ changes, ∃ done glimpses,
      FollowsAmid c m q done glimpses ∧
        (done <+: changes ∨ ∃ n, done = changes ++ List.replicate n [])) ∧
    ∀ changes glimpses, FollowsAmid c m q changes glimpses →
      let all := glimpses.flatMap (·.items)
      (all.map fun x => Key.bytes x.2.key).Pairwise (· < ·) ∧
      (∀ x ∈ all, ∃ key o, x.1.objects.get? ⟨bucket, key⟩ = some o ∧
        lead.toList <+: key.toList ∧ StandsFor q key o x.2) ∧
      (∀ key, lead.toList <+: key.toList →
        (∀ g ∈ glimpses, (g.store.objects.get? ⟨bucket, key⟩).isSome = true) →
        ∃ x ∈ all, (∃ o, x.1.objects.get? ⟨bucket, key⟩ = some o ∧ StandsFor q key o x.2) ∧
          ∀ y ∈ all, (∃ o, StandsFor q key o y.2) → y = x) ∧
      (∀ group, (∀ g ∈ glimpses, ∃ key o, g.store.objects.get? ⟨bucket, key⟩ = some o ∧
          StandsFor q key o (.group group)) →
        ∃! x, x ∈ all ∧ x.2 = .group group) := by
  intro q
  refine ⟨fun hlist changes => exists_followsAmid hlist hsize changes, ?_⟩
  intro changes glimpses hfollows all
  have hsweeps := hfollows.sweeps hsize
  refine ⟨?_, ?_, ?_, ?_⟩
  · rw [List.pairwise_map]
    exact hsweeps.sorted.imp Key.bytes_lt_bytes
  · intro x hx
    have hitem : x.2 ∈ x.1.objects.items q :=
      (Objects.mem_behind.1 (hsweeps.mem_behind x hx)).1
    obtain ⟨key, o, ho, hitem⟩ := Objects.mem_items.1 hitem
    obtain ⟨ho, hkey⟩ := Objects.mem_matching.1 ho
    exact ⟨key, o, ho, hkey, (Objects.standsFor_iff hkey).2 hitem.symm⟩
  · intro key hkey hpresent
    have hstored : ∀ g ∈ glimpses, ∃ o, g.store.objects.get? ⟨bucket, key⟩ = some o ∧
        StandsFor q key o (Objects.item lead delimiter key o) := by
      intro g hg
      obtain ⟨o, ho⟩ := Option.isSome_iff_exists.1 (hpresent g hg)
      exact ⟨o, ho, (Objects.standsFor_iff hkey).2 rfl⟩
    obtain ⟨g, hg, i, -, -, hlisted, hthere, honce⟩ := hsweeps.exists_item
      (Objects.item lead delimiter key ⟨.empty, m.clock, ⟨none, []⟩⟩).key
      (fun _ _ => rfl) (by
        intro g hg
        obtain ⟨o, ho, hstands⟩ := hstored g hg
        exact ⟨_, mem_items_of_standsFor ho hkey hstands, item_key_eq hkey delimiter _ _⟩)
    obtain ⟨o, ho, hstands⟩ := hstored g hg
    refine ⟨_, hlisted, ⟨o, ho, ?_⟩, ?_⟩
    · rw [← hthere _ (mem_items_of_standsFor ho hkey hstands) (item_key_eq hkey delimiter _ _)]
      exact hstands
    · rintro y hy ⟨o', hy'⟩
      apply honce y hy
      rw [(Objects.standsFor_iff hkey).1 hy']
      exact item_key_eq hkey delimiter _ _
  · intro group hpresent
    have hgroup : ∀ g ∈ glimpses, Listed.group group ∈ g.store.objects.items q := by
      intro g hg
      obtain ⟨key, o, ho, hstands⟩ := hpresent g hg
      have hkey : lead.toList <+: key.toList := by
        cases hstands with
        | group _ hkey _ _ => exact ⟨_, hkey.symm⟩
      exact mem_items_of_standsFor ho hkey hstands
    obtain ⟨g, hg, i, -, -, hlisted, hthere, honce⟩ := hsweeps.exists_item group
      (fun _ _ => rfl) fun g hg => ⟨_, hgroup g hg, rfl⟩
    obtain rfl := hthere _ (hgroup g hg) rfl
    refine ⟨_, ⟨hlisted, rfl⟩, ?_⟩
    rintro y ⟨hy, hygroup⟩
    apply honce y hy
    rw [hygroup]
    rfl

/-- Pages of one item. The object that the first token is the key of is deleted, and the only member
of the group behind it is replaced by another one before each of the next pages. The group and the
last object are listed once each. -/
theorem listing_stable_of_replaced :
    ∃ (m : Memory) (changes : List (List Change)) (glimpses : List Glimpse),
      m.pageSize = 1 ∧ FollowsAmid 1 m ⟨"b", "", some "/", none⟩ changes glimpses ∧
      (glimpses.map fun g => (g.store.objects.keys "b", g.page.items.map (·.key))) =
        [(["a", "d/1", "z"], ["a"]), (["d/2", "z"], ["d/"]), (["d/3", "z"], ["z"])] ∧
      (∃! x, x ∈ glimpses.flatMap (·.items) ∧ x.2 = .group "d/") ∧
      ∃ x ∈ glimpses.flatMap (·.items), ∃ o,
        StandsFor ⟨"b", "", some "/", none⟩ "z" o x.2 := by
  let q : Query := ⟨"b", "", some "/", none⟩
  let m₁ : Memory := ["a", "d/1", "z"].foldl (fun m key => m.insert ⟨"b", key⟩ .empty) (.new 1)
  let changes₁ : List Change :=
    [.delete 2 ⟨"b", "a"⟩, .delete 2 ⟨"b", "d/1"⟩, .insert ⟨"b", "d/2"⟩ .empty]
  let m₂ := Change.applyAll changes₁ (backend.list 1 q m₁).world
  let changes₂ : List Change := [.copy 2 ⟨"b", "d/2"⟩ ⟨"b", "d/3"⟩, .delete 2 ⟨"b", "d/2"⟩]
  let m₃ := Change.applyAll changes₂ (backend.list 1 { q with token := some "a" } m₂).world
  let page₁ := m₁.objects.page 1 q
  let page₂ := m₂.objects.page 1 { q with token := some "a" }
  let page₃ := m₃.objects.page 1 { q with token := some "d/" }
  have hpage : ∀ m : Memory, m.failures = [] ∧ m.pageSize = 1 → ∀ q,
      (backend.list 1 q m).result = .ok (m.objects.page 1 q) := by
    intro m ⟨hfailures, hsize⟩ q
    rw [list_eq (by rw [hfailures]; nofun), hsize]
    rfl
  have hpage₁ := hpage m₁ (by decide +kernel) q
  have hpage₂ := hpage m₂ (by decide +kernel) { q with token := some "a" }
  have hpage₃ := hpage m₃ (by decide +kernel) { q with token := some "d/" }
  have hnext₁ : page₁.next = some "a" := by decide +kernel
  have hnext₂ : page₂.next = some "d/" := by decide +kernel
  have hnext₃ : page₃.next = none := by decide +kernel
  have hfollows : FollowsAmid 1 m₁ q [changes₁, changes₂]
      [⟨m₁, page₁⟩, ⟨m₂, page₂⟩, ⟨m₃, page₃⟩] :=
    .more rfl hpage₁ hnext₁ (.more rfl hpage₂ hnext₂ (.last rfl hpage₃ hnext₃))
  obtain ⟨-, hstable⟩ := listing_stable m₁ 1 "b" "" (some "/") (by decide)
  obtain ⟨-, -, hobject, hgroup⟩ := hstable _ _ hfollows
  refine ⟨m₁, _, _, rfl, hfollows, by decide +kernel, ?_, ?_⟩
  · apply hgroup
    have hmember : ∀ (g : Glimpse) (key : String) (rest : List Char),
        (g.store.objects.get? ⟨"b", key⟩).isSome = true → key.toList = "d/".toList ++ rest →
        ∃ key o, g.store.objects.get? ⟨"b", key⟩ = some o ∧ StandsFor q key o (.group "d/") := by
      intro g key rest hsome hkey
      obtain ⟨o, ho⟩ := Option.isSome_iff_exists.1 hsome
      have hin : Objects.IsGroup "" (some "/") "d/" := ⟨"/", ['d', '/'], rfl, rfl, rfl⟩
      refine ⟨key, o, ho, (Objects.standsFor_iff (q := q) List.nil_prefix).2 ?_⟩
      exact (Objects.item_of_group hin ⟨rest, hkey.symm⟩ o).symm
    intro g hg
    simp only [List.mem_cons, List.not_mem_nil, or_false] at hg
    rcases hg with rfl | rfl | rfl
    · exact hmember _ "d/1" ['1'] (by decide +kernel) rfl
    · exact hmember _ "d/2" ['2'] (by decide +kernel) rfl
    · exact hmember _ "d/3" ['3'] (by decide +kernel) rfl
  · obtain ⟨x, hx, ⟨o, -, hstands⟩, -⟩ := hobject "z" List.nil_prefix (by
      intro g hg
      simp only [List.mem_cons, List.not_mem_nil, or_false] at hg
      rcases hg with rfl | rfl | rfl
      · decide +kernel
      · decide +kernel
      · decide +kernel)
    exact ⟨x, hx, o, hstands⟩

end Depot.Memory
