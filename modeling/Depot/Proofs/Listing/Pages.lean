import Depot.Proofs.Key.Bytes
import Depot.Proofs.Listing.Items
import Mathlib.Data.Nat.Init

/-!
# The pages of a listing

The token of a page is the key of its last item, and since the items are in order, what is behind
the token is what is behind the page (`filter_isAfter`). So a listing that is followed to its end is
cut up (`Cuts`), and nothing of it is lost or comes twice. The main statement is
`pagination_invisible`.
-/

set_option autoImplicit false

namespace Depot.Memory

/-! ## One page -/

namespace Objects

variable {objects : Objects} {q : Query} {size : Nat} {before rest : List Listed}

/-- A token stands for the items that were listed before: the last of them has it as its key. -/
inductive Marks : Option String → List Listed → Prop where
  | start : Marks none []
  | last (shown : List Listed) (i : Listed) : Marks (some i.key) (shown ++ [i])

/-- Behind a token is what was not listed before. -/
theorem filter_isAfter (hitems : objects.items q = before ++ rest) (h : Marks q.token before) :
    (objects.items q).filter (isAfter q.token) = rest := by
  have hsorted := objects.items_sorted q
  rw [hitems] at hsorted ⊢
  generalize q.token = token at h
  cases h with
  | start => exact List.filter_eq_self.2 fun _ _ => rfl
  | last shown i =>
    obtain ⟨hbefore, -, hrest⟩ := List.pairwise_append.1 hsorted
    obtain ⟨-, -, hshown⟩ := List.pairwise_append.1 hbefore
    have hi : ∀ x ∈ shown ++ [i], ¬ i.key < x.key := by
      intro x hx
      rcases List.mem_append.1 hx with hx | hx
      · exact lt_asymm (hshown x hx i (List.mem_singleton_self i))
      · rw [List.mem_singleton.1 hx]
        exact lt_irrefl i.key
    rw [List.filter_append, List.filter_eq_nil_iff.2, List.filter_eq_self.2, List.nil_append]
    · intro x hx
      exact decide_eq_true (hrest i (by simp) x hx)
    · intro x hx
      simpa [isAfter] using hi x hx

theorem page_eq (hitems : objects.items q = before ++ rest) (h : Marks q.token before)
    (size : Nat) : objects.page size q = ⟨rest.take size,
      if size < rest.length then (rest.take size).getLast?.map (·.key) else none⟩ := by
  rw [← filter_isAfter hitems h]
  rfl

/-- The items of a page are in order, as all of them are. -/
theorem page_sorted (objects : Objects) (size : Nat) (q : Query) :
    (objects.page size q).items.Pairwise fun a b => a.key < b.key :=
  ((objects.items_sorted q).filter _).sublist (List.take_sublist size _)

/-- A page has all that is behind its token, or it is full and has a token for the rest. -/
theorem page_split (objects : Objects) (q : Query) (hsize : 1 ≤ size)
    (hrest : (objects.items q).filter (isAfter q.token) = rest) :
    rest.length ≤ size ∧ objects.page size q = ⟨rest, none⟩ ∨
      ∃ shown i later, rest = shown ++ i :: later ∧ later ≠ [] ∧ shown.length + 1 = size ∧
        objects.page size q = ⟨shown ++ [i], some i.key⟩ := by
  have hpage : objects.page size q = ⟨rest.take size,
      if size < rest.length then (rest.take size).getLast?.map (·.key) else none⟩ := by
    rw [← hrest]
    rfl
  rw [hpage]
  by_cases hall : rest.length ≤ size
  · refine Or.inl ⟨hall, ?_⟩
    rw [List.take_of_length_le hall, if_neg (Nat.not_lt.2 hall)]
  · rw [Nat.not_le] at hall
    have hlength : (rest.take size).length = size := List.length_take_of_le (Nat.le_of_lt hall)
    have hne : rest.take size ≠ [] := by
      intro hnil
      rw [hnil, List.length_nil] at hlength
      omega
    obtain ⟨shown, i, htake⟩ : ∃ shown i, rest.take size = shown ++ [i] :=
      ⟨_, _, (List.dropLast_append_getLast hne).symm⟩
    rw [htake] at hlength ⊢
    -- the last item that is shown marks the rest
    refine Or.inr ⟨shown, i, rest.drop size, ?_, ?_, ?_, ?_⟩
    · have hsplit := List.take_append_drop size rest
      rw [htake, List.append_assoc] at hsplit
      exact hsplit.symm
    · exact List.ne_nil_of_length_pos (by rw [List.length_drop]; omega)
    · rw [← hlength, List.length_append]
      rfl
    · rw [if_pos hall, List.getLast?_append_of_ne_nil _ (by simp)]
      rfl

/-- A page has all that is left, or it is full and has a token for the rest. -/
theorem page_cases (hitems : objects.items q = before ++ rest) (h : Marks q.token before)
    (hsize : 1 ≤ size) :
    rest.length ≤ size ∧ objects.page size q = ⟨rest, none⟩ ∨
      ∃ shown i later, rest = shown ++ i :: later ∧ later ≠ [] ∧ shown.length + 1 = size ∧
        objects.page size q = ⟨shown ++ [i], some i.key⟩ :=
  page_split objects q hsize (filter_isAfter hitems h)

end Objects

/-! ## All pages -/

/-- Items are cut up into pages of a size: the last page has what is left, the others are full and
carry the key of their last item. -/
inductive Cuts (size : Nat) : List Listed → List Page → Prop where
  | last {rest : List Listed} : rest.length ≤ size → Cuts size rest [⟨rest, none⟩]
  | more {shown rest : List Listed} {i : Listed} {pages : List Page} : shown.length + 1 = size →
      rest ≠ [] → Cuts size rest pages →
      Cuts size (shown ++ i :: rest) (⟨shown ++ [i], some i.key⟩ :: pages)

section Cuts

variable {size : Nat} {rest : List Listed} {pages pages' : List Page}

theorem exists_cuts (hsize : 1 ≤ size) (rest : List Listed) : ∃ pages, Cuts size rest pages := by
  -- on how many items are left
  induction hlength : rest.length using Nat.strongRecOn generalizing rest with
  | ind n ih =>
    by_cases hall : rest.length ≤ size
    · exact ⟨_, .last hall⟩
    · obtain ⟨i, later, hdrop⟩ : ∃ i later, rest.drop (size - 1) = i :: later := by
        refine List.exists_cons_of_ne_nil (List.ne_nil_of_length_pos ?_)
        rw [List.length_drop]
        omega
      have hlater : later.length + 1 = rest.length - (size - 1) := by
        rw [← List.length_drop, hdrop, List.length_cons]
      obtain ⟨pages, hpages⟩ := ih later.length (by omega) later rfl
      rw [← List.take_append_drop (size - 1) rest, hdrop]
      refine ⟨_, .more ?_ ?_ hpages⟩
      · rw [List.length_take_of_le (by omega)]
        omega
      · exact List.ne_nil_of_length_pos (by omega)

theorem Cuts.eq (h : Cuts size rest pages) (h' : Cuts size rest pages') : pages = pages' := by
  induction h generalizing pages' with
  | @last all hall =>
    generalize hrest : all = rest at h'
    cases h' with
    | last _ => rfl
    | @more shown later i _ hfull hlater _ =>
      have hpos := List.length_pos_iff.2 hlater
      rw [hrest, List.length_append, List.length_cons] at hall
      omega
  | @more shown later i pages hfull hlater _ ih =>
    generalize hrest : shown ++ i :: later = rest at h'
    have hpos := List.length_pos_iff.2 hlater
    cases h' with
    | last hall =>
      rw [← hrest, List.length_append, List.length_cons] at hall
      omega
    | more hfull' _ hpages =>
      -- both first pages are full
      obtain ⟨rfl, hcons⟩ := List.append_inj hrest (by omega)
      obtain ⟨rfl, rfl⟩ := List.cons.inj hcons
      rw [ih hpages]

theorem Cuts.flatMap_items (h : Cuts size rest pages) : pages.flatMap (·.items) = rest := by
  induction h with
  | last _ => exact List.append_nil _
  | more _ _ _ ih => rw [List.flatMap_cons, ih, List.append_assoc, List.singleton_append]

theorem Cuts.ne_nil (h : Cuts size rest pages) : pages ≠ [] := by
  cases h <;> nofun

theorem Cuts.full (h : Cuts size rest pages) :
    ∀ page ∈ pages.dropLast, page.items.length = size := by
  induction h with
  | last _ => nofun
  | more hfull _ hpages ih =>
    rw [List.dropLast_cons_of_ne_nil hpages.ne_nil]
    intro page hpage
    rcases List.mem_cons.1 hpage with rfl | hpage
    · rw [← hfull, List.length_append]
      rfl
    · exact ih page hpage

/-- A page carries a token when something is left behind it, and only then. -/
theorem Cuts.next_isSome_iff (h : Cuts size rest pages) :
    ∀ before page after, pages = before ++ page :: after →
      (page.next.isSome = true ↔ after.flatMap (·.items) ≠ []) := by
  induction h with
  | last _ =>
    intro before page after hsplit
    rw [eq_comm, List.append_eq_singleton_iff] at hsplit
    rcases hsplit with ⟨rfl, hpage⟩ | ⟨-, hnil⟩
    · cases hpage
      simp
    · cases hnil
  | more _ hrest hpages ih =>
    intro before page after hsplit
    cases before with
    | nil =>
      obtain ⟨rfl, rfl⟩ := List.cons.inj hsplit
      rw [hpages.flatMap_items]
      exact ⟨fun _ => hrest, fun _ => rfl⟩
    | cons first before => exact ih before page after (List.cons.inj hsplit).2

theorem Cuts.length_eq (h : Cuts size rest pages) (hsize : 1 ≤ size) :
    pages.length = max 1 ((rest.length + size - 1) / size) := by
  induction h with
  | @last rest hall =>
    have hone : (rest.length + size - 1) / size ≤ 1 := by
      rw [Nat.div_le_iff_le_mul_add_pred (by omega)]
      omega
    rw [List.length_singleton, max_eq_left hone]
  | @more shown later i pages hfull hlater _ ih =>
    have hpos := List.length_pos_iff.2 hlater
    have hcount : (shown ++ i :: later).length + size - 1 = later.length + size - 1 + size := by
      rw [List.length_append, List.length_cons]
      omega
    have hleft : 1 ≤ (later.length + size - 1) / size := by
      rw [Nat.le_div_iff_mul_le (by omega)]
      omega
    rw [List.length_cons, ih, hcount, Nat.add_div_right _ (by omega), max_eq_right hleft,
      max_eq_right (by omega)]

end Cuts

/-! ## What remains -/

section Remain

variable {objects : Objects} {size : Nat} {q : Query} {page : Page} {pages : List Page}

/-- Items up to the last one of a page are before the next page. -/
theorem split_append (before shown : List Listed) (i : Listed) (later : List Listed) :
    before ++ (shown ++ i :: later) = before ++ (shown ++ [i]) ++ later := by
  simp only [List.append_assoc, List.singleton_append]

/-- The pages that a listing still has behind a token. -/
inductive Objects.Remain (objects : Objects) (size : Nat) (q : Query) :
    Option String → List Page → Prop where
  | done {token : Option String} : Remain objects size q token []
  | more {token : Option String} {before rest : List Listed} {pages : List Page} :
      objects.items q = before ++ rest → Marks token before → Cuts size rest pages →
      Remain objects size q token pages

/-- All pages remain at the beginning. -/
theorem Objects.Remain.of_cuts (h : Cuts size (objects.items q) pages) :
    objects.Remain size q none pages :=
  .more (List.nil_append _).symm .start h

/-- The next page that remains is the one that is answered for the token. Its own token tells
whether it is the last one. -/
theorem Objects.Remain.cons {token : Option String}
    (h : objects.Remain size q token (page :: pages)) :
    page = objects.page size { q with token := token } ∧ (page.next = none ↔ pages = []) ∧
      (pages ≠ [] → page.items ≠ []) ∧ objects.Remain size q (page.next.or token) pages := by
  cases h with
  | more hitems hmarks hcuts =>
    rw [page_eq (q := { q with token := token }) hitems hmarks]
    cases hcuts with
    | last hall =>
      rw [List.take_of_length_le hall, if_neg (Nat.not_lt.2 hall)]
      exact ⟨rfl, by simp, nofun, .done⟩
    | @more shown later i pages hfull hlater hpages =>
      have htake : (shown ++ i :: later).take size = shown ++ [i] := by
        rw [← List.nil_append (shown ++ i :: later), split_append, List.nil_append]
        exact List.take_left' (by rw [← hfull, List.length_append]; rfl)
      have hpos := List.length_pos_iff.2 hlater
      have hlength : size < (shown ++ i :: later).length := by
        rw [List.length_append, List.length_cons]
        omega
      rw [htake, if_pos hlength, List.getLast?_append_of_ne_nil _ (by simp)]
      refine ⟨rfl, by simp [hpages.ne_nil], fun _ => by simp, ?_⟩
      refine .more (hitems.trans (split_append _ shown i later)) ?_ hpages
      rw [← List.append_assoc]
      exact .last _ i

end Remain

/-! ## Following the tokens -/

section Follows

variable {c : Client} {m : Memory} {q : Query} {before rest : List Listed} {pages : List Page}

/-- A call that is not to fail answers with the page, and is recorded. -/
theorem list_eq (hlist : ∀ n, m.failures.lookup .list = some n → n = 0) (c : Client) (q : Query) :
    backend.list c q m =
      .now { m with served := c :: m.served } (.ok (m.objects.page m.pageSize q)) := by
  have henter : m.enter c .list = ({ m with served := c :: m.served }, .ok ()) := by
    unfold enter takeFailure
    split
    · rename_i heq
      split at heq
      · rename_i n hfailures
        exact absurd (hlist _ hfailures) (Nat.succ_ne_zero n)
      · cases heq
        rfl
  simp only [backend, call, henter]

/-- The pages that remain are followed to the last one. -/
theorem Follows.of_remain {token : Option String}
    (hlist : ∀ n, m.failures.lookup .list = some n → n = 0)
    (h : m.objects.Remain m.pageSize q token pages) (hne : pages ≠ []) :
    Follows c m { q with token := token } pages := by
  induction pages generalizing m token with
  | nil => exact absurd rfl hne
  | cons page pages ih =>
    obtain ⟨hpage, hlast, -, hlater⟩ := h.cons
    cases hnext : page.next with
    | none =>
      obtain rfl := hlast.1 hnext
      exact .last (list_eq hlist c _) (congrArg Except.ok hpage.symm) hnext
    | some next =>
      rw [hnext] at hlater
      refine .more (list_eq hlist c _) (congrArg Except.ok hpage.symm) hnext
        (ih hlist hlater fun hnil => ?_)
      rw [hlast.2 hnil] at hnext
      cases hnext

/-- **Following the tokens of a listing cuts up what is left of it.** -/
theorem follows_iff_cuts (hlist : ∀ n, m.failures.lookup .list = some n → n = 0)
    (hsize : 1 ≤ m.pageSize) (hitems : m.objects.items q = before ++ rest)
    (hmarks : Objects.Marks q.token before) :
    Follows c m q pages ↔ Cuts m.pageSize rest pages := by
  constructor
  · intro h
    induction h generalizing before rest with
    | @last m q page a ha hpage hnext =>
      subst ha
      rw [list_eq hlist] at hpage
      cases hpage
      rcases Objects.page_cases hitems hmarks hsize with ⟨hall, hpage⟩ | ⟨_, i, _, -, -, -, hpage⟩
      · rw [hpage]
        exact .last hall
      · rw [hpage] at hnext
        cases hnext
    | @more m q page a token pages ha hpage hnext _ ih =>
      subst ha
      rw [list_eq hlist] at hpage ih
      cases hpage
      rcases Objects.page_cases hitems hmarks hsize with
        ⟨-, hpage⟩ | ⟨shown, i, later, rfl, hlater, hfull, hpage⟩
      · rw [hpage] at hnext
        cases hnext
      · rw [hpage] at hnext ⊢
        cases hnext
        refine .more hfull hlater
          (ih hlist hsize (hitems.trans (split_append before shown i later)) ?_)
        rw [← List.append_assoc]
        exact .last _ i
  · intro h
    exact .of_remain (q := q) hlist (.more hitems hmarks h) h.ne_nil

/-- **Pages are invisible.** A listing of any bucket, of the keys that begin with any text, with any
delimiter or none, is followed from its first page on, while no call of this kind is to fail:

- it comes to its end, in one way only;
- its pages together are the single page of a store whose pages are larger than the bucket;
- the keys of its items are strictly ascending, byte by byte, over all pages;
- every object with such a key has exactly one item that stands for it, and every item stands for
  such an object;
- every page but the last one is full;
- a page carries a token exactly when something is left behind it;
- so the number of pages is that of the items divided by the page size, rounded up, and at least
  one. -/
theorem pagination_invisible (m : Memory) (c : Client) (bucket lead : String)
    (delimiter : Option String) (hsize : 1 ≤ m.pageSize)
    (hlist : ∀ n, m.failures.lookup .list = some n → n = 0) :
    let q : Query := ⟨bucket, lead, delimiter, none⟩
    ∃ pages, Follows c m q pages ∧ (∀ pages', Follows c m q pages' → pages' = pages) ∧
      let all := pages.flatMap (·.items)
      (∀ size, (m.objects.keys bucket).length < size →
        (backend.list c q { m with pageSize := size }).result = .ok ⟨all, none⟩) ∧
      (all.map fun i => Key.bytes i.key).Pairwise (· < ·) ∧
      (∀ key o, m.objects.get? ⟨bucket, key⟩ = some o → lead.toList <+: key.toList →
        ∃! i, i ∈ all ∧ StandsFor q key o i) ∧
      (∀ i ∈ all, ∃ key o, m.objects.get? ⟨bucket, key⟩ = some o ∧
        lead.toList <+: key.toList ∧ StandsFor q key o i) ∧
      (∀ page ∈ pages.dropLast, page.items.length = m.pageSize) ∧
      (∀ before page after, pages = before ++ page :: after →
        (page.next.isSome = true ↔ after.flatMap (·.items) ≠ [])) ∧
      pages.length = max 1 ((all.length + m.pageSize - 1) / m.pageSize) := by
  intro q
  have hfollows : ∀ pages, Follows c m q pages ↔ Cuts m.pageSize (m.objects.items q) pages :=
    fun pages => follows_iff_cuts hlist hsize (List.nil_append _).symm .start
  obtain ⟨pages, hcuts⟩ := exists_cuts hsize (m.objects.items q)
  refine ⟨pages, (hfollows pages).2 hcuts, fun pages' h => ((hfollows pages').1 h).eq hcuts, ?_⟩
  simp only [hcuts.flatMap_items]
  refine ⟨?_, ?_, ?_, ?_, hcuts.full, hcuts.next_isSome_iff, hcuts.length_eq hsize⟩
  · intro size hlarge
    rw [list_eq (m := { m with pageSize := size }) hlist]
    have hall : (m.objects.items q).length ≤ size := by
      refine Nat.le_trans (m.objects.length_items_le q) (Nat.le_of_lt ?_)
      rwa [Objects.keys, List.length_map] at hlarge
    refine congrArg Except.ok ?_
    rcases Objects.page_cases (List.nil_append (m.objects.items q)).symm .start
      (Nat.one_le_of_lt hlarge) with ⟨-, hpage⟩ | ⟨_, i, later, hsplit, hlater, hfull, -⟩
    · exact hpage
    · have hpos := List.length_pos_iff.2 hlater
      rw [hsplit, List.length_append, List.length_cons] at hall
      omega
  · rw [List.pairwise_map]
    exact (m.objects.items_sorted q).imp Key.bytes_lt_bytes
  · intro key o ho hkey
    refine ⟨_, ⟨Objects.mem_items.2 ⟨key, o, Objects.mem_matching.2 ⟨ho, hkey⟩, rfl⟩, ?_⟩, ?_⟩
    · exact (Objects.standsFor_iff hkey).2 rfl
    · rintro i ⟨-, hi⟩
      exact (Objects.standsFor_iff hkey).1 hi
  · intro i hi
    obtain ⟨key, o, ho, rfl⟩ := Objects.mem_items.1 hi
    obtain ⟨ho, hkey⟩ := Objects.mem_matching.1 ho
    exact ⟨key, o, ho, hkey, (Objects.standsFor_iff hkey).2 rfl⟩

/-- A group of two keys that begins with the last place of the first page is listed once, and the
page behind it has the rest. -/
theorem pagination_invisible_of_group :
    ∃ (m : Memory) (pages : List Page),
      m.objects.keys "b" = ["a", "c--1", "c--2", "d"] ∧ m.pageSize = 2 ∧
      Follows 1 m ⟨"b", "", some "--", none⟩ pages ∧ pages.length = 2 ∧
      (pages.flatMap (·.items)).map (·.key) = ["a", "c--", "d"] := by
  let m : Memory := ["d", "c--2", "a", "c--1"].foldl (fun m key => m.insert ⟨"b", key⟩ .empty)
    (.new 2)
  have hlist : ∀ n, m.failures.lookup .list = some n → n = 0 := by
    intro n hn
    cases (show none = some n from hn)
  obtain ⟨pages, hpages, -, hsingle, -, -, -, -, -, hlength⟩ :=
    pagination_invisible m 1 "b" "" (some "--") (by decide) hlist
  have hall := hsingle 5 (by decide +kernel)
  have hkeys : (pages.flatMap (·.items)).map (·.key) = ["a", "c--", "d"] := by
    have hlisted : ((m.objects.page 5 ⟨"b", "", some "--", none⟩).items).map (·.key) =
        ["a", "c--", "d"] := by
      decide +kernel
    rw [list_eq (m := { m with pageSize := 5 }) hlist] at hall
    have hpage := Except.ok.inj hall
    rw [← hlisted, show m.objects.page 5 ⟨"b", "", some "--", none⟩ = _ from hpage]
  refine ⟨m, pages, by decide +kernel, by decide, hpages, ?_, hkeys⟩
  have hcount : (pages.flatMap (·.items)).length = 3 := by
    rw [← List.length_map (f := fun i : Listed => i.key), hkeys]
    rfl
  rw [hlength, hcount]
  decide

end Follows

end Depot.Memory
