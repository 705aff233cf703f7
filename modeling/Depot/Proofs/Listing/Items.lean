import Depot.Memory.Paging
import Depot.Proofs.Lookup
import Mathlib.Data.List.Infix
import Mathlib.Data.String.Basic

/-!
# The items of a listing

Keys that begin with the same text follow each other in the order of keys, so the keys of one group
do (`prefix_of_not_lt_of_lt`), and the items of a listing are in strictly ascending order
(`items_sorted`). Each object whose key begins as asked for has exactly one item that stands for it
(`standsFor_iff`).
-/

set_option autoImplicit false

namespace Depot.Memory.Objects

/-! ## The order of texts -/

/-- What lies between a text and one that begins with it begins with it, too. -/
theorem prefix_of_not_lt_of_lt {p x y : List Char} (hp : p <+: y) (hpx : ¬ x < p) (hxy : x < y) :
    p <+: x := by
  induction p generalizing x y with
  | nil => exact List.nil_prefix
  | cons a p ih =>
    cases y with
    | nil => exact absurd hxy (List.not_lt_nil x)
    | cons b y =>
      obtain ⟨rfl, hp'⟩ := List.cons_prefix_cons.1 hp
      cases x with
      | nil => exact absurd (List.nil_lt_cons a p) hpx
      | cons c x =>
        rw [List.cons_lt_cons_iff, not_or, not_and] at hpx
        rw [List.cons_lt_cons_iff] at hxy
        -- the first characters are the same, as neither is before the other
        rcases hxy with hca | ⟨rfl, hxy⟩
        · exact absurd hca hpx.1
        · exact List.cons_prefix_cons.2 ⟨rfl, ih hp' (hpx.2 rfl) hxy⟩

/-! ## The first delimiter -/

section UpToFirst

variable {mark x y f front rest : List Char}

theorem upToFirst_cons (mark : List Char) (c : Char) (cs : List Char) :
    upToFirst mark (c :: cs) =
      if mark <+: c :: cs then some mark else (upToFirst mark cs).map (c :: ·) := by
  rw [upToFirst]
  simp only [List.isPrefixOf_iff_prefix]

/-- A text that begins with the mark ends its front there. -/
theorem upToFirst_of_lead (h : mark <+: x) : upToFirst mark x = some mark := by
  cases x with
  | nil =>
    obtain rfl := List.prefix_nil.1 h
    rfl
  | cons c cs => rw [upToFirst_cons, if_pos h]

/-- The front goes up to the end of a mark, and there is no mark further in front. -/
theorem upToFirst_eq_some_iff : upToFirst mark x = some f ↔
    ∃ front rest, x = front ++ mark ++ rest ∧ f = front ++ mark ∧
      ∀ front' rest', front' ++ mark ++ rest' = x → front.length ≤ front'.length := by
  induction x generalizing f with
  | nil =>
    rw [upToFirst]
    constructor
    · intro h
      split at h
      · rename_i hmark
        cases h
        exact ⟨[], [], by simp [hmark], by simp [hmark], fun _ _ _ => Nat.zero_le _⟩
      · cases h
    · rintro ⟨front, rest, hx, rfl, -⟩
      obtain ⟨h, rfl⟩ := List.append_eq_nil_iff.1 hx.symm
      obtain ⟨rfl, rfl⟩ := List.append_eq_nil_iff.1 h
      rfl
  | cons c cs ih =>
    by_cases hmark : mark <+: c :: cs
    · rw [upToFirst_of_lead hmark, Option.some.injEq]
      obtain ⟨rest, hrest⟩ := hmark
      constructor
      · rintro rfl
        exact ⟨[], rest, hrest.symm, rfl, fun _ _ _ => Nat.zero_le _⟩
      · rintro ⟨front, -, -, rfl, hleast⟩
        have hfront := hleast [] rest hrest
        rw [List.length_nil, Nat.le_zero, List.length_eq_zero_iff] at hfront
        rw [hfront, List.nil_append]
    · -- the first character is in the front
      rw [upToFirst_cons, if_neg hmark, Option.map_eq_some_iff]
      constructor
      · rintro ⟨f, hf, rfl⟩
        obtain ⟨front, rest, rfl, rfl, hleast⟩ := ih.1 hf
        refine ⟨c :: front, rest, rfl, rfl, fun front' rest' h => ?_⟩
        cases front' with
        | nil => exact absurd ⟨rest', h⟩ hmark
        | cons c' front' =>
          rw [List.cons_append, List.cons_append, List.cons.injEq] at h
          exact Nat.succ_le_succ (hleast front' rest' h.2)
      · rintro ⟨front, rest, hx, rfl, hleast⟩
        cases front with
        | nil => exact absurd ⟨rest, hx.symm⟩ hmark
        | cons c' front =>
          rw [List.cons_append, List.cons_append, List.cons.injEq] at hx
          obtain ⟨rfl, hcs⟩ := hx
          refine ⟨front ++ mark, ih.2 ⟨front, rest, hcs, rfl, fun front' rest' h => ?_⟩, rfl⟩
          exact Nat.le_of_succ_le_succ (hleast (c :: front') rest' (congrArg (c :: ·) h))

/-- A text without a front has no mark in it. -/
theorem upToFirst_eq_none_iff : upToFirst mark x = none ↔ ¬ mark <:+: x := by
  induction x with
  | nil =>
    rw [upToFirst, List.infix_nil]
    split
    · rename_i hmark
      simp [hmark]
    · rename_i hmark
      simp [hmark]
  | cons c cs ih =>
    rw [List.infix_cons_iff, not_or, ← ih]
    by_cases hmark : mark <+: c :: cs
    · rw [upToFirst_of_lead hmark]
      simp [hmark]
    · rw [upToFirst_cons, if_neg hmark]
      simp [hmark]

theorem prefix_of_upToFirst (h : upToFirst mark x = some f) : f <+: x := by
  obtain ⟨front, rest, rfl, rfl, -⟩ := upToFirst_eq_some_iff.1 h
  exact List.prefix_append _ _

/-- Texts that begin with the same front have the same front. -/
theorem upToFirst_eq_of_lead (h : upToFirst mark x = some f) (hy : f <+: y) :
    upToFirst mark y = some f := by
  obtain ⟨front, rest, rfl, rfl, hleast⟩ := upToFirst_eq_some_iff.1 h
  obtain ⟨more, rfl⟩ := hy
  refine upToFirst_eq_some_iff.2 ⟨front, more, rfl, rfl, fun front' rest' h' => ?_⟩
  by_contra hlt
  rw [Nat.not_le] at hlt
  -- a mark further in front would lie within the front
  have hwithin : front' ++ mark <+: front ++ mark :=
    List.prefix_of_prefix_length_le ⟨rest', h'⟩ (List.prefix_append _ more) (by
      rw [List.length_append, List.length_append]
      omega)
  obtain ⟨between, hbetween⟩ := hwithin
  have hearly := hleast front' (between ++ rest) (by
    rw [← List.append_assoc, hbetween])
  exact Nat.not_le.2 hlt hearly

end UpToFirst

/-! ## Groups -/

section Item

variable {lead key key' g : String} {delimiter : Option String} {o o' : StoredObject}

/-- A text is what the keys of a group begin with. -/
def IsGroup (lead : String) (delimiter : Option String) (g : String) : Prop :=
  ∃ d f, delimiter = some d ∧ upToFirst d.toList f = some f ∧ g = lead ++ String.ofList f

theorem IsGroup.lead_prefix (h : IsGroup lead delimiter g) : lead.toList <+: g.toList := by
  obtain ⟨d, f, -, -, rfl⟩ := h
  rw [String.toList_append]
  exact List.prefix_append _ _

/-- All keys that begin with the text of a group are in the group. -/
theorem item_of_group (h : IsGroup lead delimiter g) (hkey : g.toList <+: key.toList)
    (o : StoredObject) : item lead delimiter key o = .group g := by
  obtain ⟨d, f, rfl, hf, rfl⟩ := h
  rw [String.toList_append, String.toList_ofList] at hkey
  obtain ⟨rest, hrest⟩ := hkey
  have hdrop : key.toList.drop lead.toList.length = f ++ rest := by
    rw [← hrest, List.append_assoc, List.drop_left]
  rw [item, hdrop]
  simp only [upToFirst_eq_of_lead hf (List.prefix_append f rest)]

/-- An object is in a group or stands for itself. -/
theorem item_cases (hkey : lead.toList <+: key.toList) (delimiter : Option String)
    (o : StoredObject) :
    (∃ g, IsGroup lead delimiter g ∧ g.toList <+: key.toList ∧
      item lead delimiter key o = .group g) ∨
      (∀ g, IsGroup lead delimiter g → ¬ g.toList <+: key.toList) ∧
        item lead delimiter key o = .object (o.attributes key) := by
  by_cases hgroup : ∃ g, IsGroup lead delimiter g ∧ g.toList <+: key.toList
  · obtain ⟨g, hg, hprefix⟩ := hgroup
    exact Or.inl ⟨g, hg, hprefix, item_of_group hg hprefix o⟩
  · refine Or.inr ⟨fun g hg hprefix => hgroup ⟨g, hg, hprefix⟩, ?_⟩
    cases delimiter with
    | none => rfl
    | some d =>
      obtain ⟨rest, hrest⟩ := hkey
      have hdrop : key.toList.drop lead.toList.length = rest := by
        rw [← hrest, List.drop_left]
      simp only [item, hdrop]
      cases hf : upToFirst d.toList rest with
      | none => rfl
      | some f =>
        -- the front would be the text of a group
        refine absurd ⟨lead ++ String.ofList f, ⟨d, f, rfl, ?_, rfl⟩, ?_⟩ hgroup
        · exact upToFirst_eq_of_lead hf (List.prefix_refl f)
        · rw [String.toList_append, String.toList_ofList, ← hrest, List.prefix_append_right_inj]
          exact prefix_of_upToFirst hf

/-- The item of an object is sorted no later than the object. -/
theorem item_key_le (hkey : lead.toList <+: key.toList) (delimiter : Option String)
    (o : StoredObject) : (item lead delimiter key o).key ≤ key := by
  rcases item_cases hkey delimiter o with ⟨g, -, hprefix, hitem⟩ | ⟨-, hitem⟩
  · rw [hitem, ← not_lt, String.lt_iff_toList_lt]
    exact List.not_lt.2 hprefix.le
  · rw [hitem]
    exact le_refl key

/-- **Groups keep the order.** The items of two objects are the same or in the order of the
objects. -/
theorem item_eq_or_lt (hkey : lead.toList <+: key.toList) (hkey' : lead.toList <+: key'.toList)
    (hlt : key < key') (o o' : StoredObject) :
    item lead delimiter key o = item lead delimiter key' o' ∨
      (item lead delimiter key o).key < (item lead delimiter key' o').key := by
  have hle := item_key_le hkey delimiter o
  rcases item_cases hkey' delimiter o' with ⟨g, hg, hprefix, hitem'⟩ | ⟨-, hitem'⟩
  · rw [hitem']
    rcases lt_or_ge (item lead delimiter key o).key g with hbefore | hge
    · exact Or.inr hbefore
    · -- a key between the text of the group and a key of the group is in the group
      have hgkey : ¬ key.toList < g.toList := by
        rw [← String.lt_iff_toList_lt, not_lt]
        exact le_trans hge hle
      have hprefix' := prefix_of_not_lt_of_lt hprefix hgkey (String.lt_iff_toList_lt.1 hlt)
      exact Or.inl (item_of_group hg hprefix' o)
  · rw [hitem']
    exact Or.inr (lt_of_le_of_lt hle hlt)

end Item

/-! ## Items without repetitions -/

section Squash

variable {i : Listed} {l : List Listed}

theorem mem_squash : i ∈ squash l ↔ i ∈ l := by
  fun_induction squash l with
  | case1 a rest ih => rw [ih, List.mem_cons, List.mem_cons (a := i) (b := a) (l := a :: rest),
      List.mem_cons, ← or_assoc, or_self]
  | case2 a b rest hne ih => rw [List.mem_cons, ih, ← List.mem_cons]
  | case3 short _ => rfl

/-- Items of which equal ones follow each other are in order when they are not repeated. -/
theorem sorted_squash (h : l.Pairwise fun a b => a = b ∨ a.key < b.key) :
    (squash l).Pairwise fun a b => a.key < b.key := by
  fun_induction squash l with
  | case1 a rest ih => exact ih h.of_cons
  | case2 a b rest hne ih =>
    obtain ⟨hhead, htail⟩ := List.pairwise_cons.1 h
    refine List.pairwise_cons.2 ⟨fun x hx => ?_, ih htail⟩
    have hab : a.key < b.key := (hhead b List.mem_cons_self).resolve_left hne
    rcases hhead x (mem_squash.1 hx) with rfl | hlt
    · -- the first one cannot come again behind a later one
      rcases List.mem_cons.1 (mem_squash.1 hx) with rfl | hx
      · exact absurd rfl hne
      · rcases (List.pairwise_cons.1 htail).1 a hx with heq | hba
        · exact absurd heq.symm hne
        · exact absurd hba (lt_asymm hab)
    · exact hlt
  | case3 short hshort =>
    match short with
    | [] => exact .nil
    | [a] => exact List.pairwise_singleton _ a
    | a :: b :: rest => exact absurd rfl (hshort a b rest)

end Squash

/-! ## The items of a bucket -/

section Items

variable {objects : Objects} {q : Query} {key : String} {o : StoredObject} {i : Listed}

/-- The objects of a bucket whose keys begin with a text, in order. -/
def matching (objects : Objects) (bucket lead : String) : List (String × StoredObject) :=
  (objects.ofBucket bucket).filter fun e => lead.toList.isPrefixOf e.1.toList

theorem items_eq (objects : Objects) (q : Query) :
    objects.items q =
      squash ((objects.matching q.bucket q.lead).map fun e => item q.lead q.delimiter e.1 e.2) :=
  rfl

/-- What is stored at a location is the one entry of the location. -/
theorem mem_entries_iff {l : Location} : (l, o) ∈ objects.entries ↔ objects.get? l = some o := by
  obtain ⟨entries, hsorted⟩ := objects
  show (l, o) ∈ entries ↔ entries.lookup l = some o
  induction entries with
  | nil => simp
  | cons e es ih =>
    obtain ⟨l', o'⟩ := e
    obtain ⟨hhead, htail⟩ := List.pairwise_cons.1 hsorted
    rw [List.mem_cons, List.lookup_cons]
    by_cases hl : l = l'
    · -- the other entries are at later locations
      subst hl
      have hnot : (l, o) ∉ es := fun h => Location.lt_irrefl l (hhead (l, o) h)
      simp [hnot, eq_comm]
    · rw [beq_false_of_ne hl, ← ih htail]
      simp [hl]

theorem mem_ofBucket {bucket : String} :
    (key, o) ∈ objects.ofBucket bucket ↔ objects.get? ⟨bucket, key⟩ = some o := by
  rw [← mem_entries_iff, ofBucket, List.mem_map]
  constructor
  · rintro ⟨⟨l, o'⟩, hl, he⟩
    rw [List.mem_filter, decide_eq_true_eq] at hl
    cases he
    rw [← hl.2]
    exact hl.1
  · intro h
    exact ⟨_, List.mem_filter.2 ⟨h, decide_eq_true rfl⟩, rfl⟩

theorem mem_matching {bucket lead : String} : (key, o) ∈ objects.matching bucket lead ↔
    objects.get? ⟨bucket, key⟩ = some o ∧ lead.toList <+: key.toList := by
  rw [matching, List.mem_filter, mem_ofBucket, List.isPrefixOf_iff_prefix]

theorem sorted_ofBucket (objects : Objects) (bucket : String) :
    (objects.ofBucket bucket).Pairwise fun a b => a.1 < b.1 := by
  rw [ofBucket, List.pairwise_map]
  refine (objects.sorted.filter _).imp_of_mem fun {a b} ha hb hlt => ?_
  have hbucket : a.1.bucket = b.1.bucket := by
    rw [of_decide_eq_true (List.mem_filter.1 ha).2, of_decide_eq_true (List.mem_filter.1 hb).2]
  rcases Location.lt_iff.1 hlt with hlt | ⟨-, hlt⟩
  · rw [hbucket] at hlt
    exact absurd hlt (String.lt_irrefl _)
  · exact hlt

theorem sorted_matching (objects : Objects) (bucket lead : String) :
    (objects.matching bucket lead).Pairwise fun a b => a.1 < b.1 :=
  (objects.sorted_ofBucket bucket).filter _

theorem mem_items : i ∈ objects.items q ↔
    ∃ key o, (key, o) ∈ objects.matching q.bucket q.lead ∧
      item q.lead q.delimiter key o = i := by
  rw [items_eq, mem_squash, List.mem_map]
  exact Prod.exists

/-- **The items of a listing are in order**, and none comes twice. -/
theorem items_sorted (objects : Objects) (q : Query) :
    (objects.items q).Pairwise fun a b => a.key < b.key := by
  rw [items_eq]
  refine sorted_squash (List.pairwise_map.2 ?_)
  refine (objects.sorted_matching q.bucket q.lead).imp_of_mem fun {a b} ha hb hlt => ?_
  exact item_eq_or_lt (mem_matching.1 ha).2 (mem_matching.1 hb).2 hlt a.2 b.2

/-- There are no more items than objects in the bucket. -/
theorem length_items_le (objects : Objects) (q : Query) :
    (objects.items q).length ≤ (objects.ofBucket q.bucket).length := by
  have hsquash : ∀ l, (squash l).length ≤ l.length := by
    intro l
    fun_induction squash l with
    | case1 a rest ih => exact Nat.le_succ_of_le ih
    | case2 a b rest hne ih => exact Nat.succ_le_succ ih
    | case3 short _ => exact Nat.le_refl _
  refine Nat.le_trans (hsquash _) ?_
  rw [List.length_map]
  exact List.length_filter_le _ _

/-- **What stands for an object.** It is the one item that the listing makes of the object. -/
theorem standsFor_iff (hkey : q.lead.toList <+: key.toList) :
    StandsFor q key o i ↔ i = item q.lead q.delimiter key o := by
  obtain ⟨rest, hrest⟩ := hkey
  have hdrop : key.toList.drop q.lead.toList.length = rest := by
    rw [← hrest, List.drop_left]
  constructor
  · intro h
    cases h with
    | @object rest' hkey hnone =>
      rw [← hrest, List.append_cancel_left_eq] at hkey
      subst hkey
      cases hd : q.delimiter with
      | none => rfl
      | some d => simp only [item, hdrop, upToFirst_eq_none_iff.2 (hnone d hd)]
    | @group d g front rest' hd hkey hleast hg =>
      rw [← hrest, List.append_cancel_left_eq] at hkey
      subst hkey
      have hf := upToFirst_eq_some_iff.2 ⟨front, rest', rfl, rfl, hleast⟩
      have hgroup : g = q.lead ++ String.ofList (front ++ d.toList) := by
        rw [← String.toList_inj, hg, String.toList_append, String.toList_ofList]
      simp only [item, hd, hdrop, hf, hgroup]
  · rintro rfl
    cases hd : q.delimiter with
    | none =>
      refine .object hrest.symm fun d h => ?_
      rw [hd] at h
      cases h
    | some d =>
      simp only [item, hdrop]
      cases hf : upToFirst d.toList rest with
      | none =>
        refine .object hrest.symm fun d' h => ?_
        rw [hd] at h
        cases h
        exact upToFirst_eq_none_iff.1 hf
      | some f =>
        obtain ⟨front, rest', rfl, rfl, hleast⟩ := upToFirst_eq_some_iff.1 hf
        refine .group hd hrest.symm hleast ?_
        rw [String.toList_append, String.toList_ofList]

end Items

end Depot.Memory.Objects
