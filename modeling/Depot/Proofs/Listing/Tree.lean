import Depot.Proofs.Key.Algebra
import Depot.Proofs.Listing.Items
import Depot.Storage.Traversal
import Mathlib.Data.List.Sort

/-!
# The tree of a listing

The objects of a bucket in the order of their keys are the items of a listing with groups, each
group replaced by its own objects (`items_eq_flatMap`). Where the delimiter separates segments and
keys are normal, a group is what is below a directory, so that the group is listed by walking the
path of the directory (`walkPrefix_directory`), and names are joined onto the paths of the directories as
they are onto the path where it all began (`join_join`).
-/

set_option autoImplicit false

namespace Depot

/-! ## Groups and their objects -/

namespace Memory.Objects

variable {objects : Objects} {bucket lead d : String} {i x : Listed}

/-- The objects that an item of a listing stands for. -/
def expand (objects : Objects) (bucket : String) : Listed → List Listed
  | .object a => [.object a]
  | .group g => objects.items ⟨bucket, g, none, none⟩

theorem mem_flat : x ∈ objects.items ⟨bucket, lead, none, none⟩ ↔
    ∃ key o, (key, o) ∈ objects.matching bucket lead ∧ .object (o.attributes key) = x :=
  mem_items

/-- An item stands for the objects of which it is the item. -/
theorem mem_expand (hi : i ∈ objects.items ⟨bucket, lead, some d, none⟩) :
    x ∈ objects.expand bucket i ↔ ∃ key o, (key, o) ∈ objects.matching bucket lead ∧
      item lead (some d) key o = i ∧ .object (o.attributes key) = x := by
  obtain ⟨key₀, o₀, hmatching, rfl⟩ := mem_items.1 hi
  dsimp only at hmatching ⊢
  obtain ⟨hget, hlead⟩ := mem_matching.1 hmatching
  rcases item_cases hlead (some d) o₀ with ⟨g, hg, -, hitem⟩ | ⟨hnone, hitem⟩
  · rw [hitem]
    constructor
    · intro hx
      obtain ⟨key, o, hkey, rfl⟩ := mem_flat.1 hx
      obtain ⟨ho, hlead⟩ := mem_matching.1 hkey
      refine ⟨key, o, mem_matching.2 ⟨ho, ?_⟩, item_of_group hg hlead o, rfl⟩
      exact hg.lead_prefix.trans hlead
    · rintro ⟨key, o, hkey, hkeyitem, rfl⟩
      obtain ⟨ho, hlead⟩ := mem_matching.1 hkey
      refine mem_flat.2 ⟨key, o, mem_matching.2 ⟨ho, ?_⟩, rfl⟩
      rcases item_cases hlead (some d) o with ⟨g', -, hlead', hitem'⟩ | ⟨-, hitem'⟩
      · rw [hitem'] at hkeyitem
        cases hkeyitem
        exact hlead'
      · rw [hitem'] at hkeyitem
        cases hkeyitem
  · rw [hitem]
    constructor
    · intro hx
      exact ⟨key₀, o₀, hmatching, hitem, (List.mem_singleton.1 hx).symm⟩
    · rintro ⟨key, o, hkey, hkeyitem, rfl⟩
      obtain ⟨-, hlead⟩ := mem_matching.1 hkey
      rcases item_cases hlead (some d) o with ⟨g', -, -, hitem'⟩ | ⟨-, hitem'⟩
      · rw [hitem'] at hkeyitem
        cases hkeyitem
      · rw [hitem'] at hkeyitem
        rw [hkeyitem]
        exact List.mem_singleton_self _

/-- **A listing with groups is the flat listing.** Each group is in the place of its objects. -/
theorem items_eq_flatMap (objects : Objects) (bucket lead d : String) :
    objects.items ⟨bucket, lead, none, none⟩ =
      (objects.items ⟨bucket, lead, some d, none⟩).flatMap (objects.expand bucket) := by
  have hirrefl : Std.Irrefl fun a b : Listed => a.key < b.key := ⟨fun a => lt_irrefl a.key⟩
  have hantisymm : Std.Antisymm fun a b : Listed => a.key < b.key :=
    ⟨fun a b hab hba => absurd hba (lt_asymm hab)⟩
  -- both are in strict order, so it is enough that they have the same members
  refine List.Pairwise.eq_of_mem_iff (objects.items_sorted _) ?_ fun x => ?_
  · refine List.pairwise_flatMap.2 ⟨fun i hi => ?_, ?_⟩
    · cases i with
      | object a => exact List.pairwise_singleton _ _
      | group g => exact objects.items_sorted _
    · refine (objects.items_sorted _).imp_of_mem fun {i j} hi hj hij x hx y hy => ?_
      obtain ⟨key, o, hkey, rfl, rfl⟩ := (mem_expand hi).1 hx
      obtain ⟨key', o', hkey', rfl, rfl⟩ := (mem_expand hj).1 hy
      rw [mem_matching] at hkey hkey'
      show key < key'
      rcases lt_trichotomy key key' with hlt | rfl | hlt
      · exact hlt
      · -- an object has only one item
        rw [Option.some.inj (hkey.1.symm.trans hkey'.1)] at hij
        exact absurd hij (lt_irrefl _)
      · have hcases : item lead (some d) key' o' = item lead (some d) key o ∨ _ :=
          item_eq_or_lt hkey'.2 hkey.2 hlt o' o
        rcases hcases with heq | hlt'
        · rw [heq] at hij
          exact absurd hij (lt_irrefl _)
        · exact absurd hlt' (lt_asymm hij)
  · rw [List.mem_flatMap, mem_flat]
    constructor
    · rintro ⟨key, o, hkey, rfl⟩
      have hi : item lead (some d) key o ∈ objects.items ⟨bucket, lead, some d, none⟩ :=
        mem_items.2 ⟨key, o, hkey, rfl⟩
      exact ⟨_, hi, (mem_expand hi).2 ⟨key, o, hkey, rfl, rfl⟩⟩
    · rintro ⟨i, hi, hx⟩
      obtain ⟨key, o, hkey, -, rfl⟩ := (mem_expand hi).1 hx
      exact ⟨key, o, hkey, rfl⟩

end Memory.Objects

/-! ## Directories -/

namespace Key

variable {sep : Char → Bool} {ss : List Segment} {s : Segment} {path name key lead g : String}

theorem pieces_append_cons {c : Char} (hc : sep c = true) (xs ys : List Char) :
    pieces sep (xs ++ c :: ys) = pieces sep xs ++ pieces sep ys := by
  simp only [pieces_eq_splitOnP]
  exact List.splitOnP_append_cons xs ys hc

/-- A text in which nothing separates is one piece. -/
theorem pieces_of_whole (h : ∀ c ∈ s, sep c = false) : pieces sep s = [s] := by
  induction s with
  | nil => rfl
  | cons c s ih =>
    rw [pieces, h c List.mem_cons_self, ih fun d hd => h d (List.mem_cons_of_mem c hd)]

/-- Segments with a separator behind each of them. -/
def trunk (ss : List Segment) : List Char := ss.flatMap (· ++ [separator])

theorem trunk_concat (ss : List Segment) (s : Segment) :
    trunk (ss ++ [s]) = trunk ss ++ (s ++ [separator]) := by
  simp [trunk]

theorem toList_render_push (hne : ss ≠ []) : ((render ss).push separator).toList = trunk ss := by
  rw [String.toList_push, toList_render]
  induction ss with
  | nil => exact absurd rfl hne
  | cons s ss ih =>
    cases ss with
    | nil => simp [trunk]
    | cons s' ss =>
      have htail := ih (List.cons_ne_nil s' ss)
      rw [List.intercalate_cons_cons, List.append_assoc, htail, List.append_assoc]
      simp [trunk]

/-- What follows some segments is read after them. -/
theorem pieces_trunk_append (h : ∀ s ∈ ss, separator ∉ s) (x : List Char) :
    pieces (· == separator) (trunk ss ++ x) = ss ++ pieces (· == separator) x := by
  induction ss with
  | nil => rfl
  | cons s ss ih =>
    have hs : ∀ c ∈ s, (c == separator) = false := by
      intro c hc
      refine beq_false_of_ne ?_
      rintro rfl
      exact h s List.mem_cons_self hc
    have hsplit : trunk (s :: ss) ++ x = s ++ separator :: (trunk ss ++ x) := by
      simp [trunk]
    rw [hsplit, pieces_append_cons (by simp), pieces_of_whole hs,
      ih fun r hr => h r (List.mem_cons_of_mem s hr)]
    rfl

/-- The pieces of a normal key are segments. -/
theorem IsNormal.isSegment (h : IsNormal key) (hs : s ∈ pieces (· == separator) key.toList) :
    IsSegment s := by
  obtain ⟨hnil, hdot, hdots, hback⟩ := h s hs
  refine ⟨hnil, hdot, hdots, fun c hc => ?_⟩
  have hslash : (c == '/') = false := eq_false_of_mem_pieces hs c hc
  have hother : (c == '\\') = false := by
    refine beq_false_of_ne ?_
    rintro rfl
    exact hback hc
  rw [isSeparator, hslash, hother]
  rfl

/-- **Groups are directories.** Behind some segments, a group of normal keys has one more of
them. -/
theorem exists_segment_of_isGroup (hlead : lead.toList = trunk ss) (hss : Canonical ss)
    (hg : Memory.Objects.IsGroup lead (some (String.singleton separator)) g) (hkey : IsNormal key)
    (hbegins : g.toList <+: key.toList) :
    ∃ s, IsSegment s ∧ g = lead ++ String.ofList (s ++ [separator]) := by
  obtain ⟨d, f, hd, hf, rfl⟩ := hg
  cases hd
  obtain ⟨s, rest, -, rfl, hleast⟩ := Memory.Objects.upToFirst_eq_some_iff.1 hf
  have hmark : (String.singleton separator).toList = [separator] := rfl
  rw [hmark] at hleast hbegins ⊢
  refine ⟨s, ?_, rfl⟩
  -- the first separator is behind the segment
  have hfree : separator ∉ s := by
    intro hmem
    obtain ⟨before, after, rfl⟩ := List.append_of_mem hmem
    have hless := hleast before (after ++ [separator]) (by simp)
    simp only [List.length_append, List.length_cons] at hless
    omega
  have hwhole : ∀ c ∈ s, (c == separator) = false := by
    intro c hc
    refine beq_false_of_ne ?_
    rintro rfl
    exact hfree hc
  obtain ⟨tail, htail⟩ := hbegins
  have hpieces : pieces (· == separator) key.toList =
      ss ++ s :: pieces (· == separator) tail := by
    rw [← htail, String.toList_append, String.toList_ofList, hlead, List.append_assoc,
      pieces_trunk_append hss.separator_notMem, List.append_assoc, List.singleton_append,
      pieces_append_cons (by simp), pieces_of_whole hwhole]
    rfl
  exact hkey.isSegment (by rw [hpieces]; simp)

/-! ## Paths of directories -/

theorem relativeName_append (lead rest : String) : relativeName lead (lead ++ rest) = rest := by
  have hlead : lead.toList <+: (lead ++ rest).toList := by
    rw [String.toList_append]
    exact List.prefix_append _ _
  rw [relativeName, dropLead?, if_pos hlead, Option.getD_some, String.toList_append,
    List.drop_left, String.ofList_toList]

/-- What is joined onto a path is read after it. -/
theorem resolve_join (path name : String) : resolve [] (path ++ "/" ++ name).toList =
    (pieces isSeparator name.toList).foldl (push 0) (resolve [] path.toList) := by
  have hchars : (path ++ "/" ++ name).toList = path.toList ++ '/' :: name.toList := by
    rw [String.toList_append, String.toList_append, List.append_assoc]
    rfl
  rw [hchars, resolve, pieces_append_cons rfl, List.foldl_append]
  rfl

theorem pieces_directory (hs : IsSegment s) (x : List Char) :
    pieces isSeparator (s ++ separator :: x) = s :: pieces isSeparator x := by
  rw [pieces_append_cons rfl, pieces_of_whole hs.whole]
  rfl

/-- The path of a directory has one segment more. -/
theorem resolve_directory (hs : IsSegment s) (path : String) :
    resolve [] (path ++ "/" ++ String.ofList (s ++ [separator])).toList =
      resolve [] path.toList ++ [s] := by
  rw [resolve_join, String.toList_ofList, pieces_directory hs, List.foldl_cons,
    push_of_isSegment hs]
  rfl

/-- **Names in a directory** are joined onto the path of the directory as the names below its
parent are onto the path of the parent. -/
theorem join_join (hs : IsSegment s) (path name : String) :
    join (path ++ "/" ++ String.ofList (s ++ [separator])) name =
      join path (String.ofList (s ++ [separator]) ++ name) := by
  have hparent : resolve [] (path ++ "/" ++ (String.ofList (s ++ [separator]) ++ name)).toList =
      (pieces isSeparator name.toList).foldl (push 0) (resolve [] path.toList ++ [s]) := by
    rw [resolve_join, String.toList_append, String.toList_ofList, List.append_assoc,
      List.singleton_append, pieces_directory hs, List.foldl_cons, push_of_isSegment hs]
  rw [join, join, normalize, normalize, hparent, resolve_join, resolve_directory hs]

/-- All keys below a path begin with the segments of the path, behind those of the root. -/
theorem toList_walkPrefix {roots : Roots} {root : String} (h : roots.primary = normalize root)
    (path : String) :
    (roots.walkPrefix path).toList = trunk (resolve [] root.toList ++ resolve [] path.toList) := by
  have hcanonical := (canonical_resolve root.toList).append (canonical_resolve path.toList)
  rw [Roots.walkPrefix, Roots.primaryKey, h, below_normalize]
  generalize resolve [] root.toList ++ resolve [] path.toList = ss at hcanonical
  by_cases hne : ss = []
  · subst hne
    rfl
  · have hkey : ¬ (render ss).isEmpty = true := fun he => hne ((render_eq_empty_iff hcanonical).1 he)
    simp only [if_neg hkey]
    exact toList_render_push hne

/-- **A group is listed by walking its path.** -/
theorem walkPrefix_directory {roots : Roots} {root : String} (h : roots.primary = normalize root)
    (hs : IsSegment s) (path : String) :
    roots.walkPrefix (path ++ "/" ++ String.ofList (s ++ [separator])) =
      roots.walkPrefix path ++ String.ofList (s ++ [separator]) := by
  apply String.toList_inj.1
  rw [toList_walkPrefix h, resolve_directory hs, ← List.append_assoc, trunk_concat,
    String.toList_append, toList_walkPrefix h, String.toList_ofList]

end Key

end Depot
