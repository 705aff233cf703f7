import Depot.Proofs.Key.Algebra
import Depot.Roots
import Mathlib.Data.List.Basic

/-!
# The laws of keys

A key is read as its parts, the texts between its separators (`parts`). Those of the key of a path
are the parts of the root followed by the parts of the path, both in normal form (`parts_below`), so
that no path takes back a part of the root; and each of them is a part that a key may have
(`WellFormed`). Normalizing once is enough (`normalize_normalize`), also in front of the look-up of
a key (`below_normalize_right`), and nesting of roots is the order in which one is reached from the
other by a path (`isNested_iff_exists`). The main statement is `keys_of_paths`.
-/

set_option autoImplicit false

namespace Depot.Key

variable {ss : List Segment}

/-- The texts between the separators of a key, of which the empty key has none. -/
def parts (key : String) : List Segment :=
  if key.isEmpty then [] else key.toList.splitOn separator

/-- The form in which keys are stored: no separator at either end, none but `/` at all, and no part
that is empty, counts for nothing or takes back another one. -/
structure WellFormed (key : String) : Prop where
  head : key.toList.head? ≠ some separator
  last : key.toList.getLast? ≠ some separator
  backslash : '\\' ∉ key.toList
  parts : ∀ s ∈ parts key, s ≠ [] ∧ s ≠ ['.'] ∧ s ≠ ['.', '.']

/-! ## Parts -/

/-- The parts of a key are the segments that it was written with. -/
theorem parts_render (h : Canonical ss) : parts (render ss) = ss := by
  unfold parts
  by_cases hne : ss = []
  · subst hne
    rfl
  · rw [if_neg fun hempty => hne ((render_eq_empty_iff h).1 hempty), toList_render]
    exact splitOn_render h hne

/-- The parts of a normalized path are what the path is read as. -/
theorem parts_normalize (path : String) : parts (normalize path) = resolve [] path.toList :=
  parts_render (canonical_resolve path.toList)

/-- A key does not begin with a separator, because its first segment does not. -/
theorem head?_render_ne (h : Canonical ss) : (render ss).toList.head? ≠ some separator := by
  rw [toList_render]
  cases ss with
  | nil => simp [List.intercalate]
  | cons s ss =>
    obtain ⟨c, cs, rfl⟩ := List.exists_cons_of_ne_nil (h s List.mem_cons_self).ne_nil
    have hc : separator ∉ c :: cs := h.separator_notMem _ List.mem_cons_self
    have hhead : ([separator].intercalate ((c :: cs) :: ss)).head? = some c := by
      cases ss with
      | nil => simp
      | cons s' ss =>
        rw [List.intercalate_cons_cons]
        rfl
    rw [hhead]
    intro heq
    apply hc
    rw [Option.some.inj heq]
    exact List.mem_cons_self

/-- A key does not end with a separator, because its last segment does not. -/
theorem getLast?_render_ne (h : Canonical ss) : (render ss).toList.getLast? ≠ some separator := by
  rw [toList_render]
  by_cases hne : ss = []
  · subst hne
    simp [List.intercalate]
  · obtain ⟨rs, s, rfl⟩ : ∃ rs s, ss = rs ++ [s] :=
      ⟨_, _, (List.dropLast_append_getLast hne).symm⟩
    have hs : separator ∉ s := h.separator_notMem s (by simp)
    have hnil : s ≠ [] := (h s (by simp)).ne_nil
    have hlast : ([separator].intercalate (rs ++ [s])).getLast? = s.getLast? := by
      by_cases hrs : rs = []
      · subst hrs
        simp
      · rw [intercalate_append _ hrs (by simp), List.intercalate_singleton]
        exact List.getLast?_append_of_ne_nil _ hnil
    rw [hlast]
    intro heq
    exact hs (List.mem_of_getLast? heq)

theorem wellFormed_render (h : Canonical ss) : WellFormed (render ss) where
  head := head?_render_ne h
  last := getLast?_render_ne h
  backslash := by
    intro hback
    rw [toList_render] at hback
    exact absurd (isSeparator_of_mem_render h _ hback) (by decide)
  parts := by
    intro s hs
    rw [parts_render h] at hs
    exact ⟨(h s hs).ne_nil, (h s hs).ne_dot, (h s hs).ne_dots⟩

/-! ## Normal forms -/

/-- A path in normal form is read as the path itself. -/
theorem resolve_normalize (path : String) :
    resolve [] (normalize path).toList = resolve [] path.toList :=
  resolve_render (canonical_resolve path.toList)

/-- **Normalizing once is enough.** -/
theorem normalize_normalize (path : String) : normalize (normalize path) = normalize path := by
  rw [normalize, resolve_normalize]
  rfl

/-- The key of a path is that of its normal form. -/
theorem below_normalize_right (root path : String) :
    below (normalize root) (normalize path) = below (normalize root) path := by
  rw [below_normalize, below_normalize, resolve_normalize]

/-- The key of a path below a root has the parts of the root, and then those of the path. -/
theorem parts_below (root path : String) :
    parts (below (normalize root) path) = parts (normalize root) ++ parts (normalize path) := by
  have hroot := canonical_resolve root.toList
  have hpath := canonical_resolve path.toList
  rw [below_normalize, parts_render (hroot.append hpath), parts_normalize, parts_normalize]

/-- It is written with a separator between any two of them. -/
theorem toList_below (root path : String) :
    (below (normalize root) path).toList =
      [separator].intercalate (parts (normalize root) ++ parts (normalize path)) := by
  rw [below_normalize, toList_render, parts_normalize, parts_normalize]

theorem wellFormed_below (root path : String) : WellFormed (below (normalize root) path) := by
  rw [below_normalize]
  apply wellFormed_render
  exact (canonical_resolve root.toList).append (canonical_resolve path.toList)

/-! ## Nesting -/

/-- **One root is nested in another exactly if some path leads from there to it.** -/
theorem isNested_iff_exists (outer inner : String) :
    isNested outer inner = true ↔ ∃ path, below (normalize outer) path = normalize inner := by
  have hinner := canonical_resolve inner.toList
  have houter := canonical_resolve outer.toList
  have hkey : normalize inner = render (resolve [] inner.toList) := rfl
  rw [isNested_iff, hkey]
  simp only [below_normalize]
  constructor
  · -- the segments that the inner root has more are a path
    rintro ⟨more, hmore⟩
    have hcanonical : Canonical more := by
      intro s hs
      apply hinner
      rw [← hmore]
      exact List.mem_append_right _ hs
    exact ⟨render more, by rw [resolve_render hcanonical, hmore]⟩
  · rintro ⟨path, hpath⟩
    have hsegments := render_inj (houter.append (canonical_resolve path.toList)) hinner hpath
    exact ⟨resolve [] path.toList, hsegments⟩

theorem isNested_self (root : String) : isNested root root = true :=
  (isNested_iff root root).2 List.prefix_rfl

theorem isNested_trans {outer middle inner : String} (h : isNested outer middle = true)
    (h' : isNested middle inner = true) : isNested outer inner = true := by
  rw [isNested_iff] at h h' ⊢
  exact h.trans h'

/-- Two roots that are nested in each other are the same when normalized. -/
theorem normalize_eq_of_isNested {root root' : String} (h : isNested root root' = true)
    (h' : isNested root' root = true) : normalize root = normalize root' := by
  rw [isNested_iff] at h h'
  -- of two lists, each in front of the other, neither is longer
  have hlength := Nat.le_antisymm h.length_le h'.length_le
  rw [normalize, normalize, h.eq_of_length hlength]

/-- **The keys of paths.** Whatever the root and the path are, the key of the path has the parts of
the root and then those of the path, both in normal form, with a separator between any two of them;
so it is well formed, and nothing in the path takes back a part of the root. A path may be
normalized any number of times, with the same key. A root is nested in another one exactly if its
normal form is the key of some path there, which is a partial order on roots up to their normal
forms. -/
theorem keys_of_paths (root path : String) (disk : Option String) :
    let roots := Roots.ofPaths root disk
    let key := roots.primaryKey path
    (parts key = parts (normalize root) ++ parts (normalize path) ∧
      key.toList = [separator].intercalate (parts (normalize root) ++ parts (normalize path))) ∧
    WellFormed key ∧
    normalize (normalize path) = normalize path ∧
    key = roots.primaryKey (normalize path) ∧
    (∀ inner, isNested root inner = true ↔ ∃ rel, roots.primaryKey rel = normalize inner) ∧
    isNested root root = true ∧
    (∀ middle inner, isNested root middle = true → isNested middle inner = true →
      isNested root inner = true) ∧
    ∀ other, isNested root other = true → isNested other root = true →
      normalize root = normalize other := by
  intro roots key
  refine ⟨⟨parts_below root path, toList_below root path⟩, wellFormed_below root path,
    normalize_normalize path, (below_normalize_right root path).symm,
    isNested_iff_exists root, isNested_self root, ?_, ?_⟩
  · intro middle inner houter hinner
    exact isNested_trans houter hinner
  · intro other hother hroot
    exact normalize_eq_of_isNested hother hroot

/-- A path that goes up further than it has gone down stays below its root, of which two spellings
are nested in each other. -/
theorem keys_of_paths_of_parent :
    let root := "/backup\\daily"
    let other := "backup/./daily/x/.."
    let key := (Roots.ofPaths root none).primaryKey "a/../../../etc\\."
    key = "backup/daily/etc" ∧ WellFormed key ∧
      (isNested root other = true ∧ isNested other root = true ∧
        normalize root = normalize other) ∧
      isNested root "backup" = false ∧ isNested other "\\backup\\daily\\y" = true := by
  intro root other key
  obtain ⟨-, hkey, -, -, -, -, -, hanti⟩ := keys_of_paths root "a/../../../etc\\." none
  obtain ⟨-, -, -, -, -, -, htrans, -⟩ := keys_of_paths other "" none
  have hother : isNested root other = true := by decide
  have hroot : isNested other root = true := by decide
  have hinner : isNested root "\\backup\\daily\\y" = true := by decide
  exact ⟨by decide, hkey, ⟨hother, hroot, hanti other hother hroot⟩, by decide,
    htrans root _ hroot hinner⟩

end Depot.Key
