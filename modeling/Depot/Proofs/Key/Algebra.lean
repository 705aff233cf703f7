import Depot.Key

/-!
# The algebra of keys

A path is read as a list of segments, and a key is such a list written down. Nothing is lost in
writing (`segments_render`), so that keys are compared by comparing lists: what a path is read as
below a base is the base followed by what it is read as alone (`resolve_eq_append`), one root is
nested in another exactly if the segments of the outer one are in front of those of the inner one
(`isNested_iff`), and a key followed by a separator is in front of another key exactly if its
segments are a proper part of the front (`render_push_prefix_iff`).
-/

set_option autoImplicit false

namespace Depot.Key

variable {base ss rs : List Segment} {s : Segment} {path : List Char}

/-- A segment that a key can be written with. -/
structure IsSegment (s : Segment) : Prop where
  ne_nil : s ≠ []
  ne_dot : s ≠ ['.']
  ne_dots : s ≠ ['.', '.']
  /-- No character of it separates segments. -/
  whole : ∀ c ∈ s, isSeparator c = false

/-- Segments as a normalized path has them. -/
def Canonical (ss : List Segment) : Prop := ∀ s ∈ ss, IsSegment s

theorem Canonical.append (hs : Canonical ss) (hr : Canonical rs) : Canonical (ss ++ rs) := by
  intro s h
  rcases List.mem_append.1 h with h | h
  · exact hs s h
  · exact hr s h

theorem Canonical.separator_notMem (h : Canonical ss) : ∀ s ∈ ss, separator ∉ s := by
  intro s hs hc
  have hwhole := (h s hs).whole separator hc
  simp [isSeparator, separator] at hwhole

/-! ## Reading a path -/

theorem pieces_eq_splitOnP (sep : Char → Bool) (cs : List Char) :
    pieces sep cs = cs.splitOnP sep := by
  induction cs with
  | nil => rfl
  | cons c cs ih =>
    rw [List.splitOnP_cons_eq_if_modifyHead, ← ih]
    have hne : pieces sep cs ≠ [] := ih ▸ List.splitOnP_ne_nil sep cs
    cases hc : sep c with
    | true => simp [pieces, hc]
    | false =>
      cases hp : pieces sep cs with
      | nil => exact absurd hp hne
      | cons p ps => simp [pieces, hc, hp]

/-- No piece has a character that separates. -/
theorem eq_false_of_mem_pieces {sep : Char → Bool} {p : Segment} {cs : List Char}
    (h : p ∈ pieces sep cs) : ∀ c ∈ p, sep c = false := by
  induction cs generalizing p with
  | nil =>
    intro c hc
    simp only [pieces, List.mem_singleton] at h
    simp [h] at hc
  | cons d cs ih =>
    cases hd : sep d with
    | true =>
      simp only [pieces, hd, List.mem_cons] at h
      rcases h with rfl | h
      · simp
      · exact ih h
    | false =>
      cases hp : pieces sep cs with
      | nil =>
        simp only [pieces, hd, hp, List.mem_singleton] at h
        simp [h, hd]
      | cons q qs =>
        rw [hp] at ih
        simp only [pieces, hd, hp, List.mem_cons] at h
        rcases h with rfl | h
        · intro c hc
          rcases List.mem_cons.1 hc with rfl | hc
          · exact hd
          · exact ih List.mem_cons_self c hc
        · exact ih (List.mem_cons_of_mem q h)

/-- A piece below a base is taken in as it would be without the base. -/
theorem push_append (base ss : List Segment) (p : Segment) :
    push base.length (base ++ ss) p = base ++ push 0 ss p := by
  unfold push
  split
  · rfl
  · split
    · -- the last segment is taken back only if it is not one of the base
      by_cases hs : ss = []
      · simp [hs]
      · have hpos := List.length_pos_iff.2 hs
        rw [if_pos (by rw [List.length_append]; omega), if_pos hpos,
          List.dropLast_append_of_ne_nil hs]
    · rw [List.append_assoc]

theorem foldl_push_append (base ss ps : List Segment) :
    ps.foldl (push base.length) (base ++ ss) = base ++ ps.foldl (push 0) ss := by
  induction ps generalizing ss with
  | nil => rfl
  | cons p ps ih => rw [List.foldl_cons, List.foldl_cons, push_append, ih]

/-- **A path below a base.** It is read as it would be alone, and the base is put in front. -/
theorem resolve_eq_append (base : List Segment) (path : List Char) :
    resolve base path = base ++ resolve [] path := by
  have h := foldl_push_append base [] (pieces isSeparator path)
  rw [List.append_nil] at h
  exact h

theorem Canonical.push (hs : Canonical ss) {p : Segment} (hp : ∀ c ∈ p, isSeparator c = false) :
    Canonical (Key.push 0 ss p) := by
  unfold Key.push
  split
  · exact hs
  · rename_i hskip
    rw [not_or] at hskip
    split
    · split
      · intro s h
        exact hs s (List.dropLast_subset ss h)
      · exact hs
    · rename_i hback
      apply hs.append
      intro s h
      rw [List.mem_singleton.1 h]
      exact ⟨hskip.1, hskip.2, hback, hp⟩

/-- Whatever a path is, it is read as segments that a key can be written with. -/
theorem canonical_resolve (path : List Char) : Canonical (resolve [] path) := by
  have hfold : ∀ (ps ss : List Segment), Canonical ss →
      (∀ p ∈ ps, ∀ c ∈ p, isSeparator c = false) → Canonical (ps.foldl (Key.push 0) ss) := by
    intro ps
    induction ps with
    | nil => exact fun ss hs _ => hs
    | cons p ps ih =>
      intro ss hs hps
      apply ih
      · exact hs.push (hps p List.mem_cons_self)
      · exact fun q hq => hps q (List.mem_cons_of_mem p hq)
  exact hfold _ [] (by simp [Canonical]) fun p hp => eq_false_of_mem_pieces hp

/-! ## Writing a key -/

theorem toList_render (ss : List Segment) :
    (render ss).toList = [separator].intercalate ss := by
  rw [render, String.toList_ofList]

theorem intercalate_append (sep : List Char) (hs : ss ≠ []) (hr : rs ≠ []) :
    sep.intercalate (ss ++ rs) = sep.intercalate ss ++ sep ++ sep.intercalate rs := by
  induction ss with
  | nil => exact absurd rfl hs
  | cons s ss ih =>
    cases ss with
    | nil =>
      obtain ⟨r, rs, rfl⟩ := List.exists_cons_of_ne_nil hr
      simp
    | cons s' ss =>
      have hcons := ih (by simp)
      rw [List.cons_append] at hcons
      rw [List.cons_append, List.cons_append, List.intercalate_cons_cons,
        List.intercalate_cons_cons, hcons]
      simp only [List.append_assoc]

/-- The pieces between the separators of a key that is not empty are its segments. -/
theorem splitOn_render (h : Canonical ss) (hne : ss ≠ []) :
    ([separator].intercalate ss).splitOn separator = ss :=
  List.splitOn_intercalate separator h.separator_notMem hne

/-- **A key is read as what it was written with.** -/
theorem segments_render (h : Canonical ss) : segments (render ss) = ss := by
  rw [segments, toList_render, pieces_eq_splitOnP]
  by_cases hne : ss = []
  · subst hne
    rfl
  · show (([separator].intercalate ss).splitOn separator).filter _ = ss
    rw [splitOn_render h hne]
    apply List.filter_eq_self.2
    intro s hs
    simpa using (h s hs).ne_nil

theorem render_inj (hs : Canonical ss) (hr : Canonical rs) (h : render ss = render rs) :
    ss = rs := by
  rw [← segments_render hs, h, segments_render hr]

theorem render_eq_empty_iff (h : Canonical ss) : (render ss).isEmpty = true ↔ ss = [] := by
  rw [String.isEmpty_iff]
  constructor
  · intro he
    exact render_inj h (by simp [Canonical]) he
  · rintro rfl
    rfl

/-- A key followed by a separator is in front of another key exactly if its segments come first
there, and others follow. -/
theorem render_push_prefix_iff (hs : Canonical ss) (hne : ss ≠ []) (hr : Canonical rs) :
    ((render ss).push separator).toList <+: (render rs).toList ↔
      ∃ more, more ≠ [] ∧ rs = ss ++ more := by
  rw [String.toList_push, toList_render, toList_render]
  constructor
  · rintro ⟨tail, htail⟩
    have hrne : rs ≠ [] := by
      rintro rfl
      simp [List.intercalate] at htail
    refine ⟨tail.splitOn separator, List.splitOn_ne_nil separator tail, ?_⟩
    rw [List.append_assoc, List.singleton_append] at htail
    have hcut : ([separator].intercalate ss ++ separator :: tail).splitOn separator =
        ([separator].intercalate ss).splitOn separator ++ tail.splitOn separator :=
      List.splitOnP_append_cons _ _ (beq_self_eq_true separator)
    rw [htail, splitOn_render hr hrne, splitOn_render hs hne] at hcut
    exact hcut
  · rintro ⟨more, hmore, rfl⟩
    rw [intercalate_append [separator] hne hmore]
    exact List.prefix_append _ _

/-! ## Reading a key as a path -/

theorem pieces_congr {f g : Char → Bool} {cs : List Char} (h : ∀ c ∈ cs, f c = g c) :
    pieces f cs = pieces g cs := by
  induction cs with
  | nil => rfl
  | cons c cs ih =>
    rw [pieces, pieces, h c List.mem_cons_self, ih fun d hd => h d (List.mem_cons_of_mem c hd)]

/-- In a key the separators are the only characters that separate. -/
theorem isSeparator_of_mem_render (h : Canonical ss) :
    ∀ c ∈ [separator].intercalate ss, isSeparator c = (c == separator) := by
  intro c hc
  induction ss with
  | nil => simp [List.intercalate] at hc
  | cons s ss ih =>
    have hsegment : c ∈ s → isSeparator c = (c == separator) := by
      intro hs
      have hwhole := (h s List.mem_cons_self).whole c hs
      have hother : ¬ c = separator := by
        rintro rfl
        simp [isSeparator, separator] at hwhole
      rw [hwhole, beq_false_of_ne hother]
    cases ss with
    | nil => exact hsegment (by simpa using hc)
    | cons s' ss =>
      rw [List.intercalate_cons_cons, List.mem_append, List.mem_append, List.mem_singleton] at hc
      rcases hc with (hc | rfl) | hc
      · exact hsegment hc
      · rfl
      · exact ih (fun r hr => h r (List.mem_cons_of_mem s hr)) hc

theorem push_of_isSegment (hs : IsSegment s) (ss : List Segment) : push 0 ss s = ss ++ [s] := by
  unfold push
  rw [if_neg (not_or.2 ⟨hs.ne_nil, hs.ne_dot⟩), if_neg hs.ne_dots]

theorem foldl_push_of_canonical (h : Canonical ss) (base : List Segment) :
    ss.foldl (push 0) base = base ++ ss := by
  induction ss generalizing base with
  | nil => simp
  | cons s ss ih =>
    rw [List.foldl_cons, push_of_isSegment (h s List.mem_cons_self),
      ih fun r hr => h r (List.mem_cons_of_mem s hr), List.append_assoc, List.singleton_append]

/-- What a key is written with is taken in after what precedes the key. -/
theorem foldl_pieces_render (h : Canonical ss) (base : List Segment) :
    (pieces isSeparator (render ss).toList).foldl (push 0) base = base ++ ss := by
  rw [toList_render, pieces_congr (isSeparator_of_mem_render h), pieces_eq_splitOnP]
  by_cases hne : ss = []
  · subst hne
    exact (List.append_nil base).symm
  · show (([separator].intercalate ss).splitOn separator).foldl (push 0) base = base ++ ss
    rw [splitOn_render h hne, foldl_push_of_canonical h]

/-- **A key is a path to itself.** -/
theorem resolve_render (h : Canonical ss) : resolve [] (render ss).toList = ss :=
  foldl_pieces_render h []

/-! ## Roots -/

/-- The key of a path below a root has the segments of both, one after the other. -/
theorem below_normalize (root path : String) :
    below (normalize root) path =
      render (resolve [] root.toList ++ resolve [] path.toList) := by
  rw [below, normalize, segments_render (canonical_resolve root.toList), resolve_eq_append]

theorem isSome_dropLead?_iff (lead text : String) :
    (dropLead? lead text).isSome = true ↔ lead.toList <+: text.toList := by
  rw [dropLead?]
  split
  · rename_i h
    simp [h]
  · rename_i h
    simp [h]

/-- **Nesting is a matter of segments.** -/
theorem isNested_iff (outer inner : String) :
    isNested outer inner = true ↔ resolve [] outer.toList <+: resolve [] inner.toList := by
  have ho := canonical_resolve outer.toList
  have hi := canonical_resolve inner.toList
  simp only [isNested, normalize, Bool.or_eq_true, render_eq_empty_iff ho, beq_iff_eq,
    isSome_dropLead?_iff, or_assoc]
  generalize resolve [] outer.toList = os at ho ⊢
  generalize resolve [] inner.toList = is at hi ⊢
  constructor
  · rintro (h | h | h)
    · exact h ▸ List.nil_prefix
    · exact render_inj hi ho h ▸ List.prefix_rfl
    · by_cases hne : os = []
      · exact hne ▸ List.nil_prefix
      · obtain ⟨more, -, he⟩ := (render_push_prefix_iff ho hne hi).1 h
        exact ⟨more, he.symm⟩
  · rintro ⟨more, rfl⟩
    by_cases hne : os = []
    · exact Or.inl hne
    · by_cases hmore : more = []
      · exact Or.inr (Or.inl (by rw [hmore, List.append_nil]))
      · exact Or.inr (Or.inr ((render_push_prefix_iff ho hne hi).2 ⟨more, hmore, rfl⟩))

end Depot.Key
