import Depot.Proofs.Config.Validate
import Depot.Proofs.Key.Algebra

/-!
# Two roots in one bucket

Keys below two roots can be equal exactly if the segments of one root are in front of those of the
other one (`exists_below_eq_iff`). That is what the check of the settings refuses
(`rootsOverlap_iff`), unless both roots are the same. So settings that pass keep the objects of
disks apart from all others, and only such settings do: `validate_ok_iff_apart`.
-/

set_option autoImplicit false

namespace Depot.Config

open Key

variable {path disk : String}

/-- The check finds two roots that are not the same, one of which is in front of the other. -/
theorem rootsOverlap_iff (path disk : String) :
    rootsOverlap path disk = true ↔
      (resolve [] path.toList <+: resolve [] disk.toList ∨
        resolve [] disk.toList <+: resolve [] path.toList) ∧
      normalize path ≠ normalize disk := by
  simp only [rootsOverlap, Bool.and_eq_true, Bool.or_eq_true, isNested_iff, decide_eq_true_eq]

/-- Two roots have a key in common exactly if one of them is in front of the other. -/
theorem exists_below_eq_iff (path disk : String) :
    (∃ p q, below (normalize path) p = below (normalize disk) q) ↔
      resolve [] path.toList <+: resolve [] disk.toList ∨
        resolve [] disk.toList <+: resolve [] path.toList := by
  have hp := canonical_resolve path.toList
  have hd := canonical_resolve disk.toList
  simp only [below_normalize]
  generalize resolve [] path.toList = ps at hp ⊢
  generalize resolve [] disk.toList = ds at hd ⊢
  -- the segments that one root has more than the other are a path that leads from it to the other
  have hreach : ∀ {ss more : List Segment}, Canonical (ss ++ more) →
      ss ++ resolve [] (render more).toList = ss ++ more ++ resolve [] "".toList := by
    intro ss more h
    have hmore : Canonical more := fun s hs => h s (List.mem_append_right ss hs)
    rw [resolve_render hmore]
    exact (List.append_nil _).symm
  constructor
  · rintro ⟨p, q, h⟩
    have hkeys := render_inj (hp.append (canonical_resolve p.toList))
      (hd.append (canonical_resolve q.toList)) h
    have hdkey : ds <+: ps ++ resolve [] p.toList := by
      rw [hkeys]
      exact List.prefix_append _ _
    exact List.prefix_or_prefix_of_prefix (List.prefix_append _ _) hdkey
  · rintro (⟨more, rfl⟩ | ⟨more, rfl⟩)
    · exact ⟨render more, "", by rw [hreach hd]⟩
    · exact ⟨"", render more, by rw [hreach hp]⟩

/-- What the listing of a path below one root begins with is not in front of any key below the other
root, unless one of the roots is in front of the other. -/
theorem prefix_or_prefix_of_walkPrefix {diskPath : Option String} {p q : String}
    (h : ((Roots.ofPaths path diskPath).walkPrefix p).toList <+:
      (below (normalize disk) q).toList) :
    resolve [] path.toList <+: resolve [] disk.toList ∨
      resolve [] disk.toList <+: resolve [] path.toList := by
  have hp := canonical_resolve path.toList
  have hd := canonical_resolve disk.toList
  have hpp := hp.append (canonical_resolve p.toList)
  have hdq := hd.append (canonical_resolve q.toList)
  simp only [Roots.walkPrefix, Roots.primaryKey, Roots.ofPaths, below_normalize] at h
  by_cases hne : resolve [] path.toList ++ resolve [] p.toList = []
  · -- the root of the whole bucket is in front of every other one
    rw [(List.append_eq_nil_iff.1 hne).1]
    exact Or.inl List.nil_prefix
  · rw [if_neg fun he => hne ((render_eq_empty_iff hpp).1 he),
      render_push_prefix_iff hpp hne hdq] at h
    obtain ⟨more, -, he⟩ := h
    have hpkey : resolve [] path.toList <+: resolve [] disk.toList ++ resolve [] q.toList := by
      rw [he, List.append_assoc]
      exact List.prefix_append _ _
    exact List.prefix_or_prefix_of_prefix hpkey (List.prefix_append _ _)

/-- With all other checks passed, the check of the roots decides. -/
theorem validate_ok_iff {c : Config} (hdisk : c.diskPath = some disk)
    (hrest : { c with diskPath := none }.validate = .ok ()) :
    c.validate = .ok () ↔ rootsOverlap c.path disk = false := by
  rw [validate_eq_ok_iff_of_rest hrest]
  simp only [checkRoots, hdisk]
  cases rootsOverlap c.path disk with
  | true => simp
  | false => simp

/-- **Settings are accepted exactly if they keep the two roots apart.** Of settings that pass all
other checks, those pass whose roots are the same when normalized, or have no key in common. In the
latter case no listing below the first root finds anything below the second one. -/
theorem validate_ok_iff_apart (c : Config) (hdisk : c.diskPath = some disk)
    (hrest : { c with diskPath := none }.validate = .ok ()) :
    ∃ diskKey : String → String, (∀ q, c.roots.diskKey q = .ok (diskKey q)) ∧
      (c.validate = .ok () ↔
        normalize c.path = normalize disk ∨ ∀ p q, c.roots.primaryKey p ≠ diskKey q) ∧
      (c.validate = .ok () → normalize c.path ≠ normalize disk →
        ∀ p q, ¬ (c.roots.walkPrefix p).toList <+: (diskKey q).toList) := by
  have hover := rootsOverlap_iff c.path disk
  have hkeys := exists_below_eq_iff c.path disk
  refine ⟨below (normalize disk), ?_, ?_, ?_⟩
  · intro q
    simp [Config.roots, Roots.ofPaths, Roots.diskKey, hdisk]
  · rw [validate_ok_iff hdisk hrest, ← Bool.not_eq_true, hover, ← hkeys,
      Classical.not_and_iff_not_or_not, Classical.not_not, or_comm, not_exists]
    simp only [not_exists]
    rfl
  · intro hok hne p q hprefix
    rw [validate_ok_iff hdisk hrest, ← Bool.not_eq_true, hover] at hok
    exact hok ⟨prefix_or_prefix_of_walkPrefix hprefix, hne⟩

/-- Roots that begin with the same characters and not with the same segments are apart. -/
theorem validate_ok_iff_apart_of_backup :
    ∃ c : Config, c.path = "\\backup/." ∧ c.diskPath = some "/x/../backup2" ∧
      { c with diskPath := none }.validate = .ok () ∧ c.validate = .ok () ∧
      normalize c.path ≠ normalize "/x/../backup2" ∧
      ∃ diskKey : String → String, (∀ q, c.roots.diskKey q = .ok (diskKey q)) ∧
        ∀ p q, c.roots.primaryKey p ≠ diskKey q ∧
          ¬ (c.roots.walkPrefix p).toList <+: (diskKey q).toList := by
  let c : Config :=
    { standard with bucket := "b", path := "\\backup/.", diskPath := some "/x/../backup2" }
  have hdisk : c.diskPath = some "/x/../backup2" := rfl
  have hrest : { c with diskPath := none }.validate = .ok () := by
    have hbucket : (Text.trim "b").isEmpty = false := by decide
    simp only [c, validate, hbucket]
    rfl
  have hok : c.validate = .ok () := (validate_ok_iff hdisk hrest).2 (by decide)
  have hne : normalize c.path ≠ normalize "/x/../backup2" := by decide
  obtain ⟨diskKey, hkey, hiff, hwalk⟩ := validate_ok_iff_apart c hdisk hrest
  refine ⟨c, rfl, hdisk, hrest, hok, hne, diskKey, hkey, fun p q => ⟨?_, hwalk hok hne p q⟩⟩
  exact (hiff.1 hok).resolve_left hne p q

end Depot.Config
