import Depot.Config.Basic

/-!
# The checks of the settings

Settings pass if each check passes (`validate_eq_ok_iff`). No check looks at the time to wait, and
only one at the number of clients, so any other number will do as well (`validate_resize`). The root
of the objects of disks is what the last check looks at (`validate_eq_ok_iff_of_rest`).
-/

set_option autoImplicit false

namespace Depot.Config

variable {c : Config}

/-- A check that refuses in one case passes exactly in the other one, when what follows passes. -/
private theorem refuse_eq_ok {ε : Type} {p : Prop} [Decidable p] {e : ε}
    {skipped rest : Except ε Unit} :
    (if p then (do throw e; skipped) else rest) = .ok () ↔ ¬ p ∧ rest = .ok () := by
  by_cases hp : p
  · rw [if_pos hp]
    constructor
    · exact nofun
    · rintro ⟨hn, -⟩
      exact absurd hp hn
  · rw [if_neg hp, and_iff_right hp]

/-- One check after another passes exactly if both do. -/
private theorem check_bind_eq_ok {ε : Type} {first rest : Except ε Unit} :
    (do first; rest) = .ok () ↔ first = .ok () ∧ rest = .ok () := by
  cases first with
  | error e => exact ⟨nofun, nofun⟩
  | ok _ => exact (and_iff_right rfl).symm

/-- Settings are accepted exactly if every check passes. -/
theorem validate_eq_ok_iff (c : Config) :
    c.validate = .ok () ↔
      (Text.trim c.bucket).isEmpty = false ∧ c.poolSize ≠ 0 ∧ c.checkEndpoint = .ok () ∧
        c.credentialForms ≤ 1 ∧ c.checkRoots = .ok () := by
  unfold validate
  simp only [refuse_eq_ok, check_bind_eq_ok, Bool.not_eq_true, Nat.not_lt, ne_eq]

/-- Settings that pass do so with any other number of clients, and any other time to wait. -/
theorem validate_resize (hvalid : c.validate = .ok ()) {size : Nat} (hsize : size ≠ 0)
    (wait : Option Nat) : { c with poolSize := size, waitSeconds := wait }.validate = .ok () := by
  obtain ⟨hbucket, -, hrest⟩ := (validate_eq_ok_iff c).1 hvalid
  exact (validate_eq_ok_iff _).2 ⟨hbucket, hsize, hrest⟩

/-- Settings that pass do so with any other endpoint that can be one. -/
theorem validate_endpoint (hvalid : c.validate = .ok ()) {endpoint : Option String}
    (h : { c with endpoint }.checkEndpoint = .ok ()) :
    { c with endpoint }.validate = .ok () := by
  obtain ⟨hbucket, hsize, -, hrest⟩ := (validate_eq_ok_iff c).1 hvalid
  exact (validate_eq_ok_iff _).2 ⟨hbucket, hsize, h, hrest⟩

/-- With all checks passed that do not look at the second root, the check of the roots decides. -/
theorem validate_eq_ok_iff_of_rest (hrest : { c with diskPath := none }.validate = .ok ()) :
    c.validate = .ok () ↔ c.checkRoots = .ok () := by
  obtain ⟨hbucket, hsize, hend, hforms, -⟩ := (validate_eq_ok_iff _).1 hrest
  constructor
  · intro h
    exact ((validate_eq_ok_iff c).1 h).2.2.2.2
  · intro h
    exact (validate_eq_ok_iff c).2 ⟨hbucket, hsize, hend, hforms, h⟩

/-- The settings of an empty file lack nothing but a bucket. -/
theorem validate_standard {bucket : String} (h : (Text.trim bucket).isEmpty = false) :
    { standard with bucket := bucket }.validate = .ok () := by
  have hsize : standard.poolSize ≠ 0 := by decide
  have hforms : standard.credentialForms ≤ 1 := by decide
  exact (validate_eq_ok_iff _).2 ⟨h, hsize, rfl, hforms, rfl⟩

end Depot.Config
