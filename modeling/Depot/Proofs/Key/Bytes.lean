import Depot.Memory.Paging
import Mathlib.Data.List.Basic
import Mathlib.Data.String.Basic

/-!
# Keys by their bytes

Keys are compared character by character, and it comes to the same to compare them byte by byte:
where two characters differ, the bytes of the lower one are lower (`bytes_lt_bytes`).
-/

set_option autoImplicit false

namespace Depot.Key

theorem bytes_eq (key : String) : bytes key = key.toList.flatMap String.utf8EncodeChar := by
  rw [bytes, String.toUTF8_eq_toByteArray, ← String.utf8Encode_toList, List.utf8Encode,
    List.data_toByteArray]

/-- Bytes are in order if the first ones are, or are the same and the other ones are in order. -/
private theorem ofNat_cons_lt {a b : Nat} {r s : List UInt8} (ha : a < UInt8.size)
    (hb : b < UInt8.size) (h : ¬ a < b → a = b ∧ r < s) :
    UInt8.ofNat a :: r < UInt8.ofNat b :: s := by
  rw [List.cons_lt_cons_iff]
  by_cases hlt : a < b
  · exact Or.inl ((UInt8.ofNat_lt_iff_lt ha hb).2 hlt)
  · obtain ⟨rfl, hrs⟩ := h hlt
    exact Or.inr ⟨rfl, hrs⟩

/-- Whatever follows, the bytes of the lower one of two characters are before those of the other. -/
theorem encode_append_lt {c d : Char} (h : c < d) (r s : List UInt8) :
    String.utf8EncodeChar c ++ r < String.utf8EncodeChar d ++ s := by
  have hlt : c.val.toNat < d.val.toNat := h
  have hbound : d.val.toNat < 0x110000 := by
    rcases d.valid with hvalid | ⟨-, hvalid⟩
    · exact Nat.lt_trans hvalid (by decide)
    · exact hvalid
  have hsize : UInt8.size = 256 := rfl
  unfold String.utf8EncodeChar
  generalize c.val.toNat = m at hlt ⊢
  generalize d.val.toNat = n at hlt hbound ⊢
  simp only
  have hdiv : ∀ a : Nat, a / 64 / 64 = a / 4096 ∧ a / 4096 / 64 = a / 262144 :=
    fun a => ⟨Nat.div_div_eq_div_mul a 64 64, Nat.div_div_eq_div_mul a 4096 64⟩
  obtain ⟨hm, hm'⟩ := hdiv m
  obtain ⟨hn, hn'⟩ := hdiv n
  -- the lower character takes no more bytes; if it takes fewer, the first bytes differ already
  have hfirst : ∀ {a b : Nat} {r s : List UInt8}, a < b → b < 256 →
      UInt8.ofNat a :: r < UInt8.ofNat b :: s :=
    fun hab hb => ofNat_cons_lt (Nat.lt_trans hab hb) hb fun hnot => absurd hab hnot
  by_cases h₁ : n ≤ 127
  · rw [if_pos h₁, if_pos (by omega : m ≤ 127)]
    exact hfirst hlt (by omega)
  · rw [if_neg h₁]
    by_cases h₂ : n ≤ 2047
    · rw [if_pos h₂]
      split
      · exact hfirst (by omega) (by omega)
      · rw [if_pos (by omega : m ≤ 2047)]
        refine ofNat_cons_lt (by omega) (by omega) fun _ => ⟨by omega, ?_⟩
        exact hfirst (by omega) (by omega)
    · rw [if_neg h₂]
      by_cases h₃ : n ≤ 65535
      · rw [if_pos h₃]
        split
        · exact hfirst (by omega) (by omega)
        · split
          · exact hfirst (by omega) (by omega)
          · rw [if_pos (by omega : m ≤ 65535)]
            refine ofNat_cons_lt (by omega) (by omega) fun _ => ⟨by omega, ?_⟩
            refine ofNat_cons_lt (by omega) (by omega) fun _ => ⟨by omega, ?_⟩
            exact hfirst (by omega) (by omega)
      · rw [if_neg h₃]
        split
        · exact hfirst (by omega) (by omega)
        · split
          · exact hfirst (by omega) (by omega)
          · split
            · exact hfirst (by omega) (by omega)
            · refine ofNat_cons_lt (by omega) (by omega) fun hnot => ?_
              have heq : m / 262144 = n / 262144 := by omega
              refine ⟨by rw [heq], ofNat_cons_lt (by omega) (by omega) fun hnot' => ?_⟩
              have heq' : m / 4096 = n / 4096 := by omega
              refine ⟨by rw [heq'], ofNat_cons_lt (by omega) (by omega) fun _ => ⟨by omega, ?_⟩⟩
              exact hfirst (by omega) (by omega)

/-- **The order of keys is that of their bytes.** -/
theorem bytes_lt_bytes {key key' : String} (h : key < key') : bytes key < bytes key' := by
  rw [bytes_eq, bytes_eq]
  rw [String.lt_iff_toList_lt] at h
  generalize key.toList = cs at h ⊢
  generalize key'.toList = ds at h ⊢
  induction cs generalizing ds with
  | nil =>
    cases ds with
    | nil => exact absurd h (List.lt_irrefl [])
    | cons d ds =>
      have hd := String.utf8EncodeChar_ne_nil (c := d)
      cases hbytes : String.utf8EncodeChar d with
      | nil => exact absurd hbytes hd
      | cons b bs =>
        rw [List.flatMap_cons, hbytes]
        exact List.nil_lt_cons b _
  | cons c cs ih =>
    cases ds with
    | nil => exact absurd h (List.not_lt_nil _)
    | cons d ds =>
      rw [List.flatMap_cons, List.flatMap_cons]
      rcases List.cons_lt_cons_iff.1 h with hcd | ⟨rfl, hds⟩
      · exact encode_append_lt hcd _ _
      · exact List.append_left_lt (ih ds hds)

end Depot.Key
