import Depot.Text.Utf8
import Mathlib.Data.List.Basic
import Mathlib.Data.String.Basic

/-!
# Text survives its bytes

A character is read from the front of its own bytes, whatever follows them (`scan_encodeChar`): the
cases are the four lengths that the bytes of a character can have, each with the bounds that the
reader asks for. So every text is read back from its bytes (`decode_encode`). Bytes below 128 stand
for themselves and for nothing else (`encodeChar_of_lt`, `eq_of_mem_encodeChar`).
-/

set_option autoImplicit false

namespace Depot.Text.Utf8

variable {a b c d : UInt8} {rest : List UInt8}

/-! ## Reading one character -/

theorem isTail_iff : isTail b = true ↔ 0x80 ≤ b.toNat ∧ b.toNat ≤ 0xBF := by
  simp [isTail, UInt8.le_iff_toNat_le]

/-- Whether a byte lies between two others, in numbers. -/
theorem within_iff {l u : UInt8} :
    (decide (l ≤ b) && decide (b ≤ u)) = true ↔ l.toNat ≤ b.toNat ∧ b.toNat ≤ u.toNat := by
  simp [UInt8.le_iff_toNat_le]

theorem not_lt_of_le {n : Nat} (h : 0x80 ≤ n) (ha : n ≤ a.toNat) : ¬ a < 0x80 := by
  rw [UInt8.lt_iff_toNat_lt]
  have h80 : (0x80 : UInt8).toNat = 0x80 := rfl
  omega

theorem scan_one (ha : a.toNat < 0x80) : scan (a :: rest) = .ok (Char.ofNat a.toNat, rest) := by
  have hlt : a < 0x80 := UInt8.lt_iff_toNat_lt.2 ha
  rw [scan.eq_def]
  exact if_pos hlt

theorem scan_two (ha : 0xC2 ≤ a.toNat ∧ a.toNat ≤ 0xDF) (hb : isTail b = true) :
    scan (a :: b :: rest) = .ok (Char.ofNat (a.toNat % 32 * 64 + low b), rest) := by
  have hlead : (decide (0xC2 ≤ a) && decide (a ≤ 0xDF)) = true := within_iff.2 ha
  rw [scan.eq_def]
  dsimp only
  rw [if_neg (not_lt_of_le (by decide) ha.1), if_pos hlead]
  exact if_pos hb

theorem scan_three (ha : 0xE0 ≤ a.toNat ∧ a.toNat ≤ 0xEF) (hb : second3 a b = true)
    (hc : isTail c = true) :
    scan (a :: b :: c :: rest) =
      .ok (Char.ofNat ((a.toNat % 16 * 64 + low b) * 64 + low c), rest) := by
  have hlead : (decide (0xE0 ≤ a) && decide (a ≤ 0xEF)) = true := within_iff.2 ha
  have hshort : ¬ (decide (0xC2 ≤ a) && decide (a ≤ 0xDF)) = true := by
    rw [within_iff]
    intro h
    have hDF : (0xDF : UInt8).toNat = 0xDF := rfl
    omega
  rw [scan.eq_def]
  dsimp only
  rw [if_neg (not_lt_of_le (by decide) ha.1), if_neg hshort, if_pos hlead,
    if_neg (by rw [hb]; decide)]
  exact if_pos hc

theorem scan_four (ha : 0xF0 ≤ a.toNat ∧ a.toNat ≤ 0xF4) (hb : second4 a b = true)
    (hc : isTail c = true) (hd : isTail d = true) :
    scan (a :: b :: c :: d :: rest) =
      .ok (Char.ofNat (((a.toNat % 8 * 64 + low b) * 64 + low c) * 64 + low d), rest) := by
  have hlead : (decide (0xF0 ≤ a) && decide (a ≤ 0xF4)) = true := within_iff.2 ha
  have hshort : ∀ l u : UInt8, u.toNat < 0xF0 →
      ¬ (decide (l ≤ a) && decide (a ≤ u)) = true := by
    intro l u hu
    rw [within_iff]
    omega
  rw [scan.eq_def]
  dsimp only
  rw [if_neg (not_lt_of_le (by decide) ha.1), if_neg (hshort _ _ (by decide)),
    if_neg (hshort _ _ (by decide)), if_pos hlead, if_neg (by rw [hb]; decide),
    if_neg (by rw [hc]; decide)]
  exact if_pos hd

/-- A second byte that continues a character may follow all first bytes but two, behind one of which
it has to be high enough, and behind the other low enough. -/
theorem second_of_isTail {first last least most : UInt8} (hb : isTail b = true)
    (hlow : a.toNat = first.toNat → least.toNat ≤ b.toNat)
    (hhigh : a.toNat = last.toNat → b.toNat ≤ most.toNat) :
    (if a == first then decide (least ≤ b) && decide (b ≤ 0xBF)
      else if a == last then decide (0x80 ≤ b) && decide (b ≤ most)
      else isTail b) = true := by
  have htail := isTail_iff.1 hb
  split
  · rename_i heq
    have ha : a.toNat = first.toNat := congrArg UInt8.toNat (eq_of_beq heq)
    exact within_iff.2 ⟨hlow ha, htail.2⟩
  · split
    · rename_i heq
      have ha : a.toNat = last.toNat := congrArg UInt8.toNat (eq_of_beq heq)
      exact within_iff.2 ⟨htail.1, hhigh ha⟩
    · exact hb

/-- Of three bytes, the second one is high enough if the character does not fit into two bytes, and
low enough if it is no surrogate. -/
theorem second3_of_isTail (hb : isTail b = true) (hlow : a.toNat = 0xE0 → 0xA0 ≤ b.toNat)
    (hhigh : a.toNat = 0xED → b.toNat ≤ 0x9F) : second3 a b = true :=
  second_of_isTail hb hlow hhigh

/-- Of four bytes, the second one is high enough if the character does not fit into three bytes, and
low enough if there is such a character. -/
theorem second4_of_isTail (hb : isTail b = true) (hlow : a.toNat = 0xF0 → 0x90 ≤ b.toNat)
    (hhigh : a.toNat = 0xF4 → b.toNat ≤ 0x8F) : second4 a b = true :=
  second_of_isTail hb hlow hhigh

/-! ## The bytes of a character -/

theorem toNat_ofNat_of_lt {n : Nat} (h : n < 256) : (UInt8.ofNat n).toNat = n := by
  rw [UInt8.toNat_ofNat']
  exact Nat.mod_eq_of_lt h

/-- The bytes behind the first one of a character continue it, and hold six bits each. -/
theorem isTail_ofNat (n : Nat) :
    isTail (UInt8.ofNat (n % 64 + 128)) = true ∧ low (UInt8.ofNat (n % 64 + 128)) = n % 64 := by
  have hbyte : (UInt8.ofNat (n % 64 + 128)).toNat = n % 64 + 128 := toNat_ofNat_of_lt (by omega)
  rw [isTail_iff, low, hbyte]
  omega

/-- **A character is read from its own bytes.** -/
theorem scan_encodeChar (c : Char) (rest : List UInt8) :
    scan (String.utf8EncodeChar c ++ rest) = .ok (c, rest) := by
  have hvalid : c.toNat < 0xD800 ∨ 0xDFFF < c.toNat ∧ c.toNat < 0x110000 := c.valid
  have hchar : ∀ m, m = c.toNat → Char.ofNat m = c := by
    rintro m rfl
    exact Char.ofNat_toNat c
  have hval : c.val.toNat = c.toNat := rfl
  unfold String.utf8EncodeChar
  rw [hval]
  generalize c.toNat = n at hvalid hchar ⊢
  dsimp only
  -- the bytes behind the first one
  obtain ⟨h₀, l₀⟩ := isTail_ofNat n
  obtain ⟨h₁, l₁⟩ := isTail_ofNat (n / 64)
  obtain ⟨h₂, l₂⟩ := isTail_ofNat (n / 4096)
  have b₁ : (UInt8.ofNat (n / 64 % 64 + 128)).toNat = n / 64 % 64 + 128 :=
    toNat_ofNat_of_lt (by omega)
  have b₂ : (UInt8.ofNat (n / 4096 % 64 + 128)).toNat = n / 4096 % 64 + 128 :=
    toNat_ofNat_of_lt (by omega)
  split_ifs with hone htwo hthree
  · have hlead : (UInt8.ofNat n).toNat = n := toNat_ofNat_of_lt (by omega)
    rw [List.singleton_append, scan_one (by omega), hlead, hchar n rfl]
  · have hlead : (UInt8.ofNat (n / 64 % 32 + 192)).toNat = n / 64 % 32 + 192 :=
      toNat_ofNat_of_lt (by omega)
    rw [List.cons_append, List.singleton_append, scan_two (by omega) h₀, l₀, hlead,
      hchar _ (by omega)]
  · have hlead : (UInt8.ofNat (n / 4096 % 16 + 224)).toNat = n / 4096 % 16 + 224 :=
      toNat_ofNat_of_lt (by omega)
    have hsecond : second3 (UInt8.ofNat (n / 4096 % 16 + 224)) (UInt8.ofNat (n / 64 % 64 + 128)) =
        true := second3_of_isTail h₁ (by omega) (by omega)
    rw [List.cons_append, List.cons_append, List.singleton_append,
      scan_three (by omega) hsecond h₀, l₀, l₁, hlead, hchar _ (by omega)]
  · have hlead : (UInt8.ofNat (n / 262144 % 8 + 240)).toNat = n / 262144 % 8 + 240 :=
      toNat_ofNat_of_lt (by omega)
    have hsecond : second4 (UInt8.ofNat (n / 262144 % 8 + 240))
        (UInt8.ofNat (n / 4096 % 64 + 128)) = true :=
      second4_of_isTail h₂ (by omega) (by omega)
    rw [List.cons_append, List.cons_append, List.cons_append, List.singleton_append,
      scan_four (by omega) hsecond h₁ h₀, l₀, l₁, l₂, hlead, hchar _ (by omega)]

/-- A character below 128 is one byte. -/
theorem encodeChar_of_lt {c : Char} (h : c.toNat < 0x80) :
    String.utf8EncodeChar c = [UInt8.ofNat c.toNat] := by
  have hone : c.val.toNat ≤ 127 := Nat.le_of_lt_succ h
  unfold String.utf8EncodeChar
  exact if_pos hone

/-- A byte below 128 stands for one character only. -/
theorem eq_of_mem_encodeChar {c : Char} (hb : b ∈ String.utf8EncodeChar c) (h : b.toNat < 0x80) :
    c.toNat = b.toNat := by
  have hval : c.val.toNat = c.toNat := rfl
  unfold String.utf8EncodeChar at hb
  rw [hval] at hb
  generalize c.toNat = n at hb ⊢
  -- all bytes of longer characters are 128 or more
  have hhigh : ∀ m k, 128 ≤ m → m + k < 256 → b = UInt8.ofNat (k + m) → False := by
    rintro m k hm hk rfl
    rw [toNat_ofNat_of_lt (by omega)] at h
    omega
  dsimp only at hb
  split_ifs at hb with hone htwo hthree
  · rw [List.mem_singleton] at hb
    rw [hb, toNat_ofNat_of_lt (by omega)]
  · simp only [List.mem_cons, List.not_mem_nil, or_false] at hb
    rcases hb with hb | hb <;> exact (hhigh _ _ (by omega) (by omega) hb).elim
  · simp only [List.mem_cons, List.not_mem_nil, or_false] at hb
    rcases hb with hb | hb | hb <;> exact (hhigh _ _ (by omega) (by omega) hb).elim
  · simp only [List.mem_cons, List.not_mem_nil, or_false] at hb
    rcases hb with hb | hb | hb | hb <;> exact (hhigh _ _ (by omega) (by omega) hb).elim

/-! ## Texts -/

theorem encode_append (cs ds : List Char) : encode (cs ++ ds) = encode cs ++ encode ds :=
  List.flatMap_append

/-- Text below 128 has a byte for each character. -/
theorem encode_of_lt {cs : List Char} (h : ∀ c ∈ cs, c.toNat < 0x80) :
    encode cs = cs.map fun c => UInt8.ofNat c.toNat := by
  induction cs with
  | nil => rfl
  | cons c cs ih =>
    have hc := encodeChar_of_lt (h c List.mem_cons_self)
    have hrest := ih fun d hd => h d (List.mem_cons_of_mem c hd)
    rw [encode, List.flatMap_cons, hc]
    exact congrArg _ hrest

theorem length_le_encode (cs : List Char) : cs.length ≤ (encode cs).length := by
  induction cs with
  | nil => exact Nat.le_refl 0
  | cons c cs ih =>
    have hpos := List.length_pos_of_ne_nil (String.utf8EncodeChar_ne_nil (c := c))
    have hcons : encode (c :: cs) = String.utf8EncodeChar c ++ encode cs := rfl
    rw [hcons, List.length_append, List.length_cons]
    omega

/-- With fuel for each character a text is read back, whatever was read before it. -/
theorem decodeFrom_encode (cs : List Char) {fuel : Nat} (offset : Nat) (h : cs.length ≤ fuel) :
    decodeFrom fuel offset (encode cs) = .ok cs := by
  induction cs generalizing fuel offset with
  | nil => cases fuel <;> rfl
  | cons c cs ih =>
    cases fuel with
    | zero => exact absurd h (Nat.not_succ_le_zero _)
    | succ fuel =>
      have hcons : encode (c :: cs) = String.utf8EncodeChar c ++ encode cs := rfl
      have hne : encode (c :: cs) ≠ [] := by
        rw [hcons]
        exact List.append_ne_nil_of_left_ne_nil String.utf8EncodeChar_ne_nil _
      have hscan : scan (encode (c :: cs)) = .ok (c, encode cs) := scan_encodeChar c (encode cs)
      rw [decodeFrom, hscan]
      · dsimp only
        rw [ih _ (Nat.le_of_succ_le_succ h)]
        rfl
      · exact hne

/-- **A text is read back from its bytes.** -/
theorem decode_encode (cs : List Char) : decode (encode cs) = .ok cs :=
  decodeFrom_encode cs 0 (length_le_encode cs)

end Depot.Text.Utf8
