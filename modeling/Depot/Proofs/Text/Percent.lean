import Depot.Proofs.Text.Utf8
import Depot.Text.Percent

/-!
# Text survives percent encoding

What is written of a text has characters without special meaning and escapes in it, and nothing else
(`written_encode`). An escape is read back as its byte, and every other byte as itself
(`decodeBytes_encodeByte`), so a text is read back from what is written of it, also behind a text
that was not encoded and has no percent sign (`decode?_append_encode`).
-/

set_option autoImplicit false

namespace Depot.Text.Percent

variable {b : UInt8} {bs rest : List UInt8} {c : Char} {cs ds : List Char}

/-! ## Escapes -/

/-- A character without special meaning in an address: an ASCII letter or digit, or one of four
marks. -/
def IsUnreserved (c : Char) : Prop :=
  c.isAlphanum = true ∨ c = '-' ∨ c = '.' ∨ c = '_' ∨ c = '~'

/-- A hexadecimal digit in upper case. -/
def IsUpperHex (c : Char) : Prop := '0' ≤ c ∧ c ≤ '9' ∨ 'A' ≤ c ∧ c ≤ 'F'

instance (c : Char) : Decidable (IsUpperHex c) := inferInstanceAs (Decidable (_ ∨ _))

/-- A text of characters without special meaning and of escapes, in any order. -/
inductive Written : List Char → Prop where
  | nil : Written []
  | plain {c : Char} {cs : List Char} : IsUnreserved c → Written cs → Written (c :: cs)
  | escape {x y : Char} {cs : List Char} : IsUpperHex x → IsUpperHex y → Written cs →
      Written ('%' :: x :: y :: cs)

theorem Written.append (hcs : Written cs) (hds : Written ds) : Written (cs ++ ds) := by
  induction hcs with
  | nil => exact hds
  | plain hc _ ih => exact .plain hc ih
  | escape hx hy _ ih => exact .escape hx hy ih

theorem isUpperHex_upperDigit : ∀ n < 16, IsUpperHex (upperDigit n) := by decide

theorem upperDigit_lt : ∀ n < 16, (upperDigit n).toNat < 0x80 := by decide

/-- A digit of an escape is read back. -/
theorem hexDigit?_upperDigit : ∀ n < 16, Decimal.hexDigit? (upperDigit n) = some n := by decide

/-- A byte that is written as it is stands for a character without special meaning. -/
theorem isUnreserved_of_isPlain (h : isPlain b = true) :
    b.toNat < 0x80 ∧ IsUnreserved (Char.ofNat b.toNat) := by
  simp only [isPlain, Bool.and_eq_true, Bool.or_eq_true, decide_eq_true_eq, beq_iff_eq] at h
  obtain ⟨hlt, hchar⟩ := h
  refine ⟨UInt8.lt_iff_toNat_lt.1 hlt, ?_⟩
  unfold IsUnreserved
  simpa only [or_assoc] using hchar

theorem written_encodeByte (b : UInt8) : Written (encodeByte b) := by
  have hb := b.toNat_lt
  unfold encodeByte
  split
  · rename_i hplain
    exact .plain (isUnreserved_of_isPlain hplain).2 .nil
  · have hhigh := isUpperHex_upperDigit (b.toNat / 16) (by omega)
    have hlow := isUpperHex_upperDigit (b.toNat % 16) (by omega)
    exact .escape hhigh hlow .nil

theorem toList_encode (s : String) :
    (encode s).toList = (Utf8.encode s.toList).flatMap encodeByte := by
  rw [encode, String.toList_ofList]

/-- **What is written of a text** needs no further encoding. -/
theorem written_encode (s : String) : Written (encode s).toList := by
  rw [toList_encode]
  generalize Utf8.encode s.toList = bs
  induction bs with
  | nil => exact .nil
  | cons b bs ih =>
    rw [List.flatMap_cons]
    exact (written_encodeByte b).append ih

/-! ## Reading -/

theorem toNat_ofNat_of_lt {n : Nat} (h : n < 0x80) : (Char.ofNat n).toNat = n := by
  have hvalid : n.isValidChar := Or.inl (by omega)
  rw [Char.ofNat, dif_pos hvalid]
  rfl

/-- A character below 128 is told by its byte. -/
theorem ofNat_toNat_of_lt (h : c.toNat < 0x80) :
    Char.ofNat (UInt8.ofNat c.toNat).toNat = c := by
  rw [Utf8.toNat_ofNat_of_lt (by omega), Char.ofNat_toNat]

theorem decodeBytes_cons (h : b ≠ 37) : decodeBytes (b :: rest) = b :: decodeBytes rest := by
  rw [decodeBytes.eq_def]
  split
  · rename_i heq
    exact absurd (List.cons.inj heq).1 h
  · rename_i heq
    obtain ⟨rfl, rfl⟩ := List.cons.inj heq
    rfl
  · rename_i heq
    cases heq

/-- Bytes without a percent sign stand for themselves. -/
theorem decodeBytes_append (h : 37 ∉ bs) : decodeBytes (bs ++ rest) = bs ++ decodeBytes rest := by
  induction bs with
  | nil => rfl
  | cons b bs ih =>
    obtain ⟨hb, hbs⟩ := not_or.1 (mt List.mem_cons.2 h)
    rw [List.cons_append, decodeBytes_cons fun heq => hb heq.symm, ih hbs, List.cons_append]

/-- A percent sign and two digits stand for one byte. -/
theorem decodeBytes_escape {x y : UInt8} {m n : Nat}
    (hx : Decimal.hexDigit? (Char.ofNat x.toNat) = some m)
    (hy : Decimal.hexDigit? (Char.ofNat y.toNat) = some n) :
    decodeBytes (37 :: x :: y :: rest) = (m * 16 + n).toUInt8 :: decodeBytes rest := by
  rw [decodeBytes, hx, hy]

/-- The bytes of an escape are those of its three characters. -/
theorem encode_escape {x y : Char} (hx : x.toNat < 0x80) (hy : y.toNat < 0x80) :
    Utf8.encode ['%', x, y] = [37, UInt8.ofNat x.toNat, UInt8.ofNat y.toNat] := by
  apply Utf8.encode_of_lt
  intro c hc
  simp only [List.mem_cons, List.not_mem_nil, or_false] at hc
  rcases hc with rfl | rfl | rfl
  · decide
  · exact hx
  · exact hy

/-- **A byte is read back** from what is written of it. -/
theorem decodeBytes_encodeByte (b : UInt8) (rest : List UInt8) :
    decodeBytes (Utf8.encode (encodeByte b) ++ rest) = b :: decodeBytes rest := by
  have hb := b.toNat_lt
  unfold encodeByte
  split
  · rename_i hplain
    obtain ⟨hlt, hunreserved⟩ := isUnreserved_of_isPlain hplain
    have hbytes : Utf8.encode [Char.ofNat b.toNat] = [b] := by
      have hchar := toNat_ofNat_of_lt hlt
      rw [Utf8.encode, List.flatMap_singleton, Utf8.encodeChar_of_lt (by omega), hchar,
        UInt8.ofNat_toNat]
    -- the percent sign is not written as it is
    have hne : b ≠ 37 := by
      rintro rfl
      exact absurd hplain (by decide)
    rw [hbytes, List.singleton_append, decodeBytes_cons hne]
  · have hhigh := upperDigit_lt (b.toNat / 16) (by omega)
    have hlow := upperDigit_lt (b.toNat % 16) (by omega)
    have hx : Decimal.hexDigit? (Char.ofNat (UInt8.ofNat (upperDigit (b.toNat / 16)).toNat).toNat) =
        some (b.toNat / 16) := by
      rw [ofNat_toNat_of_lt hhigh, hexDigit?_upperDigit _ (by omega)]
    have hy : Decimal.hexDigit? (Char.ofNat (UInt8.ofNat (upperDigit (b.toNat % 16)).toNat).toNat) =
        some (b.toNat % 16) := by
      rw [ofNat_toNat_of_lt hlow, hexDigit?_upperDigit _ (by omega)]
    have hbyte : b.toNat / 16 * 16 + b.toNat % 16 = b.toNat := by omega
    rw [encode_escape hhigh hlow]
    calc
      decodeBytes (37 :: UInt8.ofNat _ :: UInt8.ofNat _ :: rest)
          = (b.toNat / 16 * 16 + b.toNat % 16).toUInt8 :: decodeBytes rest :=
        decodeBytes_escape hx hy
      _ = b :: decodeBytes rest := by
        rw [hbyte]
        exact congrArg (· :: decodeBytes rest) UInt8.ofNat_toNat

theorem decodeBytes_flatMap (bs rest : List UInt8) :
    decodeBytes (Utf8.encode (bs.flatMap encodeByte) ++ rest) = bs ++ decodeBytes rest := by
  induction bs with
  | nil => rfl
  | cons b bs ih =>
    rw [List.flatMap_cons, Utf8.encode_append, List.append_assoc, decodeBytes_encodeByte, ih,
      List.cons_append]

/-- The byte of the percent sign stands for nothing else. -/
theorem notMem_encode (h : '%' ∉ cs) : 37 ∉ Utf8.encode cs := by
  intro hmem
  obtain ⟨c, hc, hb⟩ := List.mem_flatMap.1 hmem
  have hcode : c.toNat = 37 := Utf8.eq_of_mem_encodeChar hb (by decide)
  have heq : c = '%' := by
    rw [← Char.ofNat_toNat c, hcode]
  exact h (heq ▸ hc)

/-- **A text is read back** from what is written of it, behind any text without a percent sign. -/
theorem decode?_append_encode {lead : String} (h : '%' ∉ lead.toList) (s : String) :
    decode? (lead ++ encode s) = some (lead ++ s) := by
  have hbytes : decodeBytes (Utf8.encode (lead ++ encode s).toList) =
      Utf8.encode (lead ++ s).toList := by
    have hread := decodeBytes_flatMap (Utf8.encode s.toList) []
    rw [List.append_nil, ← toList_encode] at hread
    rw [String.toList_append, Utf8.encode_append, decodeBytes_append (notMem_encode h), hread,
      String.toList_append, Utf8.encode_append]
    exact congrArg _ (List.append_nil _)
  rw [decode?, hbytes, Utf8.decode_encode]
  exact congrArg some (String.ofList_toList)

end Depot.Text.Percent
