import Depot.Proofs.Text.Utf8
import Depot.Text.Base64
import Depot.Text.Blank

/-!
# Bytes survive base 64

A symbol stands for its six bits (`valueOf_symbolOf`), and the twenty-four bits of four symbols are
those of three bytes. So each group of symbols is read back as the bytes that it was written for,
the last one with its padding as well (`decodeLast_encode`), and by induction on the groups all
bytes are (`decode_encode`). A text in base 64 has no blanks in it, so that blanks around it can be
told apart from it (`isBlank_characters`, `trimBy_append`).
-/

set_option autoImplicit false

namespace Depot.Text.Base64

variable {a b c : UInt8} {rest : List UInt8}

/-! ## Symbols -/

theorem valueOf_symbolOf : ∀ n < 64, valueOf (symbolOf n) = some n := by decide

theorem symbolOf_ne_pad : ∀ n < 64, symbolOf n ≠ pad := by decide

theorem value_symbolOf (offset : Nat) {n : Nat} (h : n < 64) :
    value offset (symbolOf n) = .ok n := by
  rw [value, valueOf_symbolOf n h]

/-- A symbol in the last group is read before any padding. -/
theorem lastValues_symbolOf (start i : Nat) {n : Nat} (h : n < 64) (rest : List UInt8) :
    lastValues start i none (symbolOf n :: rest) =
      (lastValues start (i + 1) none rest).map fun (vs, pads) => (n :: vs, pads) := by
  rw [lastValues, if_neg (symbolOf_ne_pad n h)]
  simp only [value_symbolOf _ h, bind, Except.bind]
  cases lastValues start (i + 1) none rest with
  | error f => rfl
  | ok found => rfl

/-! ## The bits of three bytes -/

theorem toUInt8_eq {n : Nat} (h : n = a.toNat) : n.toUInt8 = a := by
  subst h
  exact UInt8.ofNat_toNat

theorem first_eq (a b : UInt8) :
    (a.toNat / 4 * 4 + (a.toNat % 4 * 16 + b.toNat / 16) / 16).toUInt8 = a := by
  have hb := b.toNat_lt
  apply toUInt8_eq
  omega

theorem second_eq (a b c : UInt8) :
    ((a.toNat % 4 * 16 + b.toNat / 16) % 16 * 16 +
      (b.toNat % 16 * 4 + c.toNat / 64) / 4).toUInt8 = b := by
  have hb := b.toNat_lt
  have hc := c.toNat_lt
  apply toUInt8_eq
  omega

theorem third_eq (b c : UInt8) :
    ((b.toNat % 16 * 4 + c.toNat / 64) % 4 * 64 + c.toNat % 64).toUInt8 = c := by
  have hc := c.toNat_lt
  apply toUInt8_eq
  omega

/-! ## Groups -/

/-- The bits of the four symbols of three bytes are in range. -/
theorem symbols_lt (a b c : UInt8) :
    a.toNat / 4 < 64 ∧ a.toNat % 4 * 16 + b.toNat / 16 < 64 ∧
      b.toNat % 16 * 4 + c.toNat / 64 < 64 ∧ c.toNat % 64 < 64 := by
  have ha := a.toNat_lt
  have hb := b.toNat_lt
  have hc := c.toNat_lt
  omega

section Last

variable {start m n o p : Nat} {group : List UInt8}

/-- Two symbols and two signs for padding are one byte, if the bits that are left over are zero. -/
theorem decodeLast_two (h : lastValues start 0 none group = .ok ([m, n], 2)) (hbits : n % 16 = 0) :
    decodeLast start group = .ok [(m * 4 + n / 16).toUInt8] := by
  simp only [decodeLast, h, bind, Except.bind]
  rw [if_neg (by simp), if_neg (by simp), if_neg (not_not.2 hbits)]
  rfl

/-- Three symbols and one sign for padding are two bytes, if the bits that are left over are
zero. -/
theorem decodeLast_three (h : lastValues start 0 none group = .ok ([m, n, o], 1))
    (hbits : o % 4 = 0) :
    decodeLast start group = .ok [(m * 4 + n / 16).toUInt8, (n % 16 * 16 + o / 4).toUInt8] := by
  simp only [decodeLast, h, bind, Except.bind]
  rw [if_neg (by simp), if_neg (by simp), if_neg (not_not.2 hbits)]
  rfl

/-- Four symbols are three bytes. -/
theorem decodeLast_four (h : lastValues start 0 none group = .ok ([m, n, o, p], 0)) :
    decodeLast start group = .ok [(m * 4 + n / 16).toUInt8, (n % 16 * 16 + o / 4).toUInt8,
      (o % 4 * 64 + p).toUInt8] := by
  simp only [decodeLast, h, bind, Except.bind]
  rw [if_neg (by simp), if_neg (by simp)]
  rfl

/-- The last group is read back, whatever number of bytes it stands for. -/
theorem decodeLast_encode (start : Nat) (bytes : List UInt8) (hne : bytes ≠ [])
    (h : bytes.length ≤ 3) : decodeLast start (encode bytes) = .ok bytes := by
  -- what the writer fills up is zero, so the bits of one and of two bytes are those of three
  match bytes, hne, h with
  | [a], _, _ =>
    obtain ⟨h₁, -, -, -⟩ := symbols_lt a 0 0
    have hlast : a.toNat % 4 * 16 < 64 := by omega
    have hvalues : lastValues start 0 none (encode [a]) =
        .ok ([a.toNat / 4, a.toNat % 4 * 16], 2) := by
      rw [encode, lastValues_symbolOf _ _ h₁, lastValues_symbolOf _ _ hlast]
      rfl
    have hfirst : (a.toNat / 4 * 4 + a.toNat % 4 * 16 / 16).toUInt8 = a := first_eq a 0
    rw [decodeLast_two hvalues (by omega), hfirst]
  | [a, b], _, _ =>
    obtain ⟨h₁, h₂, -, -⟩ := symbols_lt a b 0
    have hlast : b.toNat % 16 * 4 < 64 := by omega
    have hvalues : lastValues start 0 none (encode [a, b]) =
        .ok ([a.toNat / 4, a.toNat % 4 * 16 + b.toNat / 16, b.toNat % 16 * 4], 1) := by
      rw [encode, lastValues_symbolOf _ _ h₁, lastValues_symbolOf _ _ h₂,
        lastValues_symbolOf _ _ hlast]
      rfl
    have hsecond : ((a.toNat % 4 * 16 + b.toNat / 16) % 16 * 16 +
        b.toNat % 16 * 4 / 4).toUInt8 = b := second_eq a b 0
    rw [decodeLast_three hvalues (by omega), first_eq, hsecond]
  | [a, b, c], _, _ =>
    obtain ⟨h₁, h₂, h₃, h₄⟩ := symbols_lt a b c
    have hvalues : lastValues start 0 none (encode [a, b, c]) =
        .ok ([a.toNat / 4, a.toNat % 4 * 16 + b.toNat / 16, b.toNat % 16 * 4 + c.toNat / 64,
          c.toNat % 64], 0) := by
      rw [encode, lastValues_symbolOf _ _ h₁, lastValues_symbolOf _ _ h₂,
        lastValues_symbolOf _ _ h₃, lastValues_symbolOf _ _ h₄]
      rfl
    rw [decodeLast_four hvalues, first_eq, second_eq, third_eq]

end Last

/-- Bytes are written in groups of four symbols. -/
theorem length_encode (bytes : List UInt8) : (encode bytes).length % 4 = 0 := by
  fun_induction encode bytes with
  | case1 => rfl
  | case2 a => simp
  | case3 a b => simp
  | case4 a b c rest ih =>
    simp only [List.length_cons]
    omega

theorem encode_ne_nil (h : rest ≠ []) : encode rest ≠ [] := by
  match rest, h with
  | [a], _ => exact List.cons_ne_nil _ _
  | [a, b], _ => exact List.cons_ne_nil _ _
  | a :: b :: c :: rest, _ => exact List.cons_ne_nil _ _

/-- A group that is not the last one is read as three bytes, in front of those of the others. -/
theorem decodeGroups_encode_cons (start : Nat) (hne : rest ≠ []) :
    decodeGroups start (encode (a :: b :: c :: rest)) =
      (decodeGroups (start + 4) (encode rest)).map (a :: b :: c :: ·) := by
  obtain ⟨h₁, h₂, h₃, h₄⟩ := symbols_lt a b c
  obtain ⟨w, ws, hrest⟩ := List.exists_cons_of_ne_nil (encode_ne_nil hne)
  rw [encode, hrest, decodeGroups]
  simp only [value_symbolOf _ h₁, value_symbolOf _ h₂, value_symbolOf _ h₃, value_symbolOf _ h₄,
    bind, Except.bind, first_eq, second_eq, third_eq]
  cases decodeGroups (start + 4) (w :: ws) with
  | error f => rfl
  | ok bytes => rfl

/-- **All groups are read back**, from wherever they begin. -/
theorem decodeGroups_encode (start : Nat) {bytes : List UInt8} (hne : bytes ≠ []) :
    decodeGroups start (encode bytes) = .ok bytes := by
  -- on the groups of three bytes, of which the last one may be shorter
  fun_induction encode bytes generalizing start with
  | case1 => exact absurd rfl hne
  | case2 a => exact decodeLast_encode start [a] hne (by simp)
  | case3 a b => exact decodeLast_encode start [a, b] hne (by simp)
  | case4 a b c rest ih =>
    by_cases hrest : rest = []
    · subst hrest
      exact decodeLast_encode start [a, b, c] hne (by simp)
    · have hgroup := decodeGroups_encode_cons (a := a) (b := b) (c := c) start hrest
      rw [ih (start + 4) hrest] at hgroup
      exact hgroup

/-- **Bytes are read back from their symbols.** -/
theorem decode_encode (bytes : List UInt8) : decode (encode bytes) = .ok bytes := by
  by_cases hne : bytes = []
  · subst hne
    rfl
  · have hlength := length_encode bytes
    obtain ⟨s, ss, hencode⟩ := List.exists_cons_of_ne_nil (encode_ne_nil hne)
    rw [hencode] at hlength
    have hgroups := decodeGroups_encode 0 hne
    rw [hencode] at hgroups ⊢
    unfold decode
    split
    · rename_i heq
      cases heq
    · rw [if_neg fun h => by omega]
      exact hgroups
    · exact hgroups

/-- One byte makes two symbols, and two signs for padding. -/
example : encode [0x4D] = [0x54, 0x51, 0x3D, 0x3D] := by decide

/-! ## Text in base 64 -/

/-- What holds of the padding and of each symbol holds of all that is written. -/
theorem forall_mem_encode {P : UInt8 → Prop} (hpad : P pad) (hsymbol : ∀ n < 64, P (symbolOf n))
    (bytes : List UInt8) : ∀ s ∈ encode bytes, P s := by
  fun_induction encode bytes with
  | case1 => exact fun s hs => absurd hs List.not_mem_nil
  | case2 a =>
    obtain ⟨h₁, -, -, -⟩ := symbols_lt a 0 0
    have hlast : a.toNat % 4 * 16 < 64 := by omega
    simp only [List.forall_mem_cons]
    exact ⟨hsymbol _ h₁, hsymbol _ hlast, hpad, hpad, nofun⟩
  | case3 a b =>
    obtain ⟨h₁, h₂, -, -⟩ := symbols_lt a b 0
    have hlast : b.toNat % 16 * 4 < 64 := by omega
    simp only [List.forall_mem_cons]
    exact ⟨hsymbol _ h₁, hsymbol _ h₂, hsymbol _ hlast, hpad, nofun⟩
  | case4 a b c rest ih =>
    obtain ⟨h₁, h₂, h₃, h₄⟩ := symbols_lt a b c
    simp only [List.forall_mem_cons]
    exact ⟨hsymbol _ h₁, hsymbol _ h₂, hsymbol _ h₃, hsymbol _ h₄, ih⟩

/-- The characters of a text in base 64. -/
def characters (text : List Char) : List Char :=
  (encode (Utf8.encode text)).map fun s => Char.ofNat s.toNat

/-- None of them is a blank. -/
theorem isBlank_characters (text : List Char) : ∀ c ∈ characters text, isBlank c = false := by
  have hsymbols := forall_mem_encode (P := fun s => isBlank (Char.ofNat s.toNat) = false)
    (by decide) (by decide) (Utf8.encode text)
  intro c hc
  obtain ⟨s, hs, rfl⟩ := List.mem_map.1 hc
  exact hsymbols s hs

/-- Their bytes are the symbols. -/
theorem encode_characters (text : List Char) :
    Utf8.encode (characters text) = encode (Utf8.encode text) := by
  have hsymbols := forall_mem_encode (P := fun s => (Char.ofNat s.toNat).toNat = s.toNat ∧
    s.toNat < 0x80) (by decide) (by decide) (Utf8.encode text)
  have hlow : ∀ c ∈ characters text, c.toNat < 0x80 := by
    intro c hc
    obtain ⟨s, hs, rfl⟩ := List.mem_map.1 hc
    obtain ⟨hchar, hlt⟩ := hsymbols s hs
    rw [hchar]
    exact hlt
  rw [Utf8.encode_of_lt hlow, characters, List.map_map]
  calc
    _ = (encode (Utf8.encode text)).map id := by
      apply List.map_congr_left
      intro s hs
      show UInt8.ofNat (Char.ofNat s.toNat).toNat = s
      rw [(hsymbols s hs).1, UInt8.ofNat_toNat]
    _ = encode (Utf8.encode text) := List.map_id _

/-- Blanks around a text that has none are taken away. -/
theorem trimBy_append {p : Char → Bool} {before cs after : List Char}
    (hbefore : ∀ c ∈ before, p c = true) (hafter : ∀ c ∈ after, p c = true)
    (hcs : ∀ c ∈ cs, p c = false) : trimBy p (before ++ (cs ++ after)) = cs := by
  have hkeep : ∀ ds : List Char, (∀ c ∈ ds, p c = false) → ds.dropWhile p = ds := by
    intro ds hds
    cases ds with
    | nil => rfl
    | cons d ds =>
      apply List.dropWhile_cons_of_neg
      rw [hds d List.mem_cons_self]
      exact Bool.false_ne_true
  have hnone : ∀ ds : List Char, (∀ c ∈ ds, p c = true) → ds.dropWhile p = [] := by
    intro ds hds
    rw [← List.append_nil ds, List.dropWhile_append_of_pos hds]
    rfl
  rw [trimBy, List.dropWhile_append_of_pos hbefore]
  cases cs with
  | nil =>
    rw [List.nil_append, hnone after hafter]
    rfl
  | cons c cs =>
    have hc : ¬ p c = true := by
      rw [hcs c List.mem_cons_self]
      exact Bool.false_ne_true
    have hback : ∀ d ∈ after.reverse, p d = true := fun d hd => hafter d (List.mem_reverse.1 hd)
    rw [List.cons_append, List.dropWhile_cons_of_neg hc, ← List.cons_append, List.reverse_append,
      List.dropWhile_append_of_pos hback, hkeep, List.reverse_reverse]
    intro d hd
    exact hcs d (List.mem_reverse.1 hd)

end Depot.Text.Base64
