import Depot.Decimal.Digits
import Mathlib.Data.Nat.Digits.Lemmas

/-!
# Digits written and read

The text of a number is the row of its digits (`text_eq`), filled up with zeros where a width is
asked for (`padded_eq`), and the number is what its digits stand for (`ofDigits_digits`). A row of
digits is read back digit by digit, and ends where no digit follows (`takeWhile_digits`).
-/

set_option autoImplicit false

namespace Depot.Decimal

/-! ## Single digits -/

theorem digit?_digitChar {d : Nat} (h : d < 10) : digit? (digitChar d) = some d := by
  interval_cases d <;> decide

theorem isDigit_digitChar {d : Nat} (h : d < 10) : isDigit (digitChar d) = true := by
  interval_cases d <;> decide

theorem hexDigit?_digitChar {d : Nat} (h : d < 16) : hexDigit? (digitChar d) = some d := by
  interval_cases d <;> decide

/-- Only zero is written as the digit zero. -/
theorem digitChar_eq_zero {d : Nat} (h : d < 10) : digitChar d = '0' ↔ d = 0 := by
  interval_cases d <;> decide

/-- The characters of a row of digits. -/
def row (ds : List Nat) : List Char := ds.map digitChar

section Row

variable {ds : List Nat}

theorem filterMap_row (h : ∀ d ∈ ds, d < 10) : (row ds).filterMap digit? = ds := by
  induction ds with
  | nil => rfl
  | cons d ds ih =>
    obtain ⟨hd, hds⟩ := List.forall_mem_cons.1 h
    have hrow : row (d :: ds) = digitChar d :: row ds := rfl
    rw [hrow, List.filterMap_cons_some (digit?_digitChar hd), ih hds]

theorem mapM_row (h : ∀ d ∈ ds, d < 10) : (row ds).mapM digit? = some ds := by
  induction ds with
  | nil => rfl
  | cons d ds ih =>
    obtain ⟨hd, hds⟩ := List.forall_mem_cons.1 h
    have hrow : row (d :: ds) = digitChar d :: row ds := rfl
    rw [hrow, List.mapM_cons, digit?_digitChar hd, ih hds]
    rfl

theorem isDigit_of_mem_row (h : ∀ d ∈ ds, d < 10) {c : Char} (hc : c ∈ row ds) :
    isDigit c = true := by
  obtain ⟨d, hd, rfl⟩ := List.mem_map.1 hc
  exact isDigit_digitChar (h d hd)

/-- A row of digits ends where none follows. -/
theorem takeWhile_row (h : ∀ d ∈ ds, d < 10) {rest : List Char}
    (hrest : ∀ c ∈ rest.head?, isDigit c = false) :
    (row ds ++ rest).takeWhile isDigit = row ds ∧ (row ds ++ rest).dropWhile isDigit = rest := by
  have hall : ∀ c ∈ row ds, isDigit c = true := fun c hc => isDigit_of_mem_row h hc
  have hstop : rest.takeWhile isDigit = [] ∧ rest.dropWhile isDigit = rest := by
    cases rest with
    | nil => exact ⟨rfl, rfl⟩
    | cons c rest =>
      have hc : isDigit c = false := hrest c rfl
      rw [List.takeWhile_cons_of_neg (by simp [hc]), List.dropWhile_cons_of_neg (by simp [hc])]
      exact ⟨rfl, rfl⟩
  rw [List.takeWhile_append_of_pos hall, List.dropWhile_append_of_pos hall, hstop.1, hstop.2,
    List.append_nil]
  exact ⟨rfl, rfl⟩

end Row

/-! ## The digits of a number -/

theorem ofDigits_eq (base : Nat) (ds : List Nat) :
    ofDigits base ds = Nat.ofDigits base ds.reverse := by
  rw [Nat.ofDigits_eq_foldr, List.foldr_reverse, ofDigits]
  congr 1
  funext n d
  rw [Nat.mul_comm, Nat.add_comm]
  rfl

theorem ofDigits_append (base : Nat) (ds es : List Nat) :
    ofDigits base (ds ++ es) = es.foldl (fun n d => n * base + d) (ofDigits base ds) :=
  List.foldl_append

/-- Zeros in front do not count. -/
theorem ofDigits_replicate_append (base k : Nat) (ds : List Nat) :
    ofDigits base (List.replicate k 0 ++ ds) = ofDigits base ds := by
  rw [ofDigits_eq, ofDigits_eq, List.reverse_append, List.reverse_replicate,
    Nat.ofDigits_append_replicate_zero]

/-- Each zero behind the digits multiplies by the base. -/
theorem ofDigits_append_replicate (base k : Nat) (ds : List Nat) :
    ofDigits base (ds ++ List.replicate k 0) = ofDigits base ds * Nat.pow base k := by
  rw [ofDigits_eq, ofDigits_eq, List.reverse_append, List.reverse_replicate, Nat.ofDigits_append,
    Nat.ofDigits_replicate_zero, List.length_replicate, Nat.zero_add, Nat.mul_comm]
  rfl

/-- The decimal digits of a number, most significant first; zero has one. -/
def digits (n : Nat) : List Nat := if n = 0 then [0] else (Nat.digits 10 n).reverse

theorem ofDigits_digits (n : Nat) : ofDigits 10 (digits n) = n := by
  unfold digits
  split
  · rename_i hn
    rw [hn]
    rfl
  · rw [ofDigits_eq, List.reverse_reverse, Nat.ofDigits_digits]

theorem lt_of_mem_digits {n d : Nat} (h : d ∈ digits n) : d < 10 := by
  unfold digits at h
  split at h
  · rw [List.mem_singleton.1 h]
    decide
  · exact Nat.digits_lt_base (by decide) (List.mem_reverse.1 h)

/-- Only zero begins with the digit zero. -/
theorem exists_digits_cons {n : Nat} (h : n ≠ 0) : ∃ d ds, digits n = d :: ds ∧ d ≠ 0 := by
  have hne : Nat.digits 10 n ≠ [] := Nat.digits_ne_nil_iff_ne_zero.2 h
  have hlast := Nat.getLast_digit_ne_zero 10 h
  refine ⟨(Nat.digits 10 n).getLast hne, (Nat.digits 10 n).dropLast.reverse, ?_, hlast⟩
  rw [digits, if_neg h]
  conv_lhs => rw [← List.dropLast_concat_getLast hne]
  rw [List.reverse_concat]

theorem length_digits_le {n width : Nat} (hwidth : 0 < width) (h : n < Nat.pow 10 width) :
    (digits n).length ≤ width := by
  unfold digits
  split
  · exact hwidth
  · rw [List.length_reverse]
    exact (Nat.digits_length_le_iff (by decide) n).2 h

theorem digitsFrom_eq {base : Nat} (h : 2 ≤ base) (acc : List Char) (n : Nat) :
    digitsFrom base acc n = row (Nat.digits base n).reverse ++ acc := by
  fun_induction digitsFrom base acc n with
  | case1 acc n hn =>
    obtain rfl : n = 0 := by omega
    simp [row]
  | case2 acc n hn ih =>
    have hdigits : Nat.digits base n = n % base :: Nat.digits base (n / base) :=
      Nat.digits_def' (by omega) (by omega)
    rw [ih, hdigits]
    simp [row]

theorem text_eq (n : Nat) : text n = row (digits n) := by
  unfold text digits
  split
  · rfl
  · rw [digitsFrom_eq (by decide), List.append_nil]

/-- The digits of a number filled up to a width. -/
def filled (width n : Nat) : List Nat :=
  List.replicate (width - (digits n).length) 0 ++ digits n

theorem padded_eq (width n : Nat) : padded width n = row (filled width n) := by
  rw [padded, text_eq, filled, row, row, List.length_map, List.map_append, List.map_replicate]
  rfl

theorem ofDigits_filled (width n : Nat) : ofDigits 10 (filled width n) = n := by
  rw [filled, ofDigits_replicate_append, ofDigits_digits]

theorem lt_of_mem_filled {width n d : Nat} (h : d ∈ filled width n) : d < 10 := by
  rcases List.mem_append.1 h with h | h
  · rw [(List.mem_replicate.1 h).2]
    decide
  · exact lt_of_mem_digits h

theorem length_filled {width n : Nat} (hwidth : 0 < width) (h : n < Nat.pow 10 width) :
    (filled width n).length = width := by
  have hle := length_digits_le hwidth h
  rw [filled, List.length_append, List.length_replicate]
  omega

/-- The digits of a number in front of something else, taken as far as they go. -/
theorem takeWhile_text (n : Nat) {rest : List Char}
    (hrest : ∀ c ∈ rest.head?, isDigit c = false) :
    ((text n ++ rest).takeWhile isDigit).filterMap digit? = digits n ∧
      (text n ++ rest).dropWhile isDigit = rest := by
  have hlt : ∀ d ∈ digits n, d < 10 := fun d => lt_of_mem_digits
  obtain ⟨htake, hdrop⟩ := takeWhile_row hlt hrest
  rw [text_eq, htake, hdrop, filterMap_row hlt]
  exact ⟨rfl, rfl⟩

/-- The text of a number begins with a digit, which is no zero unless the number is zero. -/
theorem exists_text_cons (n : Nat) :
    ∃ c cs, text n = c :: cs ∧ isDigit c = true ∧ (c = '0' ↔ n = 0) := by
  by_cases hn : n = 0
  · rw [hn]
    exact ⟨'0', [], rfl, rfl, by simp⟩
  · obtain ⟨d, ds, hds, hd⟩ := exists_digits_cons hn
    have hlt : d < 10 := lt_of_mem_digits (n := n) (hds ▸ List.mem_cons_self)
    refine ⟨digitChar d, row ds, ?_, isDigit_digitChar hlt, ?_⟩
    · rw [text_eq, hds]
      rfl
    · rw [digitChar_eq_zero hlt]
      exact ⟨fun h => absurd h hd, fun h => absurd h hn⟩

end Depot.Decimal
