import Depot.Proofs.Decimal
import Depot.Proofs.Time.Calendar
import Depot.Time.Reader
import Mathlib.Data.List.TakeWhile

/-!
# An instant is read back as it was written

The exact form of an instant is read part by part: numbers of a fixed width, the year with its sign,
month and day, the time of day, and the digits of a second, from which zeros at the end were taken.
All parts together say the same instant (`ofText?_text`), for the whole range of years from −9999 to
9999.
-/

set_option autoImplicit false

namespace Depot.Time

open Decimal

/-! ## Numbers of a fixed width -/

theorem scanFixed_padded (width : Nat) {n : Nat} (hwidth : 0 < width) (h : n < Nat.pow 10 width)
    (rest : List Char) : scanFixed width (padded width n ++ rest) = some (n, rest) := by
  have hlength : (row (filled width n)).length = width := by
    rw [row, List.length_map, length_filled hwidth h]
  have htake : (padded width n ++ rest).take width = row (filled width n) := by
    rw [padded_eq, List.take_append_of_le_length (by rw [hlength]), List.take_of_length_le]
    rw [hlength]
  have hdrop : (padded width n ++ rest).drop width = rest := by
    rw [padded_eq, List.drop_append_of_le_length (by rw [hlength]),
      List.drop_eq_nil_of_le (by rw [hlength]), List.nil_append]
  have hdigits : (row (filled width n)).mapM digit? = some (filled width n) :=
    mapM_row fun d => lt_of_mem_filled
  simp only [scanFixed, htake, hdrop, hdigits, Option.bind_eq_bind, Option.bind_some,
    if_pos (length_filled hwidth h), ofDigits_filled]
  rfl

theorem scanBetween_padded (low high : Nat) {n : Nat} (hlow : low ≤ n) (hhigh : n ≤ high)
    (hn : n < 100) (rest : List Char) :
    scanBetween low high (padded 2 n ++ rest) = some (n, rest) := by
  have hfixed := scanFixed_padded 2 (by decide) hn rest
  have hbetween : low ≤ n ∧ n ≤ high := ⟨hlow, hhigh⟩
  simp only [scanBetween, hfixed, Option.bind_eq_bind, Option.bind_some, if_pos hbetween]
  rfl

/-! ## The date -/

theorem exists_padded_cons (width : Nat) {n : Nat} (hwidth : 0 < width) (h : n < Nat.pow 10 width) :
    ∃ c cs, padded width n = c :: cs ∧ isDigit c = true := by
  have hlength := length_filled hwidth h
  rw [padded_eq]
  cases hds : filled width n with
  | nil =>
    rw [hds] at hlength
    exact absurd hlength (Nat.ne_of_lt hwidth)
  | cons d ds =>
    have hmem : d ∈ filled width n := by simp [hds]
    have hlt : d < 10 := lt_of_mem_filled hmem
    exact ⟨digitChar d, row ds, rfl, isDigit_digitChar hlt⟩

/-- A year is read back, from the year −9999 to the year 9999. -/
theorem scanYear_yearText {year : Int} (hmin : -9999 ≤ year) (hmax : year ≤ 9999)
    (rest : List Char) : scanYear (Instant.yearText year ++ rest) = some (year, rest) := by
  unfold Instant.yearText
  split
  · rename_i hneg
    have hread := scanFixed_padded 6 (n := year.natAbs) (by decide) (by
      have hpow : Nat.pow 10 6 = 1000000 := rfl
      omega) rest
    have hbounds : 0 < year.natAbs ∧ year.natAbs ≤ 9999 := by omega
    have hvalue : -(year.natAbs : Int) = year := by omega
    simp only [List.cons_append, scanYear, hread, Option.bind_eq_bind, Option.bind_some,
      if_pos hbounds, hvalue]
    rfl
  · rename_i hneg
    have hlt : year.natAbs < Nat.pow 10 4 := by
      have hpow : Nat.pow 10 4 = 10000 := rfl
      omega
    have hread := scanFixed_padded 4 (by decide) hlt rest
    have hvalue : (year.natAbs : Int) = year := by omega
    -- the first digit is no sign
    obtain ⟨c, cs, hcs, hc⟩ := exists_padded_cons 4 (by decide) hlt
    rw [hcs, List.cons_append] at hread ⊢
    unfold scanYear
    split
    · rename_i heq
      rw [(List.cons.inj heq).1] at hc
      exact absurd hc (by decide)
    · rename_i heq
      rw [(List.cons.inj heq).1] at hc
      exact absurd hc (by decide)
    · simp only [hread, Option.bind_eq_bind, Option.bind_some, hvalue]
      rfl

/-- A date of the calendar is read back. -/
theorem scanDate_text {d : Date} (hvalid : d.isValid = true) (hmin : -9999 ≤ d.year)
    (hmax : d.year ≤ 9999) (rest : List Char) :
    scanDate (Instant.yearText d.year ++ (Instant.monthDayText d ++ rest)) = some (d, rest) := by
  have hbounds := hvalid
  simp only [Date.isValid, Bool.and_eq_true, decide_eq_true_eq] at hbounds
  obtain ⟨⟨⟨hmonth, hmonth'⟩, hday⟩, hdays⟩ := hbounds
  have hday' : d.day ≤ 31 := by
    refine Nat.le_trans hdays ?_
    unfold daysInMonth
    split_ifs <;> decide
  have hyear := scanYear_yearText hmin hmax (Instant.monthDayText d ++ rest)
  have hm := scanBetween_padded 1 12 hmonth hmonth' (by omega) ('-' :: (padded 2 d.day ++ rest))
  have hd := scanBetween_padded 1 31 hday hday' (by omega) rest
  have hhyphen : ∀ cs, scanHyphen true ('-' :: cs) = some cs := fun _ => rfl
  have htext : Instant.monthDayText d ++ rest =
      '-' :: (padded 2 d.month ++ '-' :: (padded 2 d.day ++ rest)) := by
    simp [Instant.monthDayText]
  rw [htext] at hyear ⊢
  simp only [scanDate, hyear, Option.bind_eq_bind, Option.bind_some, List.head?_cons, decide_true,
    hhyphen, hm, hd, if_pos hvalid]
  rfl

/-! ## The digits of a second -/

/-- A row of digits without zeros at its end. -/
def trimmed (ds : List Nat) : List Nat := (ds.reverse.dropWhile (· == 0)).reverse

theorem dropWhile_row {ds : List Nat} (h : ∀ d ∈ ds, d < 10) :
    (row ds).dropWhile (· == '0') = row (ds.dropWhile (· == 0)) := by
  induction ds with
  | nil => rfl
  | cons d ds ih =>
    obtain ⟨hd, hds⟩ := List.forall_mem_cons.1 h
    have hrow : row (d :: ds) = digitChar d :: row ds := rfl
    have hzero := digitChar_eq_zero hd
    rw [hrow]
    by_cases h0 : d = 0
    · rw [List.dropWhile_cons_of_pos (by simpa using hzero.2 h0),
        List.dropWhile_cons_of_pos (by simpa using h0), ih hds]
    · rw [List.dropWhile_cons_of_neg (by simpa using mt hzero.1 h0),
        List.dropWhile_cons_of_neg (by simpa using h0)]
      rfl

theorem row_trimmed {ds : List Nat} (h : ∀ d ∈ ds, d < 10) :
    ((row ds).reverse.dropWhile (· == '0')).reverse = row (trimmed ds) := by
  have hreverse : (row ds).reverse = row ds.reverse := List.map_reverse.symm
  rw [hreverse, dropWhile_row fun d hd => h d (List.mem_reverse.1 hd), row, ← List.map_reverse]
  rfl

/-- Only zeros are taken. -/
theorem exists_trimmed_append (ds : List Nat) : ∃ k, ds = trimmed ds ++ List.replicate k 0 := by
  have hzeros : ∀ d ∈ (ds.reverse.takeWhile (· == 0)).reverse, d = 0 := by
    intro d hd
    simpa using List.mem_takeWhile_imp (List.mem_reverse.1 hd)
  refine ⟨(ds.reverse.takeWhile (· == 0)).reverse.length, ?_⟩
  rw [← List.eq_replicate_of_mem hzeros, trimmed, ← List.reverse_append,
    List.takeWhile_append_dropWhile, List.reverse_reverse]

/-- The digits behind the point are read back, and what they are multiplied by makes up for the
zeros that were taken. -/
theorem scanFraction_row {es : List Nat} (hlt : ∀ d ∈ es, d < 10) (hne : es ≠ [])
    (hlength : es.length ≤ 9) {c : Char} (hc : isDigit c = false) (rest : List Char) :
    scanFraction ('.' :: (row es ++ c :: rest)) =
      some (ofDigits 10 es * Nat.pow 10 (9 - es.length), c :: rest) := by
  have hrow : (row es).length = es.length := List.length_map _
  -- nine characters are looked at: all the digits, and what follows them if there are fewer
  have htake : (row es ++ c :: rest).take 9 = row es ++ (c :: rest).take (9 - es.length) := by
    rw [List.take_append, hrow, List.take_of_length_le (by rw [hrow]; exact hlength)]
  have hstop : ∀ d ∈ ((c :: rest).take (9 - es.length)).head?, isDigit d = false := by
    cases 9 - es.length with
    | zero => exact nofun
    | succ n =>
      intro d hd
      obtain rfl : c = d := by simpa using hd
      exact hc
  have hdigits : (((row es ++ c :: rest).take 9).takeWhile isDigit).filterMap digit? = es := by
    rw [htake, (takeWhile_row hlt hstop).1, filterMap_row hlt]
  have hdrop : (row es ++ c :: rest).drop es.length = c :: rest := by
    rw [← hrow]
    exact List.drop_left
  have hnonempty : ¬ es.isEmpty = true := by simpa using hne
  rw [scanFraction, if_pos (Or.inl rfl), hdigits]
  simp only [if_neg hnonempty, hdrop]

theorem scanFraction_fractionText {nanos : Nat} (h : nanos < nanosPerSecond) (rest : List Char) :
    scanFraction (Instant.fractionText nanos ++ 'Z' :: rest) = some (nanos, 'Z' :: rest) := by
  unfold Instant.fractionText
  split
  · rename_i hzero
    rw [hzero]
    rfl
  · rename_i hpos
    have hlt : ∀ d ∈ filled 9 nanos, d < 10 := fun d => lt_of_mem_filled
    obtain ⟨k, hk⟩ := exists_trimmed_append (filled 9 nanos)
    -- the zeros that were taken are a power of ten, by which the value is multiplied again
    have hvalue : ofDigits 10 (trimmed (filled 9 nanos)) * Nat.pow 10 k = nanos := by
      rw [← ofDigits_append_replicate, ← hk, ofDigits_filled]
    have hlength : (trimmed (filled 9 nanos)).length + k = 9 := by
      have hfilled : (filled 9 nanos).length = 9 := length_filled (by decide) h
      rw [hk, List.length_append, List.length_replicate] at hfilled
      exact hfilled
    have hne : trimmed (filled 9 nanos) ≠ [] := by
      intro hnil
      rw [hnil] at hvalue
      exact hpos (by rw [← hvalue]; exact Nat.zero_mul _)
    have hdigit : ∀ d ∈ trimmed (filled 9 nanos), d < 10 := by
      intro d hd
      apply hlt d
      rw [hk]
      exact List.mem_append_left _ hd
    have hread := scanFraction_row hdigit hne (by omega) (c := 'Z') rfl rest
    have hplaces : 9 - (trimmed (filled 9 nanos)).length = k := by omega
    rw [hplaces, hvalue] at hread
    rw [padded_eq, row_trimmed hlt]
    exact hread

/-! ## The time of day -/

theorem scanTime_text {second nanos : Nat} (hsecond : second < secondsPerDay)
    (hnanos : nanos < nanosPerSecond) (rest : List Char) :
    scanTime (Instant.clockText second ++ (Instant.fractionText nanos ++ 'Z' :: rest)) =
      some (⟨second / 3600, second / 60 % 60, second % 60, nanos⟩, 'Z' :: rest) := by
  have hday : second < 86400 := hsecond
  have hhour := scanBetween_padded 0 23 (n := second / 3600) (Nat.zero_le _)
    (by omega) (by omega) (':' :: (padded 2 (second / 60 % 60) ++ ':' :: (padded 2 (second % 60) ++
      (Instant.fractionText nanos ++ 'Z' :: rest))))
  have hminute := scanBetween_padded 0 59 (n := second / 60 % 60)
    (Nat.zero_le _) (by omega) (by omega)
    (':' :: (padded 2 (second % 60) ++ (Instant.fractionText nanos ++ 'Z' :: rest)))
  have hrest := scanBetween_padded 0 60 (n := second % 60) (Nat.zero_le _)
    (by omega) (by omega) (Instant.fractionText nanos ++ 'Z' :: rest)
  have hfraction := scanFraction_fractionText hnanos rest
  have hnext : ∀ cs, nextPart true (':' :: cs) = some cs := fun _ => rfl
  have hmin : min (second % 60) 59 = second % 60 := by omega
  have htext : Instant.clockText second ++ (Instant.fractionText nanos ++ 'Z' :: rest) =
      padded 2 (second / 3600) ++ ':' :: (padded 2 (second / 60 % 60) ++
        ':' :: (padded 2 (second % 60) ++ (Instant.fractionText nanos ++ 'Z' :: rest))) := by
    simp [Instant.clockText]
  rw [htext]
  simp only [scanTime, scanParts, hhour, Option.bind_eq_bind, Option.bind_some, List.head?_cons,
    decide_true, hnext, hminute, hrest, hfraction, Option.pure_def, hmin]

/-! ## All parts together -/

namespace Instant

/-- The parts of an instant say that instant. -/
theorem nanos_eq (t : Instant) :
    (t.floorSecond / secondsPerDay * secondsPerDay + t.secondOfDay) * nanosPerSecond + t.fraction =
      t.nanos := by
  simp only [secondOfDay, floorSecond, fraction, nanosPerSecond, secondsPerDay]
  omega

/-- The instant that the exact form of an instant stands for is that instant. -/
theorem ofText?_text (t : Instant) : ofText? t.text = some t := by
  -- the bounds as numbers, for `omega`
  have hmin : -377705023201 * 1000000000 ≤ t.nanos := t.min_le
  have hmax : t.nanos ≤ 253402207200 * 1000000000 + 999999999 := t.le_max
  have hyear : -9999 ≤ t.date.year ∧ t.date.year ≤ 9999 := by
    refine year_ofDays_bounds ?_ ?_
    · simp only [floorSecond, nanosPerSecond, secondsPerDay]
      omega
    · simp only [floorSecond, nanosPerSecond, secondsPerDay]
      omega
  have hsecond : t.secondOfDay < secondsPerDay := by
    simp only [secondOfDay, secondsPerDay]
    omega
  have hnanos : t.fraction < nanosPerSecond := by
    simp only [fraction, nanosPerSecond]
    omega
  have hdate := scanDate_text (isValid_ofDays (t.floorSecond / secondsPerDay)) hyear.1 hyear.2
    ('T' :: (clockText t.secondOfDay ++ (fractionText t.fraction ++ ['Z'])))
  have htime := scanTime_text hsecond hnanos []
  have htext : t.chars = yearText t.date.year ++ (monthDayText t.date ++
      'T' :: (clockText t.secondOfDay ++ (fractionText t.fraction ++ ['Z']))) := by
    simp [chars]
  have hseconds : ((Parts.mk (t.secondOfDay / 3600) (t.secondOfDay / 60 % 60) (t.secondOfDay % 60)
      t.fraction).seconds : Int) = t.secondOfDay := by
    simp only [Parts.seconds]
    omega
  rw [ofText?, text, String.toList_ofList, ofChars?, htext]
  simp only [date] at hdate htime ⊢
  simp only [hdate, Option.bind_eq_bind, Option.bind_some, htime]
  have hoffset : scanOffset ['Z'] = some (0, []) := rfl
  have hzone : skipZone [] = some [] := rfl
  have hannotations : skipAnnotations (([] : List Char).length + 1) [] = some [] := rfl
  rw [if_pos (Or.inl trivial), hoffset, Option.bind_some, hzone, Option.bind_some, hannotations,
    Option.bind_some, if_pos List.isEmpty_nil, toDays_ofDays, hseconds]
  simp only [Int.sub_zero, nanos_eq]
  exact dif_pos ⟨t.min_le, t.le_max⟩

end Instant

end Depot.Time
