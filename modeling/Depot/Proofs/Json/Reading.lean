import Depot.Proofs.Decimal
import Depot.Proofs.Json.Layout

/-!
# A document is read back as it was written

A string, a number or a whole value that was written, in whatever layout, is read back from the
front of a text, and what follows it is left (`scanString_escape`, `scanNumber_text`,
`readValue_write`). Numbers have to be integers of 64 bits, and arrays and objects must not lie too
deep in one another (`Value.Plain`); what follows must not go on with a number (`Stops`).
-/

set_option autoImplicit false

namespace Depot.Json

/-! ## Space -/

theorem skipSpace_append {gap : List Char} (h : ∀ c ∈ gap, isSpace c = true) (cs : List Char) :
    skipSpace (gap ++ cs) = skipSpace cs := List.dropWhile_append_of_pos h

theorem skipSpace_cons {c : Char} (h : isSpace c = false) (cs : List Char) :
    skipSpace (c :: cs) = c :: cs := List.dropWhile_cons_of_neg (by simp [h])

theorem scanColon_cons (cs : List Char) : scanColon (':' :: cs) = .ok cs := rfl

/-! ## Strings -/

/-- A control character is written as its code. -/
theorem scanCode_control {c : Char} (h : c.toNat < 32) (rest : List Char) :
    scanCode ('0' :: '0' :: Decimal.digitChar (c.toNat / 16) ::
      Decimal.digitChar (c.toNat % 16) :: rest) = .ok (c, rest) := by
  have hhigh := Decimal.hexDigit?_digitChar (d := c.toNat / 16) (by omega)
  have hlow := Decimal.hexDigit?_digitChar (d := c.toNat % 16) (by omega)
  have hzero : Decimal.hexDigit? '0' = some 0 := rfl
  have hcode : hexCode? ('0' :: '0' :: Decimal.digitChar (c.toNat / 16) ::
      Decimal.digitChar (c.toNat % 16) :: rest) = some (c.toNat, rest) := by
    have hsum : ((0 * 16 + 0) * 16 + c.toNat / 16) * 16 + c.toNat % 16 = c.toNat := by omega
    simp only [hexCode?, hzero, hhigh, hlow, hsum]
  have hnotLow : isLowSurrogate c.toNat = false := by
    simp only [isLowSurrogate, Bool.and_eq_false_iff, decide_eq_false_iff_not]
    omega
  have hnotHigh : isHighSurrogate c.toNat = false := by
    simp only [isHighSurrogate, Bool.and_eq_false_iff, decide_eq_false_iff_not]
    omega
  simp only [scanCode, scanHex, hcode, bind, Except.bind]
  rw [if_neg (by simp [hnotLow]), if_neg (by simp [hnotHigh])]
  simp [pure, Except.pure]

theorem scanChar_escapeChar (c : Char) (rest : List Char) :
    scanChar (escapeChar c ++ rest) = .ok (some c, rest) := by
  unfold escapeChar
  split_ifs with h₁ h₂ h₃ h₄ h₅ h₆ h₇ h₈
  · rw [h₁]
    rfl
  · rw [h₂]
    rfl
  · rw [h₃]
    rfl
  · rw [h₄]
    rfl
  · rw [h₅]
    rfl
  · rw [h₆]
    rfl
  · rw [h₇]
    rfl
  · -- a control character that has no short escape
    have hcode := scanCode_control h₈ rest
    simp only [List.cons_append, List.nil_append, scanChar, hcode]
    rfl
  · -- everything else stands for itself
    simp only [List.cons_append, List.nil_append]
    unfold scanChar
    split <;> simp_all

theorem scanChars_escape {fuel : Nat} (cs rest : List Char) (h : (escape cs).length < fuel) :
    scanChars fuel (escape cs ++ '"' :: rest) = .ok (cs, rest) := by
  induction cs generalizing fuel with
  | nil =>
    cases fuel with
    | zero => exact absurd h (Nat.not_lt_zero _)
    | succ fuel => rfl
  | cons c cs ih =>
    have hcons : escape (c :: cs) = escapeChar c ++ escape cs := rfl
    have hpos : 0 < (escapeChar c).length := by
      unfold escapeChar
      split_ifs <;> exact Nat.succ_pos _
    rw [hcons, List.length_append] at h
    cases fuel with
    | zero => exact absurd h (Nat.not_lt_zero _)
    | succ fuel =>
      rw [hcons, List.append_assoc]
      simp only [scanChars, scanChar_escapeChar]
      rw [ih (by omega)]
      rfl

/-- A string is read back, behind its opening quote. -/
theorem scanString_escape (s : String) (rest : List Char) :
    scanString (escape s.toList ++ '"' :: rest) = .ok (s, rest) := by
  have hread : scanChars ((escape s.toList ++ '"' :: rest).length + 1)
      (escape s.toList ++ '"' :: rest) = .ok (s.toList, rest) := by
    apply scanChars_escape
    rw [List.length_append]
    omega
  rw [scanString, hread]
  simp [Except.map]

/-! ## Numbers -/

/-- What may follow a number: anything that does not go on with it. -/
def Stops (rest : List Char) : Prop :=
  ∀ c ∈ rest.head?, Decimal.isDigit c = false ∧ c ≠ '.' ∧ c ≠ 'e' ∧ c ≠ 'E'

theorem stops_nil : Stops [] := nofun

theorem stops_cons {c : Char} (h : isSpace c = true ∨ c = ',' ∨ c = ']' ∨ c = '}')
    (rest : List Char) : Stops (c :: rest) := by
  intro d hd
  obtain rfl : c = d := by simpa using hd
  rcases h with h | rfl | rfl | rfl
  · simp only [isSpace, Bool.or_eq_true, beq_iff_eq] at h
    rcases h with ((rfl | rfl) | rfl) | rfl <;> decide
  · decide
  · decide
  · decide

/-- Digits whose value is kept exactly are all taken. -/
theorem significand_eq (n : Nat) (ds : List Nat)
    (h : ds.foldl (fun n d => n * 10 + d) n ≤ maxInteger) :
    significand n ds = (ds.foldl (fun n d => n * 10 + d) n, 0) := by
  induction ds generalizing n with
  | nil => rfl
  | cons d ds ih =>
    have hmono : ∀ (es : List Nat) (m : Nat), m ≤ es.foldl (fun n d => n * 10 + d) m := by
      intro es
      induction es with
      | nil => exact Nat.le_refl
      | cons e es ih =>
        intro m
        have hstep := ih (m * 10 + e)
        rw [List.foldl_cons]
        omega
    rw [List.foldl_cons] at h ⊢
    have hle := Nat.le_trans (hmono ds (n * 10 + d)) h
    rw [significand, if_pos hle, ih _ h]

/-- What follows the digits of an integer that is kept exactly. -/
theorem scanTail_integer {negative : Bool} {n : Nat} {value : Int} {ds : List Nat}
    {rest : List Char} (hds : Decimal.ofDigits 10 ds = n) (hn : n ≤ maxInteger)
    (hvalue : if negative then 0 < n ∧ n ≤ Nat.pow 2 63 ∧ value = -n else value = n)
    (hrest : Stops rest) : scanTail negative ds rest = .ok (.integer value, rest) := by
  have hsignificand : significand 0 ds = (n, 0) := by
    have h := significand_eq 0 ds (by rw [← hds] at hn; exact hn)
    rw [h, ← hds]
    rfl
  unfold scanTail
  rw [hsignificand]
  dsimp only
  split
  · exact absurd rfl (hrest _ rfl).2.1
  · exact absurd rfl (hrest _ rfl).2.2.1
  · exact absurd rfl (hrest _ rfl).2.2.2
  · cases negative with
    | false =>
      have hvalue : value = n := hvalue
      rw [hvalue]
      rfl
    | true =>
      obtain ⟨hpos, hmax, hvalue⟩ : 0 < n ∧ n ≤ Nat.pow 2 63 ∧ value = -n := hvalue
      rw [if_neg (by decide), if_neg (by decide), if_pos ⟨hpos, hmax⟩, hvalue]

/-- An integer is read back, behind its sign. -/
theorem scanNumber_text (negative : Bool) {n : Nat} (value : Int) {rest : List Char}
    (hn : n ≤ maxInteger)
    (hvalue : if negative then 0 < n ∧ n ≤ Nat.pow 2 63 ∧ value = -n else value = n)
    (hrest : Stops rest) :
    scanNumber negative (Decimal.text n ++ rest) = .ok (.integer value, rest) := by
  have hdigit : ∀ c ∈ rest.head?, Decimal.isDigit c = false := fun c hc => (hrest c hc).1
  obtain ⟨htake, hdrop⟩ := Decimal.takeWhile_text n hdigit
  obtain ⟨c, cs, htext, hc, hzero⟩ := Decimal.exists_text_cons n
  by_cases h0 : c = '0'
  · -- zero is a single digit
    obtain rfl := hzero.1 h0
    have hread : scanTail negative [0] rest = .ok (.integer value, rest) :=
      scanTail_integer rfl hn hvalue hrest
    have htext0 : Decimal.text 0 ++ rest = '0' :: rest := rfl
    rw [htext0]
    cases rest with
    | nil => exact hread
    | cons d rest =>
      have hd : Decimal.isDigit d = false := hdigit d rfl
      simp only [scanNumber, hd]
      exact hread
  · have hspan : spanDigits (c :: (cs ++ rest)) = (Decimal.digits n, rest) := by
      have hsplit : c :: (cs ++ rest) = Decimal.text n ++ rest := by rw [htext]; rfl
      rw [hsplit, spanDigits, htake, hdrop]
    rw [htext, List.cons_append]
    simp only [scanNumber, h0, hc, if_false, if_true, hspan]
    exact scanTail_integer (Decimal.ofDigits_digits n) hn hvalue hrest

/-! ## Values -/

mutual

/-- A value that can be read back: its numbers are integers of 64 bits, and its arrays and objects
have less than `depth` levels. -/
def Value.Plain (depth : Nat) : Value → Prop
  | .number (.integer n) => -(Nat.pow 2 63 : Int) ≤ n ∧ n ≤ maxInteger
  | .number (.real _) => False
  | .array items => 1 < depth ∧ Value.PlainItems (depth - 1) items
  | .object members => 1 < depth ∧ Value.PlainMembers (depth - 1) members
  | _ => True

/-- All items can be read back. -/
def Value.PlainItems (depth : Nat) : List Value → Prop
  | [] => True
  | v :: rest => v.Plain depth ∧ Value.PlainItems depth rest

/-- The values of all members can be read back. -/
def Value.PlainMembers (depth : Nat) : List (String × Value) → Prop
  | [] => True
  | (_, v) :: rest => v.Plain depth ∧ Value.PlainMembers depth rest

end

/-- A character with which a value may begin. -/
structure Leads (c : Char) : Prop where
  notSpace : isSpace c = false
  notEnd : c ≠ ']'

theorem leads_of_isDigit {c : Char} (h : Decimal.isDigit c = true) : Leads c := by
  constructor
  · by_contra hspace
    simp only [isSpace, Bool.not_eq_false, Bool.or_eq_true, beq_iff_eq] at hspace
    rcases hspace with ((rfl | rfl) | rfl) | rfl <;> exact absurd h (by decide)
  · rintro rfl
    exact absurd h (by decide)

/-- The text of an integer begins with a digit or a minus sign. -/
theorem exists_intText_cons (n : Int) :
    ∃ c cs, Decimal.intText n = c :: cs ∧ Leads c ∧ c ≠ '[' ∧ c ≠ '{' := by
  cases n with
  | ofNat n =>
    obtain ⟨c, cs, htext, hc, -⟩ := Decimal.exists_text_cons n
    refine ⟨c, cs, htext, leads_of_isDigit hc, ?_, ?_⟩
    · rintro rfl
      exact absurd hc (by decide)
    · rintro rfl
      exact absurd hc (by decide)
  | negSucc n => exact ⟨'-', _, rfl, ⟨rfl, by decide⟩, by decide, by decide⟩

theorem exists_write_cons (L : Layout) (level : Nat) {depth : Nat} {v : Value}
    (h : v.Plain depth) : ∃ c cs, v.write L level = c :: cs ∧ Leads c := by
  cases v with
  | null => exact ⟨'n', _, rfl, ⟨rfl, by decide⟩⟩
  | bool b =>
    cases b with
    | true => exact ⟨'t', _, rfl, ⟨rfl, by decide⟩⟩
    | false => exact ⟨'f', _, rfl, ⟨rfl, by decide⟩⟩
  | number n =>
    cases n with
    | integer n =>
      obtain ⟨c, cs, htext, hc, -⟩ := exists_intText_cons n
      exact ⟨c, cs, htext, hc⟩
    | real bits => exact absurd h id
  | string s => exact ⟨'"', _, rfl, ⟨rfl, by decide⟩⟩
  | array items => exact ⟨'[', _, rfl, ⟨rfl, by decide⟩⟩
  | object members => exact ⟨'{', _, rfl, ⟨rfl, by decide⟩⟩

/-! ## Between the items -/

section Between

variable (L : Layout) (level : Nat)

theorem stops_gap {rest : List Char} (h : Stops rest) : Stops (L.gap level ++ rest) := by
  cases hgap : L.gap level with
  | nil => exact h
  | cons c cs => exact stops_cons (Or.inl (L.isSpace_gap level c (by simp [hgap]))) _

theorem stops_items (items : List Value) (rest : List Char) :
    Stops (Value.writeItems L level false items ++ ']' :: rest) := by
  cases items with
  | nil =>
    rw [Value.writeItems, if_neg (by decide)]
    exact stops_gap L level (stops_cons (by decide) rest)
  | cons v items =>
    rw [Value.writeItems]
    exact stops_cons (by decide) _

theorem stops_members (members : List (String × Value)) (rest : List Char) :
    Stops (Value.writeMembers L level false members ++ '}' :: rest) := by
  cases members with
  | nil =>
    rw [Value.writeMembers, if_neg (by decide)]
    exact stops_gap L level (stops_cons (by decide) rest)
  | cons m members =>
    obtain ⟨name, v⟩ := m
    rw [Value.writeMembers]
    exact stops_cons (by decide) _

theorem nextItem_done (first : Bool) (rest : List Char) :
    nextItem first (Value.writeItems L level first [] ++ ']' :: rest) =
      .ok (.done, ']' :: rest) := by
  have hspace : ∀ c ∈ Value.writeItems L level first [], isSpace c = true := by
    cases first with
    | true => exact fun c hc => absurd hc List.not_mem_nil
    | false => exact L.isSpace_gap level
  rw [nextItem, skipSpace_append hspace]
  rfl

theorem nextItem_more (first : Bool) {c : Char} (h : Leads c) (cs : List Char) :
    nextItem first (comma first ++ (L.gap level ++ c :: cs)) = .ok (.more, c :: cs) := by
  have hskip : skipSpace (L.gap level ++ c :: cs) = c :: cs := by
    rw [skipSpace_append (L.isSpace_gap level), skipSpace_cons h.notSpace]
  cases first with
  | true =>
    have hfirst : comma true ++ (L.gap level ++ c :: cs) = L.gap level ++ c :: cs := rfl
    rw [hfirst, nextItem, hskip]
    split
    · rename_i heq
      cases heq
    · rename_i heq
      exact absurd (List.cons.inj heq).1 h.notEnd
    · rename_i heq
      obtain ⟨rfl, rfl⟩ := List.cons.inj heq
      rfl
  | false =>
    have hcomma : skipSpace (comma false ++ (L.gap level ++ c :: cs)) =
        ',' :: (L.gap level ++ c :: cs) := rfl
    rw [nextItem, hcomma]
    split
    · rename_i heq
      cases heq
    · rename_i heq
      cases heq
    · rename_i heq
      obtain ⟨rfl, rfl⟩ := List.cons.inj heq
      rw [if_neg (by decide), if_pos rfl, hskip]
      split
      · rename_i heq
        cases heq
      · rename_i heq
        exact absurd (List.cons.inj heq).1 h.notEnd
      · rfl

theorem nextMember_done (first : Bool) (rest : List Char) :
    nextMember first (Value.writeMembers L level first [] ++ '}' :: rest) =
      .ok (.done, '}' :: rest) := by
  have hspace : ∀ c ∈ Value.writeMembers L level first [], isSpace c = true := by
    cases first with
    | true => exact fun c hc => absurd hc List.not_mem_nil
    | false => exact L.isSpace_gap level
  rw [nextMember, skipSpace_append hspace]
  rfl

theorem nextMember_more (first : Bool) (cs : List Char) :
    nextMember first (comma first ++ (L.gap level ++ '"' :: cs)) = .ok (.more, cs) := by
  have hskip : skipSpace (L.gap level ++ '"' :: cs) = '"' :: cs := by
    rw [skipSpace_append (L.isSpace_gap level)]
    rfl
  cases first with
  | true =>
    have hfirst : comma true ++ (L.gap level ++ '"' :: cs) = L.gap level ++ '"' :: cs := rfl
    rw [hfirst, nextMember, hskip]
    rfl
  | false =>
    have hcomma : skipSpace (comma false ++ (L.gap level ++ '"' :: cs)) =
        ',' :: (L.gap level ++ '"' :: cs) := rfl
    rw [nextMember, hcomma]
    split
    · rename_i heq
      cases heq
    · rename_i heq
      cases heq
    · rename_i heq
      obtain ⟨rfl, rfl⟩ := List.cons.inj heq
      rw [if_neg (by decide), if_pos rfl, hskip]
      rfl

end Between

/-! ## Whole values -/

/-- What is no array and no object is read as such. -/
theorem readValue_scalar {fuel depth : Nat} {pre : List Char} (hpre : ∀ c ∈ pre, isSpace c = true)
    {c : Char} (hc : Leads c) (harray : c ≠ '[') (hobject : c ≠ '{') (cs : List Char) :
    readValue (fuel + 1) depth (pre ++ c :: cs) = scanScalar (c :: cs) := by
  rw [readValue, skipSpace_append hpre, skipSpace_cons hc.notSpace]
  split
  · rename_i heq
    exact absurd (List.cons.inj heq).1 harray
  · rename_i heq
    exact absurd (List.cons.inj heq).1 hobject
  · rfl

theorem scanScalar_digit {c : Char} (h : Decimal.isDigit c = true) (cs : List Char) :
    scanScalar (c :: cs) = (scanNumber false (c :: cs)).map fun (n, rest) => (.number n, rest) := by
  have hne : ∀ d, Decimal.isDigit d = false → c ≠ d := by
    rintro d hd rfl
    simp [h] at hd
  rw [scanScalar, if_neg (hne '"' rfl), if_neg (hne 'n' rfl), if_neg (hne 't' rfl),
    if_neg (hne 'f' rfl), if_neg (hne '-' rfl), if_pos h]

/-- An integer is read back as a value. -/
theorem scanScalar_integer {n : Int} (h : -(Nat.pow 2 63 : Int) ≤ n ∧ n ≤ maxInteger)
    {rest : List Char} (hrest : Stops rest) :
    scanScalar (Decimal.intText n ++ rest) = .ok (.number (.integer n), rest) := by
  obtain ⟨hmin, hmax⟩ := h
  cases n with
  | ofNat n =>
    obtain ⟨c, cs, htext, hc, -⟩ := Decimal.exists_text_cons n
    have hread := scanNumber_text false n (Int.ofNat_le.1 hmax) rfl hrest
    rw [htext, List.cons_append] at hread
    rw [Decimal.intText, htext, List.cons_append, scanScalar_digit hc, hread]
    rfl
  | negSucc n =>
    have hpow : Nat.pow 2 63 ≤ maxInteger := by decide
    have hle : n + 1 ≤ Nat.pow 2 63 := by
      rw [Int.negSucc_eq] at hmin
      omega
    have hread := scanNumber_text true (Int.negSucc n) (Nat.le_trans hle hpow)
      ⟨Nat.succ_pos n, hle, rfl⟩ hrest
    rw [Decimal.intText, List.cons_append, scanScalar, if_neg (by decide), if_neg (by decide),
      if_neg (by decide), if_neg (by decide), if_pos rfl, hread]
    rfl

section Write

variable (L : Layout) (level : Nat)

/-- What is written of a string, in front of what follows. -/
theorem write_string (text : String) (rest : List Char) :
    (Value.string text).write L level ++ rest =
      '"' :: (escape text.toList ++ '"' :: rest) := by
  simp [Value.write, quote]

/-- What is written of an object, in front of what follows. -/
theorem write_object (members : List (String × Value)) (rest : List Char) :
    (Value.object members).write L level ++ rest =
      '{' :: (Value.writeMembers L level true members ++ '}' :: rest) := by
  simp [Value.write]

/-- What is written of a member, in front of the others and of the closing bracket. -/
theorem writeMembers_cons (first : Bool) (name : String) (v : Value)
    (members : List (String × Value)) (rest : List Char) :
    Value.writeMembers L level first ((name, v) :: members) ++ '}' :: rest =
      comma first ++ (L.gap (level + 1) ++ '"' :: (escape name.toList ++ '"' :: ':' :: (L.lead ++
        (v.write L (level + 1) ++
          (Value.writeMembers L level false members ++ '}' :: rest))))) := by
  simp [Value.writeMembers, quote]

end Write

mutual

/-- A value is read back, whatever space is in front of it. -/
theorem readValue_write (L : Layout) : ∀ (v : Value) {level fuel depth : Nat}
    {pre rest : List Char}, (∀ c ∈ pre, isSpace c = true) → v.Plain depth →
    (v.write L level).length ≤ fuel → Stops rest →
    readValue fuel depth (pre ++ (v.write L level ++ rest)) = .ok (v, rest)
  | v, level, 0, depth, pre, rest, _, hv, hfuel, _ => by
    obtain ⟨c, cs, hcs, -⟩ := exists_write_cons L level hv
    rw [hcs] at hfuel
    exact absurd hfuel (Nat.not_succ_le_zero _)
  | .null, _, _ + 1, _, _, _, hpre, _, _, _ =>
    readValue_scalar hpre (c := 'n') ⟨rfl, by decide⟩ (by decide) (by decide) _
  | .bool true, _, _ + 1, _, _, _, hpre, _, _, _ =>
    readValue_scalar hpre (c := 't') ⟨rfl, by decide⟩ (by decide) (by decide) _
  | .bool false, _, _ + 1, _, _, _, hpre, _, _, _ =>
    readValue_scalar hpre (c := 'f') ⟨rfl, by decide⟩ (by decide) (by decide) _
  | .number (.integer n), level, fuel + 1, depth, pre, rest, hpre, hv, _, hrest => by
    have hread := scanScalar_integer hv hrest
    obtain ⟨c, cs, hcs, hc, harray, hobject⟩ := exists_intText_cons n
    have hwrite : (Value.number (.integer n)).write L level ++ rest = c :: (cs ++ rest) := by
      rw [Value.write, Number.text, hcs, List.cons_append]
    rw [hcs, List.cons_append] at hread
    rw [hwrite, readValue_scalar hpre hc harray hobject, hread]
  | .number (.real _), _, _ + 1, _, _, _, _, hv, _, _ => absurd hv id
  | .string s, level, fuel + 1, depth, pre, rest, hpre, _, _, _ => by
    rw [write_string, readValue_scalar hpre ⟨rfl, by decide⟩ (by decide) (by decide), scanScalar,
      if_pos rfl, scanString_escape]
    rfl
  | .array items, level, fuel + 1, depth, pre, rest, hpre, hv, hfuel, _ => by
    obtain ⟨hdepth, hitems⟩ : 1 < depth ∧ Value.PlainItems (depth - 1) items := hv
    have hwrite : (Value.array items).write L level ++ rest =
        '[' :: (Value.writeItems L level true items ++ ']' :: rest) := by
      simp [Value.write]
    have hread : readItems fuel (depth - 1) true
        (Value.writeItems L level true items ++ ']' :: rest) = .ok (items, ']' :: rest) := by
      apply readItems_write L items hitems
      rw [Value.write, List.length_cons, List.length_append] at hfuel
      exact Nat.le_of_succ_le_succ hfuel
    rw [hwrite, readValue, skipSpace_append hpre, skipSpace_cons rfl]
    simp only [if_neg (Nat.not_le.2 hdepth), hread]
    rfl
  | .object members, level, fuel + 1, depth, pre, rest, hpre, hv, hfuel, _ => by
    obtain ⟨hdepth, hmembers⟩ : 1 < depth ∧ Value.PlainMembers (depth - 1) members := hv
    have hread : readMembers fuel (depth - 1) true
        (Value.writeMembers L level true members ++ '}' :: rest) = .ok (members, '}' :: rest) := by
      apply readMembers_write L members hmembers
      rw [Value.write, List.length_cons, List.length_append] at hfuel
      exact Nat.le_of_succ_le_succ hfuel
    rw [write_object, readValue, skipSpace_append hpre, skipSpace_cons rfl]
    simp only [if_neg (Nat.not_le.2 hdepth), hread]
    rfl

theorem readItems_write (L : Layout) : ∀ (items : List Value) {level fuel depth : Nat}
    {first : Bool} {rest : List Char}, Value.PlainItems depth items →
    (Value.writeItems L level first items).length < fuel →
    readItems fuel depth first (Value.writeItems L level first items ++ ']' :: rest) =
      .ok (items, ']' :: rest)
  | [], level, fuel + 1, depth, first, rest, _, _ => by
    rw [readItems, nextItem_done]
    rfl
  | v :: items, level, fuel + 1, depth, first, rest, h, hfuel => by
    obtain ⟨hv, hitems⟩ : v.Plain depth ∧ Value.PlainItems depth items := h
    obtain ⟨c, cs, hcs, hc⟩ := exists_write_cons L (level + 1) hv
    have hwrite : Value.writeItems L level first (v :: items) ++ ']' :: rest =
        comma first ++ (L.gap (level + 1) ++ c :: (cs ++
          (Value.writeItems L level false items ++ ']' :: rest))) := by
      simp [Value.writeItems, hcs]
    have hpos : 0 < (v.write L (level + 1)).length := by
      rw [hcs]
      exact Nat.succ_pos _
    rw [Value.writeItems, List.length_append, List.length_append, List.length_append] at hfuel
    -- the value is read first, and then the items behind it
    have hvalue : readValue fuel depth ([] ++ (v.write L (level + 1) ++
        (Value.writeItems L level false items ++ ']' :: rest))) =
        .ok (v, Value.writeItems L level false items ++ ']' :: rest) :=
      readValue_write L v (by simp) hv (by omega) (stops_items L level items rest)
    have hrest : readItems fuel depth false (Value.writeItems L level false items ++ ']' :: rest) =
        .ok (items, ']' :: rest) := readItems_write L items hitems (by omega)
    rw [hcs, List.nil_append, List.cons_append] at hvalue
    rw [hwrite, readItems, nextItem_more L (level + 1) first hc]
    simp only [bind, Except.bind, hvalue, hrest]
    rfl

theorem readMembers_write (L : Layout) : ∀ (members : List (String × Value))
    {level fuel depth : Nat} {first : Bool} {rest : List Char}, Value.PlainMembers depth members →
    (Value.writeMembers L level first members).length < fuel →
    readMembers fuel depth first (Value.writeMembers L level first members ++ '}' :: rest) =
      .ok (members, '}' :: rest)
  | [], level, fuel + 1, depth, first, rest, _, _ => by
    rw [readMembers, nextMember_done]
    rfl
  | (name, v) :: members, level, fuel + 1, depth, first, rest, h, hfuel => by
    obtain ⟨hv, hmembers⟩ : v.Plain depth ∧ Value.PlainMembers depth members := h
    rw [Value.writeMembers] at hfuel
    simp only [List.length_append, List.length_cons] at hfuel
    have hvalue : readValue fuel depth (L.lead ++ (v.write L (level + 1) ++
        (Value.writeMembers L level false members ++ '}' :: rest))) =
        .ok (v, Value.writeMembers L level false members ++ '}' :: rest) :=
      readValue_write L v L.isSpace_lead hv (by omega) (stops_members L level members rest)
    have hrest : readMembers fuel depth false
        (Value.writeMembers L level false members ++ '}' :: rest) = .ok (members, '}' :: rest) :=
      readMembers_write L members hmembers (by omega)
    rw [writeMembers_cons, readMembers, nextMember_more L (level + 1) first]
    simp only [bind, Except.bind, scanString_escape, scanColon_cons, hvalue, hrest]
    rfl

end

/-- A value is read back from the front of a text. -/
theorem scanValue_write (L : Layout) {v : Value} {level depth : Nat} {pre rest : List Char}
    (hpre : ∀ c ∈ pre, isSpace c = true) (hv : v.Plain depth) (hrest : Stops rest) :
    scanValue depth (pre ++ (v.write L level ++ rest)) = .ok (v, rest) := by
  refine readValue_write L v hpre hv ?_ hrest
  rw [List.length_append, List.length_append]
  omega

/-- A document is read back from its text, with or without an end of line behind it. -/
theorem ofText_write (L : Layout) {v : Value} (hv : v.Plain depthLimit) {space : List Char}
    (hspace : ∀ c ∈ space, isSpace c = true) :
    Value.ofText (String.ofList (v.write L 0 ++ space)) = .ok v := by
  have hstops : Stops space := by
    cases space with
    | nil => exact stops_nil
    | cons c cs => exact stops_cons (Or.inl (hspace c List.mem_cons_self)) cs
  have hread : scanValue depthLimit ([] ++ (v.write L 0 ++ space)) = .ok (v, space) :=
    scanValue_write L (by simp) hv hstops
  have hend : endDocument space = .ok () := by
    have hskip := skipSpace_append hspace []
    rw [List.append_nil] at hskip
    rw [endDocument, hskip]
    rfl
  rw [List.nil_append] at hread
  simp only [Value.ofText, String.toList_ofList, hread, hend, bind, Except.bind]
  rfl

/-- A document is what its compact text says. -/
theorem ofText_compact {v : Value} (hv : v.Plain depthLimit) : Value.ofText v.toText = .ok v := by
  have htext : v.toText = String.ofList (v.write .compact 0 ++ []) := by
    rw [Value.toText, Value.compact_eq 0, List.append_nil]
  rw [htext]
  exact ofText_write .compact hv fun c hc => absurd hc List.not_mem_nil

/-- A document is what its indented text says, as a line. -/
theorem ofText_line {v : Value} (hv : v.Plain depthLimit) :
    Value.ofText (v.toPretty ++ "\n") = .ok v := by
  have hline : v.toPretty ++ "\n" = String.ofList (v.write .indented 0 ++ ['\n']) := by
    rw [Value.toPretty, Value.indented_eq 0, String.ofList_append]
  rw [hline]
  refine ofText_write .indented hv ?_
  intro c hc
  obtain rfl := List.mem_singleton.1 hc
  rfl

end Depot.Json
