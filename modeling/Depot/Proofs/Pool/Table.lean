import Depot.Pool.Run
import Depot.Proofs.Lookup
import Mathlib.Algebra.Order.BigOperators.Group.List
import Mathlib.Algebra.Order.Group.Nat
import Mathlib.Tactic.Abel

/-!
# The table of parties

What it does to the table that a party gets on: it goes to another phase in its place, or off the
table, which frees its slot if it held one (`after`). Sums over the parties follow such a change
party by party (`total_after`). The order of the table is kept: tickets ascend, whoever holds a slot
came before whoever stands in line, and nobody stands in line while an open pool has a free slot
(`Table`).
-/

set_option autoImplicit false

namespace Depot

/-- The number of slots that a party holds. -/
def Party.slots (x : Party) : Nat := x.holdsSlot.toNat

namespace Pool

universe u

variable {p r : Pool} {t s : Ticket} {x y : Party}

/-- The tickets of all parties. -/
def tickets (p : Pool) : List Ticket := p.parties.map (·.1)

/-- The party of a ticket gets on from `x` to another phase, or leaves and frees the slot that it
held. -/
def after (p : Pool) (t : Ticket) (x : Party) : Option Party → Pool
  | some y => p.put t y
  | none => if x.holdsSlot then (p.leave t).freeSlot else p.leave t

/-- A freed slot changes nothing but the table, the number of free slots and the news. -/
theorem freeSlot_frame (p : Pool) :
    ∃ parties free called, p.freeSlot = { p with parties, free, called } := by
  unfold freeSlot
  split
  · exact ⟨_, _, _, rfl⟩
  · exact ⟨_, _, _, rfl⟩

theorem after_frame (p : Pool) (t : Ticket) (x : Party) (next : Option Party) :
    ∃ parties free called, p.after t x next = { p with parties, free, called } := by
  unfold after
  split
  · exact ⟨_, _, _, rfl⟩
  · split
    · exact (p.leave t).freeSlot_frame
    · exact ⟨_, _, _, rfl⟩

section Frame

variable (p : Pool) (t : Ticket) (x : Party) (next : Option Party)

@[simp] theorem after_idle : (p.after t x next).idle = p.idle := by
  obtain ⟨_, _, _, e⟩ := p.after_frame t x next
  rw [e]

@[simp] theorem after_live : (p.after t x next).live = p.live := by
  obtain ⟨_, _, _, e⟩ := p.after_frame t x next
  rw [e]

@[simp] theorem after_closed : (p.after t x next).closed = p.closed := by
  obtain ⟨_, _, _, e⟩ := p.after_frame t x next
  rw [e]

@[simp] theorem after_nextClient : (p.after t x next).nextClient = p.nextClient := by
  obtain ⟨_, _, _, e⟩ := p.after_frame t x next
  rw [e]

@[simp] theorem after_nextTicket : (p.after t x next).nextTicket = p.nextTicket := by
  obtain ⟨_, _, _, e⟩ := p.after_frame t x next
  rw [e]

end Frame

theorem after_none (p : Pool) (t : Ticket) (x : Party) :
    p.after t x none = if x.holdsSlot then (p.leave t).freeSlot else p.leave t := rfl

/-! ## Single places -/

theorem mem_of_party? (h : p.party? t = some x) : (t, x) ∈ p.parties := mem_of_lookup h

theorem party?_eq_some_iff (hn : p.tickets.Nodup) : p.party? t = some x ↔ (t, x) ∈ p.parties := by
  refine ⟨mem_of_party?, fun h => ?_⟩
  obtain ⟨l, r, hs⟩ := List.append_of_mem h
  refine List.lookup_eq_some_iff.2 ⟨l, r, hs, fun q hq => ?_⟩
  simp only [tickets, hs, List.map_append, List.map_cons, List.nodup_append, List.mem_map,
    List.mem_cons] at hn
  have hne : q.1 ≠ t := hn.2.2 q.1 ⟨q, hq, rfl⟩ t (Or.inl rfl)
  simpa using Ne.symm hne

/-- A party has one place in the table: it changes there, and leaves from there. -/
theorem exists_split (hn : p.tickets.Nodup) (h : p.party? t = some x) :
    ∃ l r, p.parties = l ++ (t, x) :: r ∧ (∀ y, (p.put t y).parties = l ++ (t, y) :: r) ∧
      (p.leave t).parties = l ++ r := by
  obtain ⟨l, r, hs⟩ := List.append_of_mem (mem_of_party? h)
  simp only [tickets, hs, List.map_append, List.map_cons, List.nodup_append, List.nodup_cons,
    List.mem_map, List.mem_cons, not_exists, not_and] at hn
  obtain ⟨-, ⟨hr, -⟩, hl⟩ := hn
  have hl' : ∀ q ∈ l, q.1 ≠ t := fun q hq => hl q.1 ⟨q, hq, rfl⟩ t (Or.inl rfl)
  -- where nobody has the ticket, both changes do nothing
  have hput : ∀ (y : Party) (k : List (Ticket × Party)), (∀ q ∈ k, q.1 ≠ t) →
      k.map (fun q => if q.1 = t then (t, y) else q) = k := by
    intro y k hk
    conv_rhs => rw [← List.map_id' k]
    exact List.map_congr_left fun q hq => if_neg (hk q hq)
  have hleave : ∀ k : List (Ticket × Party), (∀ q ∈ k, q.1 ≠ t) →
      k.filter (fun q => q.1 ≠ t) = k := by
    intro k hk
    exact List.filter_eq_self.2 (by simpa using hk)
  refine ⟨l, r, hs, fun y => ?_, ?_⟩
  · simp [put, hs, hput y l hl', hput y r hr]
  · simp only [leave, hs, List.filter_append, List.filter_cons, hleave l hl', hleave r hr]
    simp

theorem party?_put (hn : p.tickets.Nodup) (h : p.party? t = some x) (y : Party) :
    (p.put t y).party? t = some y := by
  obtain ⟨l, r, hs, hput, -⟩ := exists_split hn h
  have ht : (p.put t y).tickets = p.tickets := by simp [tickets, hs, hput]
  have hmem : (t, y) ∈ (p.put t y).parties := by simp [hput]
  exact (party?_eq_some_iff (ht ▸ hn)).2 hmem

theorem mem_put {w : Ticket × Party} (h : w ∈ (p.put t y).parties) :
    w = (t, y) ∨ w ∈ p.parties ∧ w.1 ≠ t := by
  simp only [put, List.mem_map] at h
  obtain ⟨o, ho, rfl⟩ := h
  by_cases hot : o.1 = t
  · simp [hot]
  · simp [hot, ho]

theorem mem_leave {w : Ticket × Party} : w ∈ (p.leave t).parties ↔ w ∈ p.parties ∧ w.1 ≠ t := by
  simp [leave]

/-! ## Sums over the parties -/

section Total

variable {M : Type u} [AddCommMonoid M]

/-- The sum of what the parties amount to. -/
def total (f : Party → M) (p : Pool) : M := (p.parties.map fun q => f q.2).sum

theorem total_congr (f : Party → M) (h : r.parties = p.parties) : r.total f = p.total f := by
  rw [total, total, h]

theorem total_enter (f : Party → M) (p : Pool) (x : Party) :
    (p.enter x).total f = p.total f + f x := by
  simp [total, enter]

theorem total_put (f : Party → M) (hn : p.tickets.Nodup) (h : p.party? t = some x) (y : Party) :
    (p.put t y).total f + f x = p.total f + f y := by
  obtain ⟨l, r, hs, hput, -⟩ := exists_split hn h
  simp only [total, hs, hput, List.map_append, List.map_cons, List.sum_append, List.sum_cons]
  abel

theorem total_leave (f : Party → M) (hn : p.tickets.Nodup) (h : p.party? t = some x) :
    (p.leave t).total f + f x = p.total f := by
  obtain ⟨l, r, hs, -, hleave⟩ := exists_split hn h
  simp only [total, hs, hleave, List.map_append, List.map_cons, List.sum_append, List.sum_cons]
  abel

end Total

theorem total_add (f g : Party → Nat) (p : Pool) :
    p.total (fun x => f x + g x) = p.total f + p.total g := by
  simp only [total, List.sum_map_add]

theorem total_le {f g : Party → Nat} (h : ∀ x, f x ≤ g x) (p : Pool) : p.total f ≤ p.total g :=
  List.sum_le_sum fun q _ => h q.2

theorem countP_eq_total (f : Party → Bool) (p : Pool) :
    p.parties.countP (fun q => f q.2) = p.total fun x => (f x).toNat := by
  unfold total
  induction p.parties with
  | nil => rfl
  | cons q l ih => cases hq : f q.2 <;> simp [hq, ih, Nat.add_comm]

theorem length_flatMap_eq_total (f : Party → List Client) (p : Pool) :
    (p.parties.flatMap fun q => f q.2).length = p.total fun x => (f x).length := by
  rw [List.length_flatMap, total]

theorem count_flatMap_eq_total (f : Party → List Client) (c : Client) (p : Pool) :
    (p.parties.flatMap fun q => f q.2).count c = p.total fun x => (f x).count c := by
  rw [List.count_flatMap, total]
  rfl

/-! ## Whoever stands in line -/

theorem mem_line : t ∈ p.line ↔ ∃ x, (t, x) ∈ p.parties ∧ x.isWaiting = true := by
  simp [line]

/-- A freed slot goes to the first in line of an open pool; without one it is free. -/
theorem freeSlot_cases (p : Pool) :
    (∃ t l, p.closed = false ∧ p.line = t :: l ∧
      p.freeSlot = { p.put t .granted with called := p.called ++ [t] }) ∨
    ((p.closed = true ∨ p.line = []) ∧ p.freeSlot = { p with free := p.free + 1 }) := by
  unfold freeSlot
  split
  · rename_i t l hc hl
    exact Or.inl ⟨t, l, hc, hl, rfl⟩
  · rename_i hne
    refine Or.inr ⟨?_, rfl⟩
    cases hc : p.closed with
    | true => exact Or.inl rfl
    | false =>
      cases hl : p.line with
      | nil => exact Or.inr rfl
      | cons t l => exact absurd hl (hne t l hc)

theorem freeSlot_of_closed (hc : p.closed = true) :
    p.freeSlot = { p with free := p.free + 1 } := by
  rcases p.freeSlot_cases with ⟨t, l, hopen, -⟩ | ⟨-, e⟩
  · simp [hc] at hopen
  · exact e

/-- The first in line waits, and all others in line came later. -/
theorem line_cons (hs : p.tickets.Pairwise (· < ·)) {l : List Ticket} (h : p.line = t :: l) :
    (∃ d, p.party? t = some (.waiting d)) ∧
      ∀ q ∈ p.parties, q.2.isWaiting = true → q.1 ≠ t → t < q.1 := by
  have hn : p.tickets.Nodup := hs.imp Nat.ne_of_lt
  constructor
  · obtain ⟨x, hx, hw⟩ := mem_line.1 (h ▸ List.mem_cons_self : t ∈ p.line)
    cases x <;> simp [Party.isWaiting] at hw
    exact ⟨_, (party?_eq_some_iff hn).2 hx⟩
  · intro q hq hw hne
    have hline : p.line.Pairwise (· < ·) := hs.sublist (List.filter_sublist.map _)
    rw [h, List.pairwise_cons] at hline
    have hmem : q.1 ∈ p.line := mem_line.2 ⟨q.2, hq, hw⟩
    rw [h, List.mem_cons] at hmem
    exact hline.1 q.1 (hmem.resolve_left hne)

/-! ## The order of the table -/

/-- The order of the table. -/
structure Table (p : Pool) : Prop where
  sorted : p.tickets.Pairwise (· < ·)
  fresh : ∀ t ∈ p.tickets, t < p.nextTicket
  /-- Whoever holds a slot came before whoever stands in line. -/
  behind : ∀ q ∈ p.parties, ∀ w ∈ p.parties,
    q.2.holdsSlot = true → w.2.isWaiting = true → q.1 < w.1
  /-- Nobody stands in line while an open pool has a free slot. -/
  full : p.closed = false → 0 < p.free → ∀ q ∈ p.parties, q.2.isWaiting = false

namespace Table

theorem nodup (h : Table p) : p.tickets.Nodup := h.sorted.imp Nat.ne_of_lt

/-- A table from which parties left, or in which they went on without a slot that they had not held
and without standing in line again, is in order. -/
theorem of_subset (h : Table p) (ht : r.tickets.Sublist p.tickets)
    (hnext : r.nextTicket = p.nextTicket) (hclosed : r.closed = p.closed) (hfree : r.free = p.free)
    (hsub : ∀ q ∈ r.parties, ∃ o ∈ p.parties, o.1 = q.1 ∧
      (q.2.holdsSlot = true → o.2.holdsSlot = true) ∧
      (q.2.isWaiting = true → o.2.isWaiting = true)) : Table r where
  sorted := h.sorted.sublist ht
  fresh := fun t hr => hnext ▸ h.fresh t (ht.subset hr)
  behind := by
    intro q hq w hw hs hl
    obtain ⟨oq, hoq, eq, hqs, -⟩ := hsub q hq
    obtain ⟨ow, how, ew, -, hwl⟩ := hsub w hw
    rw [← eq, ← ew]
    exact h.behind oq hoq ow how (hqs hs) (hwl hl)
  full := by
    intro hc hf q hq
    obtain ⟨o, ho, -, -, hw⟩ := hsub q hq
    have hn := h.full (hclosed ▸ hc) (hfree ▸ hf) o ho
    simp only [hn, Bool.false_eq_true, imp_false, Bool.not_eq_true] at hw
    exact hw

/-- A table does not depend on the clients and the news. -/
theorem congr (h : Table p) (hp : r.parties = p.parties) (hnext : r.nextTicket = p.nextTicket)
    (hclosed : r.closed = p.closed) (hfree : r.free = p.free) : Table r :=
  h.of_subset (by rw [tickets, tickets, hp]) hnext hclosed hfree
    fun q hq => ⟨q, hp ▸ hq, rfl, id, id⟩

theorem put (h : Table p) (hx : p.party? t = some x) (hs : y.holdsSlot = x.holdsSlot)
    (hw : y.isWaiting = false) : Table (p.put t y) := by
  obtain ⟨l, r, hp, hput, -⟩ := exists_split h.nodup hx
  refine h.of_subset ?_ rfl rfl rfl fun q hq => ?_
  · simp [tickets, hp, hput]
  · simp only [hput, List.mem_append, List.mem_cons] at hq
    rcases hq with hq | rfl | hq
    · exact ⟨q, by simp [hp, hq], rfl, id, id⟩
    · exact ⟨(t, x), by simp [hp], rfl, by simp [hs], by simp [hw]⟩
    · exact ⟨q, by simp [hp, hq], rfl, id, id⟩

theorem leave (h : Table p) (t : Ticket) : Table (p.leave t) := by
  refine h.of_subset (List.filter_sublist.map _) rfl rfl rfl fun q hq => ?_
  exact ⟨q, (mem_leave.1 hq).1, rfl, id, id⟩

theorem freeSlot (h : Table p) : Table p.freeSlot := by
  rcases p.freeSlot_cases with ⟨t, l, hc, hl, e⟩ | ⟨hnone, e⟩
  · obtain ⟨⟨d, hd⟩, hfirst⟩ := line_cons h.sorted hl
    obtain ⟨a, b, hp, hput, -⟩ := exists_split h.nodup hd
    have ht : (p.put t .granted).tickets = p.tickets := by simp [tickets, hp, hput]
    rw [e]
    refine ⟨ht ▸ h.sorted, ht ▸ h.fresh, ?_, ?_⟩
    · -- the party that was given the slot was the first in line
      intro q hq w hw hs hwait
      rcases mem_put hw with rfl | ⟨hw', hwt⟩
      · simp [Party.isWaiting] at hwait
      rcases mem_put hq with rfl | ⟨hq', -⟩
      · exact hfirst w hw' hwait hwt
      · exact h.behind q hq' w hw' hs hwait
    · -- somebody stood in line, so no slot was free before
      intro hc' hf
      have hn := h.full hc hf (t, .waiting d) (mem_of_party? hd)
      simp [Party.isWaiting] at hn
  · rw [e]
    refine ⟨h.sorted, h.fresh, h.behind, fun hc _ q hq => ?_⟩
    have hc' : p.closed = false := hc
    rcases hnone with ht | hl
    · rw [hc'] at ht
      simp at ht
    · cases hw : q.2.isWaiting with
      | false => rfl
      | true =>
        have hmem : q.1 ∈ p.line := mem_line.2 ⟨q.2, hq, hw⟩
        simp [hl] at hmem

theorem after (h : Table p) (hx : p.party? t = some x) {next : Option Party}
    (hnext : ∀ y, next = some y → y.holdsSlot = x.holdsSlot ∧ y.isWaiting = false) :
    Table (p.after t x next) := by
  cases next with
  | some y => exact h.put hx (hnext y rfl).1 (hnext y rfl).2
  | none =>
    rw [after_none]
    split
    · exact (h.leave t).freeSlot
    · exact h.leave t

theorem enter (h : Table p) (hs : x.holdsSlot = true → ∀ q ∈ p.parties, q.2.isWaiting = false)
    (hw : x.isWaiting = true → p.closed = true ∨ p.free = 0) : Table (p.enter x) where
  sorted := by
    simp only [tickets, Pool.enter, List.map_append, List.map_cons, List.map_nil,
      List.pairwise_append, List.pairwise_singleton, List.mem_singleton, true_and]
    refine ⟨h.sorted, fun a ha b hb => ?_⟩
    exact hb ▸ h.fresh a ha
  fresh := by
    intro t ht
    simp only [tickets, Pool.enter, List.map_append, List.map_cons, List.map_nil, List.mem_append,
      List.mem_singleton] at ht
    show t < p.nextTicket + 1
    rcases ht with ht | rfl
    · exact Nat.lt_succ_of_lt (h.fresh t ht)
    · exact Nat.lt_succ_self _
  behind := by
    intro q hq w hw' hslot hwait
    simp only [Pool.enter, List.mem_append, List.mem_singleton] at hq hw'
    rcases hw' with hw' | rfl
    · rcases hq with hq | rfl
      · exact h.behind q hq w hw' hslot hwait
      · -- the party that comes holds a slot, so nobody stands in line
        simp [hs hslot w hw'] at hwait
    · rcases hq with hq | rfl
      · -- the party that comes stands in line, with the last ticket
        exact h.fresh q.1 (List.mem_map_of_mem hq)
      · cases x <;> simp [Party.isWaiting, Party.holdsSlot] at hslot hwait
  full := by
    intro hc hf q hq
    simp only [Pool.enter, List.mem_append, List.mem_singleton] at hc hf hq
    rcases hq with hq | rfl
    · exact h.full hc hf q hq
    · cases hx : x.isWaiting with
      | false => rfl
      | true =>
        rcases hw hx with hcl | hfr
        · simp [hc] at hcl
        · omega

end Table

/-! ## The parties after a change -/

/-- Whoever is in the table after a slot was freed was there before, or stood in line and was given
the slot and told so. -/
theorem mem_freeSlot {w : Ticket × Party} (hw : w ∈ p.freeSlot.parties) :
    w ∈ p.parties ∨ w.2 = .granted ∧ w.1 ∈ p.line ∧ w.1 ∈ p.freeSlot.called := by
  rcases p.freeSlot_cases with ⟨t, l, -, hl, e⟩ | ⟨-, e⟩
  · rw [e] at hw ⊢
    rcases mem_put hw with rfl | ⟨hw', -⟩
    · exact Or.inr ⟨rfl, by simp [hl], by simp⟩
    · exact Or.inl hw'
  · rw [e] at hw
    exact Or.inl hw

theorem called_subset_freeSlot (p : Pool) : p.called ⊆ p.freeSlot.called := by
  rcases p.freeSlot_cases with ⟨t, l, -, -, e⟩ | ⟨-, e⟩
  · rw [e]
    exact List.subset_append_left _ _
  · rw [e]
    exact List.Subset.refl _

/-- Whoever is in the table after a party got on is that party in its next phase, another one as
before, or another one that was given the freed slot and told so. -/
theorem mem_after {next : Option Party} {w : Ticket × Party}
    (hw : w ∈ (p.after t x next).parties) :
    w.1 = t ∧ next = some w.2 ∨ w.1 ≠ t ∧
      (w ∈ p.parties ∨
        w.2 = .granted ∧ w.1 ∈ p.line ∧ w.1 ∈ (p.after t x next).called) := by
  cases next with
  | some y =>
    rcases mem_put hw with rfl | ⟨hw', hne⟩
    · exact Or.inl ⟨rfl, rfl⟩
    · exact Or.inr ⟨hne, Or.inl hw'⟩
  | none =>
    rw [after_none] at hw ⊢
    split at hw
    · rename_i hs
      rw [if_pos hs]
      rcases mem_freeSlot hw with hw' | ⟨hg, hl, hcalled⟩
      · exact Or.inr ⟨(mem_leave.1 hw').2, Or.inl (mem_leave.1 hw').1⟩
      · obtain ⟨z, hz, hwait⟩ := mem_line.1 hl
        exact Or.inr ⟨(mem_leave.1 hz).2,
          Or.inr ⟨hg, mem_line.2 ⟨z, (mem_leave.1 hz).1, hwait⟩, hcalled⟩⟩
    · exact Or.inr ⟨(mem_leave.1 hw).2, Or.inl (mem_leave.1 hw).1⟩

theorem called_subset_after (p : Pool) (t : Ticket) (x : Party) (next : Option Party) :
    p.called ⊆ (p.after t x next).called := by
  cases next with
  | some y => exact List.Subset.refl _
  | none =>
    rw [after_none]
    split
    · exact called_subset_freeSlot (p.leave t)
    · exact List.Subset.refl _

/-! ## Sums after a change -/

section Total

variable {M : Type u} [AddCommMonoid M] {f : Party → M}

theorem total_freeSlot (h : Table p) (hf : ∀ d, f (.waiting d) = f .granted) :
    p.freeSlot.total f = p.total f := by
  rcases p.freeSlot_cases with ⟨t, l, -, hl, e⟩ | ⟨-, e⟩
  · obtain ⟨⟨d, hd⟩, -⟩ := line_cons h.sorted hl
    obtain ⟨a, b, hp, hput, -⟩ := exists_split h.nodup hd
    rw [e]
    show (p.put t .granted).total f = p.total f
    simp [total, hp, hput, hf d]
  · rw [e]
    rfl

/-- A freed slot is free or goes to a party. -/
theorem free_add_freeSlot (h : Table p) :
    p.freeSlot.free + p.freeSlot.total Party.slots = p.free + p.total Party.slots + 1 := by
  rcases p.freeSlot_cases with ⟨t, l, -, hl, e⟩ | ⟨-, e⟩
  · obtain ⟨⟨d, hd⟩, -⟩ := line_cons h.sorted hl
    have hput : (p.put t .granted).total Party.slots + 0 = p.total Party.slots + 1 :=
      total_put Party.slots h.nodup hd .granted
    rw [e]
    show p.free + (p.put t .granted).total Party.slots = _
    omega
  · rw [e]
    show p.free + 1 + p.total Party.slots = _
    omega

/-- No slot is lost or made when a party gets on, and with it no other party's. -/
theorem free_add_after (h : Table p) (hx : p.party? t = some x) {next : Option Party}
    (hnext : ∀ y, next = some y → y.holdsSlot = x.holdsSlot) :
    (p.after t x next).free + (p.after t x next).total Party.slots =
      p.free + p.total Party.slots := by
  cases next with
  | some y =>
    have hput := total_put Party.slots h.nodup hx y
    have hy : y.slots = x.slots := by rw [Party.slots, Party.slots, hnext y rfl]
    show p.free + (p.put t y).total Party.slots = _
    omega
  | none =>
    have hleave := total_leave Party.slots h.nodup hx
    rw [after_none]
    split
    · rename_i hs
      have hone : x.slots = 1 := by rw [Party.slots, hs]; rfl
      have hfree : (p.leave t).freeSlot.free + (p.leave t).freeSlot.total Party.slots =
          p.free + (p.leave t).total Party.slots + 1 := free_add_freeSlot (h.leave t)
      omega
    · rename_i hs
      have hzero : x.slots = 0 := by simp [Party.slots, hs]
      show p.free + (p.leave t).total Party.slots = _
      omega

/-- What the other parties amount to stays when one of them gets on. -/
theorem total_after (h : Table p) (hx : p.party? t = some x)
    (hf : ∀ d, f (.waiting d) = f .granted) (next : Option Party) :
    (p.after t x next).total f + f x = p.total f + next.elim 0 f := by
  cases next with
  | some y => exact total_put f h.nodup hx y
  | none =>
    have hleave : (p.after t x none).total f = (p.leave t).total f := by
      rw [after_none]
      split
      · exact total_freeSlot (h.leave t) hf
      · rfl
    rw [hleave, total_leave f h.nodup hx]
    simp

end Total

end Pool

end Depot
