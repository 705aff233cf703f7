import Depot.Proofs.Lookup
import Depot.Proofs.Pool.Lifecycle

/-!
# One party among others

What the party of a ticket sees of the moves of others: nothing, unless it stands in line and is
given a slot (`Keeps`). What it finds of its own after a move agrees with the answer that it got
(`Progress.Fits`).

A pool is `Tidy` if its table is in order and no client is in use twice. That is kept by all steps,
and a client that is known and not in use will not be in use again (`Retired`).
-/

set_option autoImplicit false

namespace Depot.Pool

variable {p q r : Pool} {s t : Ticket} {x y : Party} {es : List Event} {c : Client}

/-! ## The parties of other tickets -/

theorem party?_put_of_ne (hne : s ≠ t) (y : Party) (p : Pool) :
    (p.put t y).party? s = p.party? s := by
  rw [party?, put, lookup_replace, if_neg hne]
  rfl

theorem party?_leave_of_ne (hne : s ≠ t) (p : Pool) : (p.leave t).party? s = p.party? s := by
  rw [party?, leave, lookup_remove, if_neg hne]
  rfl

theorem party?_put_self (hx : p.party? t = some x) (y : Party) :
    (p.put t y).party? t = some y := by
  rw [party?] at hx
  rw [party?, put, lookup_replace, if_pos rfl, hx]
  rfl

theorem party?_nextTicket (hfresh : ∀ t ∈ p.tickets, t < p.nextTicket) :
    p.party? p.nextTicket = none := by
  rw [Option.eq_none_iff_forall_ne_some]
  intro y hy
  have hlt := hfresh p.nextTicket (List.mem_map_of_mem (mem_of_party? hy))
  exact Nat.lt_irrefl _ hlt

/-- The party under the next ticket is the one that came last. -/
theorem party?_enter_self (hfresh : ∀ t ∈ p.tickets, t < p.nextTicket) (x : Party) :
    (p.enter x).party? p.nextTicket = some x := by
  have hnone := party?_nextTicket hfresh
  rw [party?] at hnone
  rw [party?, enter, lookup_concat, hnone, if_pos rfl]
  rfl

/-- A party that was there is there when another one has come. -/
theorem party?_enter (hx : p.party? s = some x) (y : Party) :
    (p.enter y).party? s = some x := by
  rw [party?] at hx
  rw [party?, enter, lookup_concat, hx]
  rfl

/-- The parties of all tickets but one are as they were, unless one that stood in line was given a
slot. -/
def Keeps (t : Ticket) (p q : Pool) : Prop :=
  ∀ s x, s ≠ t → p.party? s = some x →
    q.party? s = some x ∨ x.isWaiting = true ∧ q.party? s = some .granted

theorem Keeps.of_parties_eq (h : q.parties = p.parties) (t : Ticket) : Keeps t p q := by
  intro s x _ hx
  exact Or.inl (by rwa [party?, h])

theorem Keeps.trans (h : Keeps t p q) (h' : Keeps t q r) : Keeps t p r := by
  intro s x hne hx
  rcases h s x hne hx with hq | ⟨hw, hq⟩
  · exact h' s x hne hq
  · -- who was given a slot does not stand in line any more
    rcases h' s .granted hne hq with hr | ⟨hg, -⟩
    · exact Or.inr ⟨hw, hr⟩
    · cases hg

theorem Keeps.freeSlot (hp : Table p) (t : Ticket) : Keeps t p p.freeSlot := by
  intro s x _ hx
  rcases p.freeSlot_cases with ⟨first, l, -, hl, e⟩ | ⟨-, e⟩
  · rw [e]
    by_cases hs : s = first
    · subst hs
      obtain ⟨⟨d, hd⟩, -⟩ := line_cons hp.sorted hl
      rw [hx] at hd
      cases hd
      exact Or.inr ⟨rfl, party?_put_self hx .granted⟩
    · exact Or.inl ((party?_put_of_ne hs .granted p).trans hx)
  · rw [e]
    exact Or.inl hx

theorem Keeps.after (hp : Table p) (t : Ticket) (x : Party) (next : Option Party) :
    Keeps t p (p.after t x next) := by
  have hleave : Keeps t p (p.leave t) := by
    intro s y hne hy
    exact Or.inl ((party?_leave_of_ne hne p).trans hy)
  cases next with
  | some y =>
    intro s z hne hz
    exact Or.inl ((party?_put_of_ne hne y p).trans hz)
  | none =>
    rw [after_none]
    split
    · exact hleave.trans (.freeSlot (hp.leave t) t)
    · exact hleave

theorem Keeps.advance (hp : Table p) (h : Advances p t es q) : Keeps t p q := by
  cases h with
  | stay => exact .of_parties_eq rfl t
  | go hx hs => exact (Keeps.of_parties_eq hs.parties_eq t).trans (.after (hs.table hp) t _ _)

theorem Keeps.enter (h : r.parties = p.parties) (y : Party) (t : Ticket) :
    Keeps t p (r.enter y) := by
  intro s x _ hx
  rw [party?, ← h] at hx
  exact Or.inl (party?_enter hx y)

theorem Keeps.request (hp : Table p) (isValid : Client → Bool) (now : Nat) :
    Keeps p.nextTicket p (p.request isValid now).1 := by
  cases hc : p.closed with
  | true =>
    rw [request_of_closed isValid now hc]
    exact .of_parties_eq rfl _
  | false =>
    obtain ⟨q, hq, e⟩ := request_of_open isValid now hc
    rw [e]
    have hproceed := proceed_advances isValid now p.nextTicket q
    rcases hq with ⟨rfl, hf⟩ | ⟨rfl, hf⟩
    · have hq : Table (p.enter (.waiting (p.wait.map (now + ·)))) := hp.step (.wait _ hc hf)
      exact (Keeps.enter rfl _ _).trans (.advance hq hproceed)
    · have hq : Table ({ p with free := p.free - 1 }.enter .granted) := hp.step (.grant hc hf)
      have henter : Keeps p.nextTicket p ({ p with free := p.free - 1 }.enter .granted) :=
        .enter rfl _ _
      exact henter.trans (.advance hq hproceed)

theorem Keeps.close (p : Pool) (t : Ticket) : Keeps t p p.close.1 := by
  simp only [Pool.close]
  cases p.idle.reverse with
  | nil => exact .of_parties_eq rfl t
  | cons c rest => exact .enter rfl _ t

/-! ## The own party -/

/-- The party of an acquisition after a step that brought it to `progress`. -/
def Progress.Fits : Progress → Option Party → Prop
  | failed _, _ => True
  | blocked, x => ∃ deadline, x = some (.waiting deadline)
  | reject c, x => x = some (.rejecting c)
  | create, x => x = some .creating
  | lent c, x => x = some (.holding c)

theorem lend_fits (isValid : Client → Bool) (hx : p.party? t = some x) :
    (lend isValid t p).2.Fits ((lend isValid t p).1.party? t) ∧
      (lend isValid t p).2 ≠ .blocked := by
  unfold lend
  split
  · exact ⟨party?_put_self hx .creating, nofun⟩
  · rename_i c rest _
    split
    · exact ⟨party?_put_self (p := { p with idle := rest }) hx _, nofun⟩
    · exact ⟨party?_put_self (p := { p with idle := rest, live := p.live - 1 }) hx _, nofun⟩

theorem proceed_fits (isValid : Client → Bool) (now : Nat) (hx : p.party? t = some x)
    (hs : x = .granted ∨ ∃ deadline, x = .waiting deadline) :
    (p.proceed isValid now t).2.Fits ((p.proceed isValid now t).1.party? t) := by
  unfold proceed
  rcases hs with rfl | ⟨deadline, rfl⟩
  · rw [hx]
    dsimp only
    split
    · trivial
    · exact (lend_fits isValid hx).1
  · rw [hx]
    dsimp only
    split
    · trivial
    · split
      · trivial
      · exact ⟨deadline, hx⟩

/-- A party that asks comes under the next ticket. -/
theorem request_ticket (isValid : Client → Bool) (now : Nat) (p : Pool) :
    (p.request isValid now).2.1 = p.nextTicket := by
  cases hc : p.closed with
  | true => rw [request_of_closed isValid now hc]
  | false =>
    obtain ⟨q, -, e⟩ := request_of_open isValid now hc
    rw [e]

theorem request_fits (hp : Table p) (isValid : Client → Bool) (now : Nat) :
    (p.request isValid now).2.2.Fits
      ((p.request isValid now).1.party? (p.request isValid now).2.1) := by
  cases hc : p.closed with
  | true =>
    rw [request_of_closed isValid now hc]
    trivial
  | false =>
    obtain ⟨q, hq, e⟩ := request_of_open isValid now hc
    rw [e]
    rcases hq with ⟨rfl, -⟩ | ⟨rfl, -⟩
    · exact proceed_fits isValid now (party?_enter_self hp.fresh _) (Or.inr ⟨_, rfl⟩)
    · have hself := party?_enter_self (p := { p with free := p.free - 1 }) hp.fresh .granted
      exact proceed_fits isValid now hself (Or.inl rfl)

theorem rejected_fits (isValid : Client → Bool) (hx : p.party? t = some (.rejecting c)) :
    (p.rejected isValid t).2.Fits ((p.rejected isValid t).1.party? t) ∧
      (p.rejected isValid t).2 ≠ .blocked := by
  simp only [rejected, hx]
  exact lend_fits isValid hx

theorem created_fits (result : Except StoreError Unit) (hx : p.party? t = some .creating) :
    (p.created t result).2.Fits ((p.created t result).1.party? t) ∧
      (p.created t result).2 ≠ .blocked := by
  simp only [created, hx]
  cases result with
  | ok _ =>
    constructor
    · exact party?_put_self (p := { p with nextClient := _, live := _ }) hx _
    · intro h
      cases h
  | error e =>
    constructor
    · exact trivial
    · intro h
      cases h

theorem party?_invalidate (hx : p.party? t = some (.holding c)) :
    (p.invalidate t).1.party? t = some (.invalidating c) := by
  simp only [invalidate, hx]
  exact party?_put_self (p := { p with live := _ }) hx _

/-- A client that is given back too late, or let go of, is to be destroyed in the background. -/
theorem party?_drop (hx : p.party? t = some (.holding c)) :
    (p.drop t).1.party? t = some (.discarding c) := by
  simp only [drop, hx]
  exact party?_put_self hx _

theorem release_of_closed (hc : p.closed = true) : p.release t = p.drop t := by
  simp only [release, drop, hc]
  rfl

/-- A client that is given back in time is the newest idle one. -/
theorem idle_release (hx : p.party? t = some (.holding c)) (hc : p.closed = false) :
    (p.release t).1.idle = c :: p.idle := by
  obtain ⟨_, _, _, e⟩ := ({ p with idle := c :: p.idle }.leave t).freeSlot_frame
  simp only [release, hx]
  rw [if_neg (by simp [hc]), e]
  rfl

theorem idle_invalidate (t : Ticket) (p : Pool) : (p.invalidate t).1.idle = p.idle := by
  unfold invalidate
  split <;> rfl

theorem party?_startDestroy (hx : p.party? t = some (.discarding c)) :
    (p.startDestroy t).1.party? t = some (.destroying c) := by
  simp only [startDestroy, hx]
  exact party?_put_self (p := { p with live := _ }) hx _

theorem party?_close (hp : Table p) (h : p.close = (q, some (t, c))) :
    t = p.nextTicket ∧ ∃ rest, q.party? t = some (.closing c rest) := by
  simp only [close] at h
  split at h
  · cases h
  · rename_i c' rest _
    cases h
    refine ⟨rfl, rest, ?_⟩
    exact party?_enter_self (p := { p with closed := _, idle := _, live := _, called := _ })
      hp.fresh _

theorem party?_closedOne {d : Client} {rest : List Client}
    (hx : p.party? t = some (.closing d rest)) (h : p.closedOne t = (q, some c)) :
    ∃ rest', q.party? t = some (.closing c rest') := by
  cases rest with
  | nil =>
    simp only [closedOne, hx] at h
    cases h
  | cons c' rest' =>
    simp only [closedOne, hx] at h
    cases h
    exact ⟨rest', party?_put_self (p := { p with live := _ }) hx _⟩

/-! ## Tickets without a party -/

theorem party?_put_none (hs : p.party? s = none) (t : Ticket) (y : Party) :
    (p.put t y).party? s = none := by
  rw [party?] at hs
  rw [party?, put, lookup_replace]
  split
  · rename_i hst
    subst hst
    rw [hs]
    rfl
  · exact hs

theorem party?_leave_none (hs : p.party? s = none) (t : Ticket) :
    (p.leave t).party? s = none := by
  rw [party?] at hs
  rw [party?, leave, lookup_remove]
  split
  · rfl
  · exact hs

theorem party?_leave_self (t : Ticket) (p : Pool) : (p.leave t).party? t = none := by
  rw [party?, leave, lookup_remove, if_pos rfl]

theorem party?_freeSlot_none (hs : p.party? s = none) : p.freeSlot.party? s = none := by
  rcases p.freeSlot_cases with ⟨t, l, -, -, e⟩ | ⟨-, e⟩
  · rw [e]
    exact party?_put_none hs t .granted
  · rw [e]
    exact hs

theorem party?_after_none (hs : p.party? s = none) (t : Ticket) (x : Party)
    (next : Option Party) : (p.after t x next).party? s = none := by
  cases next with
  | some y => exact party?_put_none hs t y
  | none =>
    rw [after_none]
    split
    · exact party?_freeSlot_none (party?_leave_none hs t)
    · exact party?_leave_none hs t

/-- Who leaves is gone. -/
theorem party?_after_self (p : Pool) (t : Ticket) (x : Party) :
    (p.after t x none).party? t = none := by
  rw [after_none]
  split
  · exact party?_freeSlot_none (party?_leave_self t p)
  · exact party?_leave_self t p

/-- Nobody comes when a party gets on. -/
theorem Advances.party?_none (h : Advances p t es q) (hs : p.party? s = none) :
    q.party? s = none := by
  cases h with
  | stay => exact hs
  | @go x _ r next _ hshift =>
    have hs' : r.party? s = none := by rwa [party?, hshift.parties_eq]
    exact party?_after_none hs' t x next

theorem party?_enter_none (hs : p.party? s = none) (hne : s ≠ p.nextTicket) (y : Party) :
    (p.enter y).party? s = none := by
  rw [party?] at hs
  rw [party?, enter, lookup_concat, hs, if_neg hne]
  rfl

/-- With a request, nobody comes but the one who asks. -/
theorem request_none (hs : p.party? s = none) (hne : s ≠ p.nextTicket) (isValid : Client → Bool)
    (now : Nat) : (p.request isValid now).1.party? s = none := by
  cases hc : p.closed with
  | true =>
    rw [request_of_closed isValid now hc]
    exact hs
  | false =>
    obtain ⟨q, hq, e⟩ := request_of_open isValid now hc
    have hq' : q.party? s = none := by
      rcases hq with ⟨rfl, -⟩ | ⟨rfl, -⟩
      · exact party?_enter_none hs hne _
      · exact party?_enter_none (p := { p with free := p.free - 1 }) hs hne _
    rw [e]
    exact (proceed_advances isValid now p.nextTicket q).party?_none hq'

theorem close_none (hs : p.party? s = none) (hne : s ≠ p.nextTicket) :
    p.close.1.party? s = none := by
  simp only [close]
  cases p.idle.reverse with
  | nil => exact hs
  | cons c rest =>
    exact party?_enter_none (p := { p with closed := _, idle := _, live := _, called := _ }) hs hne _

/-- Without idle clients there is no party to destroy them. -/
theorem close_none_of_eq (h : p.close = (q, none)) (hs : p.party? s = none) :
    q.party? s = none := by
  simp only [close] at h
  split at h
  · cases h
    exact hs
  · cases h

theorem lend_ne_failed {isValid : Client → Bool} {e : StoreError} :
    (lend isValid t p).2 ≠ .failed e := by
  unfold lend
  split
  · nofun
  · split
    · nofun
    · nofun

/-- Whose acquisition fails is gone. -/
theorem proceed_failed {isValid : Client → Bool} {now : Nat} {e : StoreError}
    (h : (p.proceed isValid now t).2 = .failed e) :
    (p.proceed isValid now t).1.party? t = none := by
  unfold proceed at h ⊢
  cases hx : p.party? t with
  | none =>
    simp only [hx] at h
    cases h
  | some x =>
    simp only [hx] at h ⊢
    cases x with
    | waiting deadline =>
      dsimp only at h ⊢
      split
      · exact party?_leave_self t p
      · rename_i hc
        rw [if_neg hc] at h
        split
        · exact party?_leave_self t p
        · rename_i hd
          rw [if_neg hd] at h
          cases h
    | granted =>
      dsimp only at h ⊢
      split
      · exact party?_after_self p t .granted
      · rename_i hc
        rw [if_neg hc] at h
        exact absurd h lend_ne_failed
    | _ => cases h

theorem request_failed (hp : Table p) {isValid : Client → Bool} {now : Nat} {e : StoreError}
    (h : (p.request isValid now).2.2 = .failed e) :
    (p.request isValid now).1.party? p.nextTicket = none := by
  cases hc : p.closed with
  | true =>
    rw [request_of_closed isValid now hc]
    exact party?_nextTicket hp.fresh
  | false =>
    obtain ⟨q, -, heq⟩ := request_of_open isValid now hc
    rw [heq] at h ⊢
    exact proceed_failed h

theorem rejected_ne_failed {isValid : Client → Bool} {e : StoreError} :
    (p.rejected isValid t).2 ≠ .failed e := by
  unfold rejected
  split
  · exact lend_ne_failed
  · nofun

theorem created_failed {result : Except StoreError Unit} {e : StoreError}
    (h : (p.created t result).2 = .failed e) : (p.created t result).1.party? t = none := by
  unfold created at h ⊢
  split at h
  · cases h
  · exact party?_after_self p t .creating
  · cases h

/-- Who gives a client back in time is gone, and so is who has destroyed its last one. -/
theorem release_gone (hx : p.party? t = some (.holding c)) (hc : p.closed = false) :
    (p.release t).1.party? t = none := by
  simp only [release, hx]
  rw [if_neg (by simp [hc])]
  exact party?_after_self { p with idle := c :: p.idle } t (.holding c)

theorem invalidated_gone (hx : p.party? t = some (.invalidating c)) :
    (p.invalidated t).party? t = none := by
  simp only [invalidated, hx]
  exact party?_after_self p t (.invalidating c)

theorem destroyed_gone (hx : p.party? t = some (.destroying c)) :
    (p.destroyed t).party? t = none := by
  simp only [destroyed, hx]
  exact party?_after_self p t (.destroying c)

theorem closedOne_gone {cs : List Client} (hx : p.party? t = some (.closing c cs))
    (h : p.closedOne t = (q, none)) : q.party? t = none := by
  cases cs with
  | nil =>
    simp only [closedOne, hx] at h
    cases h
    exact party?_after_self p t (.closing c [])
  | cons d cs =>
    simp only [closedOne, hx] at h
    cases h

/-- Who is cancelled is gone, but for those who let go of a client or work in the background. -/
theorem cancel_gone (hx : p.party? t = some x) (hb : x.borrowed = [])
    (hr : x.role ≠ .background) : (p.cancel t).party? t = none := by
  unfold cancel
  rw [hx]
  cases x with
  | waiting d => exact party?_after_self p t (.waiting d)
  | granted => exact party?_after_self p t .granted
  | rejecting c => exact party?_after_self p t (.rejecting c)
  | creating => exact party?_after_self p t .creating
  | invalidating c => exact party?_after_self p t (.invalidating c)
  | closing c rest => exact party?_after_self p t (.closing c rest)
  | holding c => cases hb
  | discarding c | destroying c => exact absurd rfl hr

/-! ## Clients in use -/

/-- The table is in order, and the clients in use are known and not in use twice. -/
structure Tidy (p : Pool) : Prop where
  table : Table p
  once : ∀ c, p.idle.count c + p.borrowed.count c ≤ 1
  known : ∀ c, c ∈ p.idle ∨ c ∈ p.borrowed → c < p.nextClient

theorem Tidy.of_new {maxSize : Nat} {wait : Option Nat} {first : Client}
    (h : Pool.new maxSize wait first = .ok p) : Tidy p := by
  refine ⟨.of_new h, ?_, ?_⟩
  · intro c
    rw [eq_of_new h]
    exact Nat.zero_le 1
  · intro c hc
    rw [eq_of_new h] at hc
    simp [borrowed] at hc

/-- After some steps, a client that was taken out of use meanwhile is not in use, and no client is
in use twice. -/
theorem Tidy.count_le (hp : Tidy p) (h : Steps p es q) (c : Client) :
    q.idle.count c + q.borrowed.count c + (withdrawn es).count c ≤ 1 := by
  have hledger := Ledger.steps hp.table h c
  have hused := hledger.used
  rw [← count_borrowed, ← count_borrowed] at hused
  have honce := hp.once c
  have hmade := count_made_le p.nextClient q c
  -- a client is in use before, or is new
  by_cases hnew : c ∈ q.made p.nextClient
  · have hold : ¬ (c ∈ p.idle ∨ c ∈ p.borrowed) := fun hc =>
      Nat.not_le.2 (hp.known c hc) (mem_made.1 hnew).1
    rw [not_or] at hold
    rw [List.count_eq_zero.2 hold.1, List.count_eq_zero.2 hold.2] at hused
    omega
  · rw [List.count_eq_zero.2 hnew] at hused
    omega

theorem Tidy.steps (hp : Tidy p) (h : Steps p es q) : Tidy q := by
  have hledger := Ledger.steps hp.table h
  refine ⟨hp.table.steps h, fun c => ?_, fun c hc => ?_⟩
  · have hle := hp.count_le h c
    omega
  · have hused := (hledger c).used
    rw [← count_borrowed, ← count_borrowed] at hused
    have hpos : 0 < q.idle.count c + q.borrowed.count c := by
      rcases hc with hc | hc
      · exact Nat.add_pos_left (List.count_pos_iff.2 hc) _
      · exact Nat.add_pos_right _ (List.count_pos_iff.2 hc)
    by_cases hnew : c ∈ q.made p.nextClient
    · exact (mem_made.1 hnew).2
    · -- it was in use before
      rw [List.count_eq_zero.2 hnew] at hused
      have hold : c ∈ p.idle ∨ c ∈ p.borrowed := by
        rw [← List.count_pos_iff, ← List.count_pos_iff]
        omega
      exact Nat.lt_of_lt_of_le (hp.known c hold) (hledger c).next

/-- A client that is known and neither idle nor lent out. -/
structure Retired (c : Client) (p : Pool) : Prop where
  known : c < p.nextClient
  idle : c ∉ p.idle
  borrowed : c ∉ p.borrowed

/-- A client that is not in use will not be in use again. -/
theorem Retired.steps (h : Retired c p) (hp : Table p) (hs : Steps p es q) : Retired c q := by
  have hledger := Ledger.steps hp hs c
  have hnew : ¬ ((c ∈ p.idle ∨ c ∈ p.borrowed) ∨ p.nextClient ≤ c) := by
    rintro ((hc | hc) | hc)
    · exact h.idle hc
    · exact h.borrowed hc
    · exact Nat.not_le.2 h.known hc
  refine ⟨Nat.lt_of_lt_of_le h.known hledger.next, fun hc => ?_, fun hc => ?_⟩
  · exact hnew (hledger.mem (Or.inl hc))
  · exact hnew (hledger.mem (Or.inr hc))

theorem mem_borrowed (hx : p.party? t = some (.holding c)) : c ∈ p.borrowed := by
  rw [borrowed, List.mem_flatMap]
  exact ⟨_, mem_of_party? hx, by simp [Party.borrowed]⟩

/-- A client that was in use and is taken out of use is retired. -/
theorem Tidy.retired (hp : Tidy p) (h : Steps p es q) (hc : .withdrawn c ∈ es)
    (hold : c ∈ p.idle ∨ c ∈ p.borrowed) : Retired c q := by
  have hle := hp.count_le h c
  have hpos := List.count_pos_iff.2 (mem_withdrawn.2 hc)
  refine ⟨Nat.lt_of_lt_of_le (hp.known c hold) (Ledger.steps hp.table h c).next, ?_, ?_⟩
  · exact List.count_eq_zero.1 (by omega)
  · exact List.count_eq_zero.1 (by omega)

/-- Whoever destroys its client, lets go of it or gives it back too late takes it out of use. -/
theorem Tidy.retired_invalidate (hp : Tidy p) (hx : p.party? t = some (.holding c)) :
    Retired c (p.invalidate t).1 := by
  refine hp.retired (Step.advance (invalidate_advances t p)).steps ?_ (Or.inr (mem_borrowed hx))
  simp [events, invalidate, hx]

theorem Tidy.retired_drop (hp : Tidy p) (hx : p.party? t = some (.holding c)) :
    Retired c (p.drop t).1 := by
  refine hp.retired (Step.advance (drop_advances t p)).steps ?_ (Or.inr (mem_borrowed hx))
  simp [events, drop, hx]

/-- No client is lent out to two parties. -/
theorem Tidy.holder_unique (hp : Tidy p) (hs : p.party? s = some (.holding c))
    (ht : p.party? t = some (.holding c)) : s = t := by
  by_contra hne
  -- without the second party the client is lent out still
  have hleave := total_leave (·.borrowed.count c) hp.table.nodup ht
  have hother : c ∈ (p.leave t).borrowed := mem_borrowed ((party?_leave_of_ne hne p).trans hs)
  have hpos := List.count_pos_iff.2 hother
  have honce := hp.once c
  rw [count_borrowed] at hpos honce
  have hself : (Party.holding c).borrowed.count c = 1 := by simp [Party.borrowed]
  omega

end Depot.Pool
