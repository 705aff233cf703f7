import Depot.Proofs.Pool.Step

/-!
# The bound on clients

Idle clients hold no slot, so the number of slots alone does not bound the number of clients. What
does is the shown number of clients together with the number of parties that create or destroy one:
it never exceeds the number of slots (`Balance.bound`). The sum grows only when an acquisition with
a fresh slot in an open pool finds no idle client; then every client belongs to a party with a slot,
and that acquisition has none.
-/

set_option autoImplicit false

namespace Depot

/-! ## Weights of a party -/

namespace Party

/-- The clients of a party that are shown as live. -/
def counted : Party → Nat
  | holding _ => 1
  | discarding _ => 1
  | closing _ rest => rest.length
  | _ => 0

/-- Whether a party creates a client or is inside the destruction of one. -/
def busy : Party → Nat
  | rejecting _ => 1
  | creating => 1
  | invalidating _ => 1
  | destroying _ => 1
  | closing _ _ => 1
  | _ => 0

/-- The clients that a closing party has taken. -/
def drained : Party → Nat
  | closing _ rest => rest.length + 1
  | _ => 0

/-- Whether a party was given a slot and has not seen to it. -/
def unseen : Party → Nat
  | granted => 1
  | _ => 0

theorem counted_le_length_clients (x : Party) : x.counted ≤ x.clients.length := by
  cases x <;> simp [counted, clients]

/-- The clients of a party and those it creates are counted, or it is busy with them. -/
theorem length_clients_add_creating (x : Party) :
    x.clients.length + (decide (x = creating)).toNat = x.counted + x.busy := by
  cases x <;> simp [clients, counted, busy]

theorem length_borrowed_le_counted (x : Party) : x.borrowed.length ≤ x.counted := by
  cases x <;> simp [borrowed, counted]

/-- Outside of a closure, a party has at most one client or creation, and a slot for it. -/
theorem counted_add_busy_add_unseen_le (x : Party) :
    x.counted + x.busy + x.unseen ≤ x.slots + x.drained := by
  cases x <;> simp [counted, busy, unseen, slots, drained, holdsSlot]

end Party

namespace Pool

variable {p q r : Pool} {t : Ticket} {x : Party} {next : Option Party} {es : List Event}
  {maxSize : Nat}

/-! ## The balance -/

/-- The balance of slots and clients. -/
structure Balance (maxSize : Nat) (p : Pool) : Prop where
  slots : p.free + p.total Party.slots = maxSize
  /-- No more clients are counted than are shown, so that the shown number never runs out. -/
  counted_le : p.idle.length + p.total Party.counted ≤ p.live
  bound : p.live + p.total Party.busy ≤ maxSize
  /-- Before it is closed, a pool shows exactly what there is, and nothing is drained. -/
  exact : p.closed = false →
    p.live = p.idle.length + p.total Party.counted ∧ p.total Party.drained = 0

theorem Balance.of_new {wait : Option Nat} {first : Client}
    (h : Pool.new maxSize wait first = .ok p) : Balance maxSize p := by
  rw [eq_of_new h]
  exact ⟨rfl, Nat.le_refl 0, Nat.zero_le _, fun _ => ⟨rfl, rfl⟩⟩

theorem goneBy_abandoned (t : Ticket) (cs : List Client) :
    goneBy .abandoned (.cancelled t :: cs.map (.gone · .abandoned)) = cs := by
  simp [goneBy, List.filterMap_map]

/-- Only a closing party leaves clients behind, and only those that it took. -/
theorem Shift.drained_add (h : Shift p t x es r next) :
    next.elim 0 Party.drained + (goneBy .abandoned es).length ≤ x.drained := by
  cases h with
  | create hs _ | take hs _ | reject hs _ => cases hs <;> simp [Party.drained, goneBy]
  | abandon =>
    rw [goneBy_abandoned]
    simp [Party.drained]
  | _ => simp [Party.drained, goneBy]

/-- When a party gets on, the shown number changes as the counted clients do, but for those that a
cancelled closing party leaves behind. -/
theorem Shift.live_add (h : Shift p t x es r next) (hl : p.idle.length + x.counted ≤ p.live) :
    p.live + (r.idle.length + next.elim 0 Party.counted) + ((goneBy .abandoned es).length - 1) =
      r.live + (p.idle.length + x.counted) := by
  cases h with
  | create hs hi => cases hs <;> simp [Party.counted, goneBy]
  | take hs hi => cases hs <;> simp [Party.counted, goneBy, hi]
  | reject hs hi =>
    cases hs <;> simp only [hi, List.length_cons] at hl ⊢ <;> simp [Party.counted, goneBy] <;> omega
  | abandon =>
    rw [goneBy_abandoned]
    simp [Party.counted]
    omega
  | finish hx => rcases hx with rfl | rfl | rfl <;> simp [Party.counted, goneBy]
  | cutOff hx => rcases hx with rfl | rfl <;> simp [Party.counted, goneBy]
  | cancel hx | fail hx =>
    have hzero := x.counted_le_length_clients
    simp only [hx, List.length_nil, Nat.le_zero] at hzero
    simp [hzero, goneBy]
  | _ =>
    simp only [Party.counted, List.length_cons] at hl
    simp [Party.counted, goneBy]
    try omega

/-- When a party gets on, the shown number and the busy parties together do not grow, unless a fresh
slot in an open pool without idle clients is used to create one. -/
theorem Shift.live_add_busy (h : Shift p t x es r next) (hl : p.idle.length + x.counted ≤ p.live) :
    r.live + next.elim 0 Party.busy ≤ p.live + x.busy ∨
      x = .granted ∧ next = some .creating ∧ r = p ∧ p.closed = false ∧ p.idle = [] := by
  cases h with
  | create hs hi =>
    cases hs with
    | granted hc => exact Or.inr ⟨rfl, rfl, rfl, hc, hi⟩
    | rejecting c => exact Or.inl (Nat.le_refl _)
  | take hs hi => exact Or.inl (Nat.le_add_right _ _)
  | reject hs hi =>
    left
    simp only [hi, List.length_cons] at hl
    simp [Party.busy]
    omega
  | created => simp [Party.busy]
  | discard => exact Or.inl (Nat.le_refl _)
  | giveBack => exact Or.inl (Nat.le_refl _)
  | finish hx => exact Or.inl (Nat.le_add_right _ _)
  | cutOff hx => exact Or.inl (Nat.le_add_right _ _)
  | abandon => exact Or.inl (Nat.le_add_right _ _)
  | cancel hx => exact Or.inl (Nat.le_add_right _ _)
  | fail hx => exact Or.inl (Nat.le_add_right _ _)
  | _ =>
    left
    simp only [Party.counted, List.length_cons] at hl
    simp [Party.busy]
    try omega

/-- An acquisition with a fresh slot in an open pool without idle clients leaves room for one more
client. -/
theorem Balance.room (h : Balance maxSize p) (hp : Table p) (hx : p.party? t = some .granted)
    (hc : p.closed = false) (hi : p.idle = []) : p.live + p.total Party.busy + 1 ≤ maxSize := by
  obtain ⟨hlive, hdrained⟩ := h.exact hc
  -- this party holds a slot, and has neither a client nor a creation
  have hunseen : (p.leave t).total Party.unseen + 1 = p.total Party.unseen :=
    total_leave Party.unseen hp.nodup hx
  have hle := total_le Party.counted_add_busy_add_unseen_le p
  rw [total_add, total_add, total_add] at hle
  have hslots := h.slots
  rw [hi, List.length_nil] at hlive
  omega

theorem Balance.advance (h : Balance maxSize p) (hp : Table p) (ha : Advances p t es q) :
    Balance maxSize q := by
  cases ha with
  | stay => exact h
  | @go x es r next hx hs =>
    have hcounted := hs.total_after hp hx (f := Party.counted) fun _ => rfl
    have hbusy := hs.total_after hp hx (f := Party.busy) fun _ => rfl
    have hdrained := hs.total_after hp hx (f := Party.drained) fun _ => rfl
    have hl : p.idle.length + x.counted ≤ p.live := by
      have hle := total_leave Party.counted hp.nodup hx
      have := h.counted_le
      omega
    have hlive := hs.live_add hl
    refine ⟨?_, ?_, ?_, fun hc => ?_⟩
    · rw [hs.free_add_after hp hx, h.slots]
    · have := h.counted_le
      simp only [after_idle, after_live]
      omega
    · simp only [after_live]
      rcases hs.live_add_busy hl with hle | ⟨rfl, rfl, rfl, hc, hi⟩
      · have := h.bound
        omega
      · -- a creation begins with a fresh slot
        have hroom := h.room hp hx hc hi
        simp only [Option.elim_some, Party.busy] at hbusy
        omega
    · -- nothing is drained in an open pool, so that nothing is left behind
      simp only [after_closed, after_live, after_idle] at hc ⊢
      have hc' : p.closed = false := by rw [← hc, hs.closed_eq]
      obtain ⟨hexact, hzero⟩ := h.exact hc'
      have hxd := total_leave Party.drained hp.nodup hx
      have hsd := hs.drained_add
      omega

/-- The balance after a party came in. -/
theorem Balance.enter (hslots : p.free + p.total Party.slots + x.slots = maxSize)
    (hcounted : p.idle.length + p.total Party.counted + x.counted ≤ p.live)
    (hbound : p.live + p.total Party.busy + x.busy ≤ maxSize)
    (hexact : p.closed = false → p.live = p.idle.length + p.total Party.counted + x.counted ∧
      p.total Party.drained + x.drained = 0) : Balance maxSize (p.enter x) := by
  refine ⟨?_, ?_, ?_, fun hc => ?_⟩
  · rw [total_enter, ← Nat.add_assoc]
    exact hslots
  · rw [total_enter, ← Nat.add_assoc]
    exact hcounted
  · rw [total_enter, ← Nat.add_assoc]
    exact hbound
  · rw [total_enter, total_enter, ← Nat.add_assoc]
    exact hexact hc

theorem Balance.step (h : Balance maxSize p) (hp : Table p) (hs : Step p es q) :
    Balance maxSize q := by
  have hslots := h.slots
  have hcounted := h.counted_le
  have hbound := h.bound
  cases hs with
  | advance ha => exact h.advance hp ha
  | refuse _ => exact h
  | wait d hc hf => exact .enter hslots hcounted hbound h.exact
  | grant hc hf =>
    -- the slot that is not free any more is held by the party that came
    have hheld : p.free - 1 + p.total Party.slots + 1 = maxSize := by omega
    exact Balance.enter hheld hcounted hbound h.exact
  | close called _ => exact ⟨hslots, hcounted, hbound, by simp⟩
  | @drain c rest called hi =>
    -- one of the idle clients is being destroyed, the others are counted for the closing party
    have hlen : p.idle.length = rest.length + 1 := by
      rw [← List.length_reverse, hi, List.length_cons]
    have hrest : 0 + p.total Party.counted + rest.length ≤ p.live - 1 := by omega
    have hbusy : p.live - 1 + p.total Party.busy + 1 ≤ maxSize := by omega
    exact Balance.enter hslots hrest hbusy (by simp)
  | hear called => exact ⟨hslots, hcounted, hbound, h.exact⟩

/-- The table is in order and the books are balanced after every run of a new pool. -/
theorem balance_run {wait : Option Nat} {first : Client} (h : Pool.new maxSize wait first = .ok p)
    (moves : List Move) : Table (p.run moves) ∧ Balance maxSize (p.run moves) :=
  (steps_run p moves).keep (P := fun p => Table p ∧ Balance maxSize p)
    (fun hs hp => ⟨hp.1.step hs, hp.2.step hp.1 hs⟩) ⟨.of_new h, .of_new h⟩

/-! ## The bound -/

theorem length_clients_add_creating (p : Pool) :
    p.clients.length + p.creating =
      p.idle.length + p.total Party.counted + p.total Party.busy := by
  have hcreating : p.creating = p.total fun x => (decide (x = .creating)).toNat :=
    countP_eq_total (fun x => decide (x = .creating)) p
  have hparty : p.total (fun x => x.clients.length + (decide (x = .creating)).toNat) =
      p.total Party.counted + p.total Party.busy := by
    rw [← total_add]
    exact congrArg (fun f => p.total f) (funext Party.length_clients_add_creating)
  rw [total_add] at hparty
  rw [clients, List.length_append, length_flatMap_eq_total, hcreating]
  omega

theorem length_borrowed_le (p : Pool) : p.borrowed.length ≤ p.total Party.counted := by
  rw [borrowed, length_flatMap_eq_total]
  exact total_le Party.length_borrowed_le_counted p

/-- **The bound of a pool.** After every run there are no more clients and creations under way than
slots, no more clients are shown, and no more are idle or lent out. -/
theorem clients_add_creating_le {wait : Option Nat} {first : Client}
    (h : Pool.new maxSize wait first = .ok p) (moves : List Move) :
    (p.run moves).clients.length + (p.run moves).creating ≤ maxSize ∧
      (p.run moves).live ≤ maxSize ∧
      (p.run moves).idle.length + (p.run moves).borrowed.length ≤ maxSize := by
  obtain ⟨-, hb⟩ := balance_run h moves
  have hcounted := hb.counted_le
  have hbound := hb.bound
  have hborrowed := length_borrowed_le (p.run moves)
  refine ⟨?_, ?_, ?_⟩
  · rw [length_clients_add_creating]
    omega
  · omega
  · omega

/-- Two idle clients, one found unfit while the pool is closed and drains the other: when the
acquisition goes on to create a client, the bound is reached. -/
theorem clients_add_creating_le_of_drain :
    ∃ p, Pool.new 2 none 1 = .ok p ∧
      let q := p.run [.request (fun _ => true) 0, .created 0 (.ok ()), .request (fun _ => true) 0,
        .created 1 (.ok ()), .release 0, .release 1, .request (fun _ => false) 0, .close,
        .rejected (fun _ => true) 2]
      (q.closed = true ∧ q.clients.length + q.creating = 2) ∧
        q.clients.length + q.creating ≤ 2 ∧ q.live ≤ 2 ∧ q.idle.length + q.borrowed.length ≤ 2 :=
  ⟨_, rfl, ⟨by decide, by decide⟩, clients_add_creating_le rfl _⟩

end Pool

end Depot
