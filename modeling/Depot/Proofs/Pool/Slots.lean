import Depot.Proofs.Pool.Bound
import Depot.Proofs.Pool.News

/-!
# Slots

No slot is lost and none is made (`slots_conserved`): the free slots and those that are held add up
to the size of the pool, and every held slot belongs to one party, which acquires or has a client,
or destroys one. If an acquisition is left in line of a settled pool, everybody who holds a slot has
a client or creates one, so that nobody is idle. The tickets that are given a slot ascend, hence
slots are given out in the order of the requests.
-/

set_option autoImplicit false

namespace Depot

/-- A party that holds a slot has seen to it and has a client, or creates or destroys one. -/
theorem Party.slots_le (x : Party) : x.slots ≤ x.counted + x.busy + x.unseen := by
  cases x <;> simp [slots, holdsSlot, counted, busy, unseen]

namespace Pool

variable {p q r : Pool} {t u : Ticket} {x : Party} {es fs : List Event} {maxSize : Nat}

/-! ## Who holds the slots -/

theorem held_eq_total (p : Pool) : p.held = p.total Party.slots :=
  countP_eq_total Party.holdsSlot p

theorem length_holders (p : Pool) : p.holders.length = p.held := by
  rw [holders, List.length_map, held, List.countP_eq_length_filter]

theorem mem_holders : t ∈ p.holders ↔ ∃ x, (t, x) ∈ p.parties ∧ x.holdsSlot = true := by
  simp [holders]

theorem holders_sorted (hp : Table p) : p.holders.Pairwise (· < ·) :=
  hp.sorted.sublist (List.filter_sublist.map _)

/-- A held slot is held in one of four roles. -/
theorem held_eq_heldBy (p : Pool) :
    p.held = p.heldBy .acquisition + p.heldBy .guard + p.heldBy .invalidation +
      p.heldBy .background := by
  have hby : ∀ r : Role, p.heldBy r = p.total fun x => (x.holdsSlot && x.role == r).toNat :=
    fun r => countP_eq_total (fun x => x.holdsSlot && x.role == r) p
  rw [held_eq_total, hby, hby, hby, hby, ← total_add, ← total_add, ← total_add]
  refine congrArg (fun f => p.total f) (funext fun x => ?_)
  cases x <;> rfl

/-- Without acquisitions, lent clients and their destruction all slots are free. -/
theorem Balance.free_eq (h : Balance maxSize p) (hr : ∀ w ∈ p.parties, w.2.role = .closure) :
    p.free = maxSize := by
  have hheld : p.held = 0 := by
    refine List.countP_eq_zero.2 fun w hw hs => ?_
    have hrole := hr w hw
    cases hw2 : w.2 <;> simp [hw2, Party.holdsSlot, Party.role] at hs hrole
  have hslots := h.slots
  rw [← held_eq_total, hheld] at hslots
  exact hslots

/-- If somebody is left in line of a settled pool, all slots are held and nobody is idle. -/
theorem Balance.busy_of_line (h : Balance maxSize p) (hp : Table p) (hn : p.News)
    (hs : p.Settled) (ht : t ∈ p.line) : p.free = 0 ∧ p.held = maxSize ∧ p.idle = [] := by
  have hquiet := hn.quiet_of_settled hs
  obtain ⟨x, hx, hw⟩ := mem_line.1 ht
  -- in a closed pool there would be news for everybody in line
  have hopen : p.closed = false := by
    have hx' := hquiet (t, x) hx
    cases x <;> simp_all [Party.isWaiting, Party.hasNews]
  have hfree : p.free = 0 := by
    rcases Nat.eq_zero_or_pos p.free with h0 | hpos
    · exact h0
    · simp [hp.full hopen hpos (t, x) hx] at hw
  -- whoever holds a slot has seen to it, and is counted or busy, which leaves no idle clients
  have hunseen : p.total Party.unseen = 0 := by
    refine List.sum_eq_zero fun n hmem => ?_
    obtain ⟨w, hw, rfl⟩ := List.mem_map.1 hmem
    have hw' := hquiet w hw
    cases hw2 : w.2 <;> simp_all [Party.hasNews, Party.unseen]
  have hslots := h.slots
  have hbound := h.bound
  obtain ⟨hlive, -⟩ := h.exact hopen
  have hle := total_le Party.slots_le p
  rw [total_add, total_add] at hle
  refine ⟨hfree, ?_, ?_⟩
  · rw [held_eq_total]
    omega
  · exact List.length_eq_zero_iff.1 (by omega)

/-! ## The order of the grants -/

/-- How the tickets of a pool follow those of an earlier one: whoever is new in line, and whoever is
new among the holders without having stood in line, has a new ticket. -/
structure Follows (p q : Pool) : Prop where
  next : p.nextTicket ≤ q.nextTicket
  line : ∀ t ∈ q.line, t ∈ p.line ∨ p.nextTicket ≤ t
  holders : ∀ t ∈ q.holders, t ∈ p.holders ∨ t ∈ p.line ∨ p.nextTicket ≤ t

/-- Only the table and the next ticket matter. -/
theorem Follows.of_eq (hp : q.parties = p.parties) (hn : q.nextTicket = p.nextTicket) :
    Follows p q := by
  refine ⟨Nat.le_of_eq hn.symm, fun t ht => Or.inl ?_, fun t ht => Or.inl ?_⟩
  · rwa [Pool.line, ← hp]
  · rwa [Pool.holders, ← hp]

theorem Follows.refl (p : Pool) : Follows p p := .of_eq rfl rfl

theorem Follows.trans (h : Follows p q) (h' : Follows q r) : Follows p r := by
  refine ⟨Nat.le_trans h.next h'.next, fun t ht => ?_, fun t ht => ?_⟩
  · rcases h'.line t ht with hq | hq
    · exact h.line t hq
    · exact Or.inr (Nat.le_trans h.next hq)
  · rcases h'.holders t ht with hq | hq | hq
    · exact h.holders t hq
    · exact Or.inr (h.line t hq)
    · exact Or.inr (Or.inr (Nat.le_trans h.next hq))

theorem Follows.advance (ha : Advances p t es q) : Follows p q := by
  cases ha with
  | stay => exact .refl p
  | @go x es r next hx hs =>
    have hline : r.line = p.line := by rw [Pool.line, Pool.line, hs.parties_eq]
    refine ⟨?_, fun u hu => ?_, fun u hu => ?_⟩
    · rw [after_nextTicket, hs.frame]
    · obtain ⟨y, hy, hw⟩ := mem_line.1 hu
      rcases mem_after hy with ⟨-, hnext⟩ | ⟨-, hy' | ⟨-, hl, -⟩⟩
      · simp [(hs.stays hnext).2.1] at hw
      · exact Or.inl (mem_line.2 ⟨y, hs.parties_eq ▸ hy', hw⟩)
      · exact Or.inl (hline ▸ hl)
    · obtain ⟨y, hy, hslot⟩ := mem_holders.1 hu
      rcases mem_after hy with ⟨rfl, hnext⟩ | ⟨-, hy' | ⟨-, hl, -⟩⟩
      · rw [(hs.stays hnext).1] at hslot
        exact Or.inl (mem_holders.2 ⟨x, mem_of_party? hx, hslot⟩)
      · exact Or.inl (mem_holders.2 ⟨y, hs.parties_eq ▸ hy', hslot⟩)
      · exact Or.inr (Or.inl (hline ▸ hl))

theorem Follows.enter (p : Pool) (x : Party) : Follows p (p.enter x) := by
  refine ⟨Nat.le_succ _, fun t ht => ?_, fun t ht => ?_⟩
  · obtain ⟨y, hy, hw⟩ := mem_line.1 ht
    simp only [Pool.enter, List.mem_append, List.mem_singleton, Prod.mk.injEq] at hy
    rcases hy with hy | ⟨rfl, -⟩
    · exact Or.inl (mem_line.2 ⟨y, hy, hw⟩)
    · exact Or.inr (Nat.le_refl _)
  · obtain ⟨y, hy, hs⟩ := mem_holders.1 ht
    simp only [Pool.enter, List.mem_append, List.mem_singleton, Prod.mk.injEq] at hy
    rcases hy with hy | ⟨rfl, -⟩
    · exact Or.inl (mem_holders.2 ⟨y, hy, hs⟩)
    · exact Or.inr (Or.inr (Nat.le_refl _))

theorem Follows.step (h : Step p es q) : Follows p q := by
  cases h with
  | advance ha => exact .advance ha
  | refuse _ => exact .refl p
  | wait d _ _ => exact .enter p _
  | grant _ _ =>
    have h : Follows p { p with free := p.free - 1 } := .of_eq rfl rfl
    exact h.trans (.enter _ _)
  | close called _ => exact .of_eq rfl rfl
  | @drain c rest called _ =>
    have h : Follows p { p with closed := true, idle := [], live := p.live - 1, called } :=
      .of_eq rfl rfl
    exact h.trans (.enter _ _)
  | hear called => exact .of_eq rfl rfl

theorem Follows.steps (h : Steps p es q) : Follows p q := by
  induction h with
  | refl => exact .refl p
  | tail _ hs ih => exact ih.trans (.step hs)

theorem mem_grants (moves : List Move) (h : t ∈ p.grants moves) :
    t ∈ p.line ∨ p.nextTicket ≤ t := by
  induction moves generalizing p with
  | nil => simp [grants] at h
  | cons m moves ih =>
    have hf : Follows p (p.move m) := .steps (steps_move p m)
    simp only [grants, List.mem_append, List.mem_filter, decide_eq_true_eq] at h
    rcases h with ⟨hq, hp⟩ | h
    · exact (hf.holders t hq).resolve_left hp
    · rcases ih h with hl | hn
      · exact hf.line t hl
      · exact Or.inr (Nat.le_trans hf.next hn)

/-- Whoever holds a slot came before whoever is given one later. -/
theorem holder_lt (hp : Table p) (ht : t ∈ p.holders) (hu : u ∈ p.line ∨ p.nextTicket ≤ u) :
    t < u := by
  obtain ⟨x, hx, hs⟩ := mem_holders.1 ht
  rcases hu with hu | hu
  · obtain ⟨y, hy, hw⟩ := mem_line.1 hu
    exact hp.behind _ hx _ hy hs hw
  · exact Nat.lt_of_lt_of_le (hp.fresh t (List.mem_map_of_mem hx)) hu

theorem grants_sorted (hp : Table p) (moves : List Move) : (p.grants moves).Pairwise (· < ·) := by
  induction moves generalizing p with
  | nil => exact List.Pairwise.nil
  | cons m moves ih =>
    have hq : Table (p.move m) := hp.steps (steps_move p m)
    refine List.pairwise_append.2 ⟨(holders_sorted hq).sublist List.filter_sublist, ih hq, ?_⟩
    -- who is given a slot by the first move holds it when the others still wait, or have not come
    intro t ht u hu
    exact holder_lt hq (List.mem_of_mem_filter ht) (mem_grants moves hu)

/-- Whoever was given a slot came before whoever is left in line. -/
theorem grants_lt_line (hp : Table p) (moves : List Move) (ht : t ∈ p.grants moves)
    (hu : u ∈ (p.run moves).line) : t < u := by
  induction moves generalizing p with
  | nil => simp [grants] at ht
  | cons m moves ih =>
    have hq : Table (p.move m) := hp.steps (steps_move p m)
    simp only [grants, List.mem_append] at ht
    rcases ht with ht | ht
    · have hf : Follows (p.move m) ((p.move m).run moves) := .steps (steps_run _ moves)
      exact holder_lt hq (List.mem_of_mem_filter ht) (hf.line u hu)
    · exact ih hq ht hu

/-! ## Conservation -/

/-- **No slot is lost or made.** After every run the free slots and the held ones add up to the size
of the pool, and every held slot belongs to one party, in one of four roles. When the pool has
settled and somebody is left in line, all slots are held and nobody is idle; when nobody is left but
closing parties, all slots are free. Slots are given out in the order of the requests. -/
theorem slots_conserved {wait : Option Nat} {first : Client}
    (h : Pool.new maxSize wait first = .ok p) (moves : List Move) :
    let q := p.run moves
    (q.free + q.held = maxSize ∧ q.holders.length = q.held ∧ q.holders.Nodup ∧
        q.held = q.heldBy .acquisition + q.heldBy .guard + q.heldBy .invalidation +
          q.heldBy .background) ∧
      (q.Settled → ∀ t ∈ q.line, q.free = 0 ∧ q.held = maxSize ∧ q.idle = []) ∧
      ((∀ w ∈ q.parties, w.2.role = .closure) → q.free = maxSize) ∧
      (p.grants moves).Pairwise (· < ·) ∧ ∀ t ∈ p.grants moves, ∀ u ∈ q.line, t < u := by
  intro q
  obtain ⟨hq, hb⟩ := balance_run h moves
  have hp : Table p := .of_new h
  refine ⟨⟨?_, length_holders q, (holders_sorted hq).imp Nat.ne_of_lt, held_eq_heldBy q⟩, ?_, ?_,
    grants_sorted hp moves, fun t ht u hu => grants_lt_line hp moves ht hu⟩
  · rw [held_eq_total]
    exact hb.slots
  · exact fun hs t ht => hb.busy_of_line hq (news_run h moves) hs ht
  · exact hb.free_eq

/-- One slot and three parties: the second one has the slot after the first one, and the third one
is left in line. When all are gone but a closing party, the slot is free. -/
theorem slots_conserved_of_line :
    ∃ p, Pool.new 1 none 1 = .ok p ∧
      let first := [.request (fun _ => true) 0, .created 0 (.ok ()), .request (fun _ => true) 0,
        .request (fun _ => true) 0, .release 0, .proceed (fun _ => true) 0 1]
      let all := first ++ [.cancel 2, .release 1, .close]
      ((p.run first).Settled ∧ 2 ∈ (p.run first).line) ∧
        ((p.run first).free = 0 ∧ (p.run first).held = 1 ∧ (p.run first).idle = []) ∧
        (∀ w ∈ (p.run all).parties, w.2.role = .closure) ∧ (p.run all).free = 1 :=
  ⟨_, rfl, ⟨rfl, by decide⟩, (slots_conserved rfl _).2.1 rfl 2 (by decide), by decide,
    (slots_conserved rfl _).2.2.1 (by decide)⟩

end Pool

end Depot
