import Depot.Pool

/-!
# A pool with one party at a time

While parties come one after the other, a pool that is open always has a slot free for the next one
(`Serving`): nobody waits in line, and every acquisition ends with a client, idle or new.
-/

set_option autoImplicit false

namespace Depot.Pool

variable {p q : Pool} {t : Ticket} {c : Client} {progress : Progress} {isValid : Client → Bool}
  {now : Nat} {left : Option Client}

/-- An open pool has one party or none, and all slots free but that of the party. -/
structure Serving (p : Pool) (party : Option (Ticket × Party)) : Prop where
  parties : p.parties = party.toList
  free : p.free + party.toList.length = p.maxSize
  size : 0 < p.maxSize
  closed : p.closed = false

theorem Serving.not_closed {party : Option (Ticket × Party)} (h : Serving p party) :
    ¬ p.closed = true := by
  rw [h.closed]
  nofun

theorem Serving.party?_eq {x : Party} (h : Serving p (some (t, x))) : p.party? t = some x := by
  simp [party?, h.parties]

/-- The only party is that of its ticket. -/
theorem Serving.eq {party : Option (Ticket × Party)} {x : Party} (h : Serving p party)
    (ht : party.map (·.1) = some t) (hx : p.party? t = some x) : party = some (t, x) := by
  obtain ⟨⟨t', y⟩, rfl, rfl⟩ := Option.map_eq_some_iff.1 ht
  simp [party?, h.parties] at hx
  rw [hx]

theorem Serving.of_new {maxSize : Nat} {wait : Option Nat} {first : Client}
    (h : Pool.new maxSize wait first = .ok p) : Serving p none := by
  unfold Pool.new at h
  split at h
  · cases h
  · rename_i hsize
    cases h
    exact ⟨rfl, rfl, Nat.pos_of_ne_zero hsize, rfl⟩

/-- The party goes on with something else. -/
theorem Serving.put {x : Party} (h : Serving p (some (t, x))) (y : Party) :
    Serving (p.put t y) (some (t, y)) := by
  refine ⟨?_, h.free, h.size, h.closed⟩
  simp [Pool.put, h.parties]

/-- The party leaves, and its slot is free again. -/
theorem Serving.leave {x : Party} (h : Serving p (some (t, x))) :
    Serving (p.leave t).freeSlot none := by
  have hparties : (p.leave t).parties = [] := by simp [Pool.leave, h.parties]
  have hline : (p.leave t).line = [] := by simp [Pool.line, hparties]
  have hfree : (p.leave t).freeSlot = { p.leave t with free := (p.leave t).free + 1 } := by
    unfold freeSlot
    rw [hline]
    split
    · rename_i heq
      cases heq
    · rfl
  rw [hfree]
  exact ⟨hparties, h.free, h.size, h.closed⟩

/-- A client that is lent is idle or is to be created. -/
theorem Serving.lend {x : Party} (h : Serving p (some (t, x))) (hvalid : ∀ c, isValid c = true)
    (heq : p.lend isValid t = (q, progress)) :
    progress = .create ∧ Serving q (some (t, .creating)) ∨
      ∃ c, progress = .lent c ∧ Serving q (some (t, .holding c)) := by
  unfold Pool.lend at heq
  cases hidle : p.idle with
  | nil =>
    rw [hidle] at heq
    cases heq
    exact Or.inl ⟨rfl, h.put .creating⟩
  | cons c rest =>
    rw [hidle] at heq
    simp only [hvalid, if_true] at heq
    cases heq
    have hrest : Serving { p with idle := rest } (some (t, x)) :=
      ⟨h.parties, h.free, h.size, h.closed⟩
    exact Or.inr ⟨c, rfl, hrest.put (.holding c)⟩

/-- When nobody has a slot, one is free. -/
theorem Serving.free_ne_zero (h : Serving p none) : p.free ≠ 0 := by
  have hsum := h.free
  have hsize := h.size
  simp only [Option.toList_none, List.length_nil] at hsum
  omega

/-- Whoever asks for a client gets one that is idle, or has to have one created. -/
theorem Serving.request (h : Serving p none) (hvalid : ∀ c, isValid c = true)
    (heq : p.request isValid now = (q, t, progress)) :
    progress = .create ∧ Serving q (some (t, .creating)) ∨
      ∃ c, progress = .lent c ∧ Serving q (some (t, .holding c)) := by
  have hfree := h.free_ne_zero
  have henter : Serving ({ p with free := p.free - 1 }.enter .granted)
      (some (p.nextTicket, .granted)) := by
    refine ⟨by simp [Pool.enter, h.parties], ?_, h.size, h.closed⟩
    have hsum := h.free
    simp only [Option.toList_none, List.length_nil] at hsum
    simp only [Pool.enter, Option.toList_some, List.length_singleton]
    omega
  simp only [Pool.request, if_neg h.not_closed, if_neg hfree] at heq
  obtain ⟨q', progress', hlend⟩ : ∃ q' progress',
      ({ p with free := p.free - 1 }.enter .granted).lend isValid p.nextTicket =
        (q', progress') := ⟨_, _, rfl⟩
  have hproceed : ({ p with free := p.free - 1 }.enter .granted).proceed isValid now p.nextTicket =
      (q', progress') := by
    simp only [Pool.proceed, henter.party?_eq]
    exact (if_neg h.not_closed).trans hlend
  rw [hproceed] at heq
  cases heq
  exact henter.lend hvalid hlend

/-- What comes of asking does not depend on the time, as nobody has to wait. -/
theorem Serving.request_now (h : Serving p none) (now' : Nat) :
    p.request isValid now' = p.request isValid now := by
  have hgranted : ({ p with free := p.free - 1 }.enter .granted).party? p.nextTicket =
      some .granted := by simp [Pool.party?, Pool.enter, h.parties]
  simp only [Pool.request, if_neg h.not_closed, if_neg h.free_ne_zero, Pool.proceed, hgranted]

/-- Whoever had a client created has it. -/
theorem Serving.created (h : Serving p (some (t, .creating)))
    (heq : p.created t (.ok ()) = (q, progress)) :
    ∃ c, progress = .lent c ∧ Serving q (some (t, .holding c)) := by
  simp only [Pool.created, h.party?_eq] at heq
  cases heq
  have hnew : Serving { p with nextClient := p.nextClient + 1, live := p.live + 1 }
      (some (t, .creating)) := ⟨h.parties, h.free, h.size, h.closed⟩
  exact ⟨_, rfl, hnew.put _⟩

/-- Whoever could not have a client created is gone. -/
theorem Serving.created_error (h : Serving p (some (t, .creating))) {e : StoreError}
    (heq : p.created t (.error e) = (q, progress)) :
    progress = .failed e.toConnectFailed ∧ Serving q none := by
  simp only [Pool.created, h.party?_eq] at heq
  cases heq
  exact ⟨rfl, h.leave⟩

theorem Serving.release (h : Serving p (some (t, .holding c))) (heq : p.release t = (q, left)) :
    left = none ∧ Serving q none := by
  simp only [Pool.release, h.party?_eq, if_neg h.not_closed] at heq
  cases heq
  have hidle : Serving { p with idle := c :: p.idle } (some (t, .holding c)) :=
    ⟨h.parties, h.free, h.size, h.closed⟩
  exact ⟨rfl, hidle.leave⟩

theorem Serving.invalidate (h : Serving p (some (t, .holding c)))
    (heq : p.invalidate t = (q, left)) : Serving q (some (t, .invalidating c)) := by
  simp only [Pool.invalidate, h.party?_eq] at heq
  cases heq
  have hlive : Serving { p with live := p.live - 1 } (some (t, .holding c)) :=
    ⟨h.parties, h.free, h.size, h.closed⟩
  exact hlive.put _

theorem Serving.invalidated (h : Serving p (some (t, .invalidating c))) :
    Serving (p.invalidated t) none := by
  have heq : p.invalidated t = (p.leave t).freeSlot := by
    simp only [Pool.invalidated, h.party?_eq]
  rw [heq]
  exact h.leave

end Depot.Pool
