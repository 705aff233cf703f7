import Depot.Proofs.Pool.Close

/-!
# The shown number

The number of clients that a pool shows goes up by one when a client is made, and down by one when
its destruction begins or it is let go of where nothing can run in the background. It is never taken
down from zero (`Steps.live_taken`). What it counts are the idle clients, the lent ones, those that
are to be destroyed in the background, and those that a closing party has not come to: as long as no
closing party is cancelled it is the number of these clients, each counted once (`live_exact`).
-/

set_option autoImplicit false

namespace Depot

namespace Party

/-- The client that is to be destroyed in the background. -/
def discarded : Party → List Client
  | discarding c => [c]
  | _ => []

/-- The clients that a closing party has taken and not come to. -/
def remaining : Party → List Client
  | closing _ rest => rest
  | _ => []

theorem queued_eq (x : Party) : x.queued = x.discarded ++ x.remaining := by
  cases x <;> rfl

theorem counted_eq (x : Party) : x.counted = x.borrowed.length + x.queued.length := by
  cases x <;> simp [counted, borrowed, queued]

/-- A party destroys, or is to destroy, what it has not begun to destroy. -/
theorem count_queued_le (x : Party) (c : Client) : x.queued.count c ≤ x.doomed.count c := by
  cases x <;> simp [queued, doomed, List.count_cons]

end Party

namespace Pool

variable {p q r : Pool} {t : Ticket} {x : Party} {next : Option Party} {es : List Event}
  {maxSize : Nat}

/-! ## The clients that are shown -/

/-- The clients that are to be destroyed in the background, as far as that has not begun. -/
def discarded (p : Pool) : List Client := p.parties.flatMap (·.2.discarded)

/-- The clients that closing parties have taken and not come to. -/
def remaining (p : Pool) : List Client := p.parties.flatMap (·.2.remaining)

/-- The clients in use or idle, and those whose destruction has not begun. -/
def shown (p : Pool) : List Client := p.idle ++ p.borrowed ++ p.discarded ++ p.remaining

theorem length_shown (p : Pool) : p.shown.length = p.idle.length + p.total Party.counted := by
  -- a party counts for what it has borrowed, is to destroy, or has not come to
  have hcounted : p.total Party.counted = p.total (fun x => x.borrowed.length) +
      (p.total (fun x => x.discarded.length) + p.total (fun x => x.remaining.length)) := by
    rw [← total_add, ← total_add]
    refine congrArg (fun f => p.total f) (funext fun x => ?_)
    rw [x.counted_eq, x.queued_eq, List.length_append]
  rw [hcounted, shown, borrowed, discarded, remaining, List.length_append, List.length_append,
    List.length_append, length_flatMap_eq_total, length_flatMap_eq_total, length_flatMap_eq_total]
  omega

/-- Whoever is shown is idle, lent, or on the way to be destroyed. -/
theorem count_shown_le (c : Client) (p : Pool) :
    p.shown.count c ≤ p.idle.count c + p.borrowed.count c + p.doomed.count c := by
  have hqueued : p.total (fun x => x.discarded.count c) + p.total (fun x => x.remaining.count c) ≤
      p.total (fun x => x.doomed.count c) := by
    rw [← total_add]
    refine total_le (fun x => ?_) p
    rw [← List.count_append, ← x.queued_eq]
    exact x.count_queued_le c
  rw [shown, List.count_append, List.count_append, List.count_append, discarded, remaining,
    count_flatMap_eq_total, count_flatMap_eq_total, count_doomed]
  omega

/-! ## The number goes up and down -/

/-- The number of times that the shown number is taken down. -/
def taken (es : List Event) : Nat := (begun es).length + (goneBy .letGo es).length

theorem taken_append (es fs : List Event) : taken (es ++ fs) = taken es + taken fs := by
  simp only [taken, begun_append, goneBy_append, List.length_append]
  omega

theorem Shift.live_taken (h : Shift p t x es r next) (hl : p.idle.length + x.counted ≤ p.live) :
    r.live + taken es + p.nextClient = p.live + r.nextClient := by
  cases h with
  | create hs _ | take hs _ => cases hs <;> simp [taken, begun, goneBy]
  | reject hs hi =>
    rw [hi, List.length_cons] at hl
    cases hs <;> simp [taken, begun, goneBy] <;> omega
  | created =>
    simp [taken, begun, goneBy]
    omega
  | abandon => simp [taken, begun, goneBy, List.filterMap_map]
  | invalidate | destroy | next | letGo =>
    -- the client that is taken was counted for its party
    simp only [Party.counted, List.length_cons] at hl
    simp [taken, begun, goneBy]
    omega
  | _ => simp [taken, begun, goneBy]

theorem Step.live_taken (hp : Table p) (hb : Balance maxSize p) (h : Step p es q) :
    q.live + taken es + p.nextClient = p.live + q.nextClient := by
  cases h with
  | advance ha =>
    cases ha with
    | stay => rfl
    | @go x es r next hx hs =>
      have hleave := total_leave Party.counted hp.nodup hx
      have hle := hb.counted_le
      rw [after_live, after_nextClient]
      exact hs.live_taken (by omega)
  | @drain c rest _ hi =>
    -- a closing party takes all that are idle, and destroys one of them at once
    have hidle : p.idle.length = rest.length + 1 := by
      rw [← List.length_reverse, hi, List.length_cons]
    have hle := hb.counted_le
    have htaken : taken (p.idle.map .withdrawn ++ [.begun c]) = 1 := by
      simp [taken, begun, goneBy, List.filterMap_map]
    rw [htaken]
    show p.live - 1 + 1 + p.nextClient = p.live + p.nextClient
    omega
  | _ => rfl

/-- The shown number goes up with each client that is made, and down by what is taken from it: it is
never taken down from zero. -/
theorem Steps.live_taken (hp : Table p) (hb : Balance maxSize p) (h : Steps p es q) :
    q.live + taken es + p.nextClient = p.live + q.nextClient := by
  induction h with
  | refl => rfl
  | tail h hs ih =>
    have hbooks := h.keep (P := fun p => Table p ∧ Balance maxSize p)
      (fun hs hp => ⟨hp.1.step hs, hp.2.step hp.1 hs⟩) ⟨hp, hb⟩
    have hstep := hs.live_taken hbooks.1 hbooks.2
    rw [taken_append]
    omega

/-! ## After every run -/

section Run

variable {wait : Option Nat} {first : Client}

/-- Nobody is shown twice. -/
theorem nodup_shown (h : Pool.new maxSize wait first = .ok p) (moves : List Move) :
    (p.run moves).shown.Nodup := by
  refine List.nodup_iff_count.2 fun c => ?_
  -- every client is at one place at most, and the shown places are some of these
  have hplaces := List.perm_iff_count.1 (places_perm h moves) c
  rw [List.count_append, List.count_append, List.count_append] at hplaces
  have hshown := count_shown_le c (p.run moves)
  have hmade := count_made_le first (p.run moves) c
  omega

/-- **The shown number is exact.** As long as no closing party is cancelled, a pool shows the number
of its clients that are idle, lent, to be destroyed in the background, or taken by a closing party
that has not come to them; and each of them is counted once. With every move the number goes up by
the clients that are made, and down by those whose destruction begins and those that are let go of
outside, so that it is never taken down from zero. -/
theorem live_exact (h : Pool.new maxSize wait first = .ok p) (moves : List Move)
    (hkept : goneBy .abandoned (p.log moves) = []) :
    let q := p.run moves
    q.live = q.idle.length + q.borrowed.length + q.discarded.length + q.remaining.length ∧
      (q.idle ++ q.borrowed ++ q.discarded ++ q.remaining).Nodup ∧
      ∀ m, (q.move m).live + (begun (q.events m)).length + (goneBy .letGo (q.events m)).length =
        q.live + ((q.move m).nextClient - q.nextClient) := by
  intro q
  obtain ⟨hq, hb⟩ : Table q ∧ Balance maxSize q := balance_run h moves
  refine ⟨?_, nodup_shown h moves, fun m => ?_⟩
  · have hlive := (steps_run p moves).live_eq (.of_new h) hkept (by rw [eq_of_new h]; rfl)
    have hlength := length_shown q
    rw [shown, List.length_append, List.length_append, List.length_append] at hlength
    rw [hlength]
    exact hlive
  · have hmove := steps_move q m
    have htaken := hmove.live_taken hq hb
    have hmade := Nat.sub_add_cancel (Ledger.steps hq hmove 0).next
    rw [taken] at htaken
    omega

/-- A pool of four is closed while one client is lent, one is to be destroyed in the background, and
two are idle. One of these is being destroyed at once; the three others are shown, and when the
closing party comes to the next one, they are two. -/
theorem live_exact_of_close :
    ∃ p, Pool.new 4 none 1 = .ok p ∧
      let moves := [.request (fun _ => true) 0, .created 0 (.ok ()), .request (fun _ => true) 0,
        .created 1 (.ok ()), .request (fun _ => true) 0, .created 2 (.ok ()),
        .request (fun _ => true) 0, .created 3 (.ok ()), .release 0, .release 1, .drop 2, .close]
      let q := p.run moves
      (goneBy .abandoned (p.log moves) = [] ∧ q.borrowed = [4] ∧ q.discarded = [3] ∧
        q.remaining = [2]) ∧
      q.live = q.idle.length + q.borrowed.length + q.discarded.length + q.remaining.length ∧
      (q.idle ++ q.borrowed ++ q.discarded ++ q.remaining).Nodup ∧
      (q.move (.closedOne 4)).live + 1 = 3 := by
  have hnew : Pool.new 4 none 1 = .ok ⟨4, none, 4, [], 0, false, [], 1, 0, []⟩ := rfl
  refine ⟨_, hnew, ?_⟩
  intro moves q
  have hkept :
      goneBy .abandoned (Pool.log ⟨4, none, 4, [], 0, false, [], 1, 0, []⟩ moves) = [] := by
    decide
  obtain ⟨hlive, hnodup, htaken⟩ := live_exact hnew moves hkept
  have hclosed := htaken (.closedOne 4)
  exact ⟨⟨hkept, by decide, by decide, by decide⟩, hlive, hnodup, hclosed⟩

end Run

end Pool

end Depot
