import Depot.Proofs.Pool.Live

/-!
# A closing party that is cancelled

A closing party takes all idle clients at once and destroys them one by one. When it is cancelled,
the client that it had in hand is gone, and those that it had not come to are lost: nobody will ever
destroy them, and they stay in the shown number (`lost`, `close_cancelled`). To close the pool again
does not help, as nobody is idle any more (`close_cancelled_loses_client`).

Whatever is destroyed, or was to be when it ended, has begun to be destroyed or is still queued
(`Steps.doomed_le`), so that the lost clients are exactly the difference between those that were
made and those whose destruction began.
-/

set_option autoImplicit false

namespace Depot.Pool

variable {p q r : Pool} {t : Ticket} {x : Party} {next : Option Party} {es fs : List Event}
  {c : Client} {maxSize : Nat}

/-- The clients that cancelled closing parties had not come to. -/
def lost (es : List Event) : List Client := (goneBy .abandoned es).filter (· ∉ begun es)

/-! ## What is destroyed has begun to be -/

theorem Shift.doomed_le (h : Shift p t x es r next) (c : Client) :
    (goneBy .destroyed es).count c + (goneBy .cutOff es).count c +
        next.elim 0 (·.doomed.count c) + x.queued.count c ≤
      x.doomed.count c + ((begun es).count c + next.elim 0 (·.queued.count c)) := by
  cases h with
  | create hs _ | take hs _ => cases hs <;> simp [Party.doomed, Party.queued, begun, goneBy]
  | reject hs _ => cases hs <;> simp [Party.doomed, Party.queued, begun, goneBy]
  | finish hx => rcases hx with rfl | rfl | rfl <;> simp [Party.doomed, Party.queued, begun, goneBy]
  | cutOff hx => rcases hx with rfl | rfl <;> simp [Party.doomed, Party.queued, begun, goneBy]
  | cancel _ | fail _ _ => simpa [begun, goneBy] using x.count_queued_le c
  | abandon =>
    -- those that the party had not come to are neither begun nor queued any more
    simp [Party.doomed, Party.queued, begun, goneBy, List.filterMap_map, List.count_cons]
  | next =>
    simp [Party.doomed, Party.queued, begun, goneBy, List.count_cons]
    omega
  | _ => simp [Party.doomed, Party.queued, begun, goneBy]

theorem Step.doomed_le (hp : Table p) (h : Step p es q) (c : Client) :
    (goneBy .destroyed es).count c + (goneBy .cutOff es).count c + q.total (·.doomed.count c) +
        p.total (·.queued.count c) ≤
      p.total (·.doomed.count c) + ((begun es).count c + q.total (·.queued.count c)) := by
  cases h with
  | advance ha =>
    cases ha with
    | stay => simp [begun, goneBy]
    | go hx hs =>
      have hdoomed := hs.total_after hp hx (f := (·.doomed.count c)) fun _ => rfl
      have hqueued := hs.total_after hp hx (f := (·.queued.count c)) fun _ => rfl
      have hshift := hs.doomed_le c
      omega
  | wait _ _ _ | grant _ _ =>
    rw [total_enter, total_enter]
    simp [begun, goneBy, Party.doomed, Party.queued, total]
  | @drain d rest called hi =>
    rw [total_enter, total_enter]
    simp only [begun, goneBy, Party.doomed, Party.queued, total, List.filterMap_append,
      List.filterMap_map, List.filterMap_cons, List.filterMap_nil, Function.comp_def,
      List.count_append, List.count_cons]
    simp
    omega
  | _ => simp [begun, goneBy, total]

/-- Whatever was destroyed, was cut off meanwhile or is to be destroyed has begun to be destroyed or
is queued, if nothing was to be destroyed before. -/
theorem Steps.doomed_le (hp : Table p) (h : Steps p es q) (c : Client) :
    (goneBy .destroyed es).count c + (goneBy .cutOff es).count c + q.total (·.doomed.count c) +
        p.total (·.queued.count c) ≤
      p.total (·.doomed.count c) + ((begun es).count c + q.total (·.queued.count c)) := by
  -- on the steps: what is destroyed was begun before, or is begun and queued no longer
  induction h with
  | refl => simp [begun, goneBy]
  | tail h hs ih =>
    have hstep := hs.doomed_le (hp.steps h) c
    rw [goneBy_append, goneBy_append, begun_append, List.count_append, List.count_append,
      List.count_append]
    omega

/-! ## What was lost -/

theorem mem_begun : c ∈ begun es ↔ .begun c ∈ es := by
  simp only [begun, List.mem_filterMap]
  constructor
  · rintro ⟨e, he, h⟩
    cases e <;> simp at h
    exact h ▸ he
  · exact fun h => ⟨_, h, rfl⟩

/-- A client is lost if it was left behind and its destruction has not begun. -/
theorem mem_lost : c ∈ lost es ↔ c ∈ goneBy .abandoned es ∧ .begun c ∉ es := by
  rw [lost, List.mem_filter, decide_eq_true_eq, mem_begun]

theorem count_lost (es : List Event) (c : Client) :
    (lost es).count c = if c ∈ begun es then 0 else (goneBy .abandoned es).count c := by
  split
  · rename_i hc
    exact List.count_eq_zero.2 fun hl => (mem_lost.1 hl).2 (mem_begun.1 hc)
  · rename_i hc
    exact List.count_filter (by simpa using hc)

section Run

variable {wait : Option Nat} {first : Client}

/-- Whatever has begun to be destroyed, or is queued, was taken out of use. -/
theorem started_run (h : Pool.new maxSize wait first = .ok p) (moves : List Move) (c : Client) :
    (begun (p.log moves)).count c + (p.run moves).total (·.queued.count c) ≤
      (withdrawn (p.log moves)).count c := by
  have hstarted := (Ledger.steps (.of_new h) (steps_run p moves) c).started
  obtain rfl := eq_of_new h
  simpa [total] using hstarted

/-- What a cancelled closing party had not come to is lost, whatever happens afterwards. -/
theorem lost_of_cancel (h : Pool.new maxSize wait first = .ok p) (moves : List Move)
    {rest : List Client} (hx : (p.run moves).party? t = some (.closing c rest)) {d : Client}
    (hd : d ∈ rest) (more : List Move) : d ∈ lost (p.log (moves ++ .cancel t :: more)) := by
  have hevents : (p.run moves).events (.cancel t) =
      .cancelled t :: (c :: rest).map (.gone · .abandoned) := by
    simp only [events, hx]
  have hleft : d ∈ goneBy .abandoned ((p.run moves).events (.cancel t)) := by
    rw [hevents, goneBy_abandoned]
    exact List.mem_cons_of_mem c hd
  have hgone : 0 < (gone ((p.run moves).events (.cancel t))).count d := by
    have hpos := List.count_pos_iff.2 hleft
    rw [count_gone]
    omega
  have hbegun : begun ((p.run moves).events (.cancel t)) = [] := by
    simp [hevents, begun, List.filterMap_map]
  have hwithdrawn : withdrawn ((p.run moves).events (.cancel t)) = [] := by
    simp [hevents, withdrawn, List.filterMap_map]
  have hrun : p.run (moves ++ [.cancel t]) = (p.run moves).move (.cancel t) := run_append p moves _
  have hlog : p.log (moves ++ .cancel t :: more) = p.log moves ++
      ((p.run moves).events (.cancel t) ++ ((p.run moves).move (.cancel t)).log more) := by
    rw [log_append, log_cons]
  -- until then it was queued, so that it was taken out of use and not begun
  have hqueued : 0 < (p.run moves).total (·.queued.count d) := by
    rw [← count_flatMap_eq_total Party.queued d]
    exact List.count_pos_iff.2 (List.mem_flatMap.2 ⟨_, mem_of_party? hx, hd⟩)
  have hbefore := started_run h moves d
  -- then it is gone, and no party has it
  have hthen := (ledger_run h (moves ++ [.cancel t]) d).2.1
  have hle := total_le (fun x => x.count_queued_le d) ((p.run moves).move (.cancel t))
  rw [hrun, count_doomed, log_append, log_cons, log_nil, List.append_nil, gone_append,
    withdrawn_append, List.count_append, List.count_append, hwithdrawn, List.count_nil] at hthen
  -- afterwards it is not taken out of use again
  have hq : Table (p.run moves) := (Table.of_new h).steps (steps_run p moves)
  have hafter := (Ledger.steps (hq.steps (steps_move (p.run moves) (.cancel t)))
    (steps_run ((p.run moves).move (.cancel t)) more) d).started
  have hused := (ledger_run h (moves ++ .cancel t :: more) d).1
  have hmade := count_made_le first (p.run (moves ++ .cancel t :: more)) d
  rw [hlog, withdrawn_append, withdrawn_append, hwithdrawn, List.nil_append,
    List.count_append] at hused
  refine mem_lost.2 ⟨?_, fun hb => ?_⟩
  · rw [hlog, goneBy_append, goneBy_append]
    exact List.mem_append_right _ (List.mem_append_left _ hleft)
  · have hpos := List.count_pos_iff.2 (mem_begun.2 hb)
    rw [hlog, begun_append, begun_append, hbegun, List.nil_append, List.count_append] at hpos
    omega

/-- When a closed pool is at its end, each client has begun to be destroyed or was lost, and what is
still shown are the lost ones. -/
theorem lost_run (h : Pool.new maxSize wait first = .ok p) (moves : List Move)
    (hc : (p.run moves).closed = true) (hletGo : goneBy .letGo (p.log moves) = [])
    (hleft : ∀ w ∈ (p.run moves).parties, w.2.role = .acquisition ∨ w.2.role = .invalidation) :
    (p.run moves).live = (lost (p.log moves)).length ∧
      (begun (p.log moves) ++ lost (p.log moves)).Perm ((p.run moves).made first) := by
  have hidle := (shut_run h moves hc).2
  have hborrowed : (p.run moves).borrowed = [] := by
    refine List.flatMap_eq_nil_iff.2 fun w hw => ?_
    have hrole := hleft w hw
    cases hw2 : w.2 <;> simp_all [Party.role, Party.borrowed]
  have hqueued : ∀ c, (p.run moves).total (·.queued.count c) = 0 := by
    intro c
    refine List.sum_eq_zero fun n hn => ?_
    obtain ⟨w, hw, rfl⟩ := List.mem_map.1 hn
    have hrole := hleft w hw
    cases hw2 : w.2 <;> simp_all [Party.role, Party.queued]
  have hperm : (begun (p.log moves) ++ lost (p.log moves)).Perm ((p.run moves).made first) := by
    refine List.perm_iff_count.2 fun c => ?_
    obtain ⟨hused, hended, hstarted⟩ := ledger_run h moves c
    have hmade := count_made_le first (p.run moves) c
    have hdoomed := (steps_run p moves).doomed_le (.of_new h) c
    rw [hqueued, ← count_doomed] at hdoomed
    rw [hidle, hborrowed] at hused
    rw [count_gone, hletGo] at hended
    simp only [List.count_nil] at hused hended
    rw [List.count_append, count_lost]
    have hnone : p.total (·.doomed.count c) = 0 := by
      rw [eq_of_new h]
      rfl
    by_cases hb : c ∈ begun (p.log moves)
    · -- it has begun to be destroyed, once
      have hpos := List.count_pos_iff.2 hb
      rw [if_pos hb]
      omega
    · have hzero := List.count_eq_zero.2 hb
      rw [if_neg hb]
      omega
  refine ⟨?_, hperm⟩
  -- whatever was made is shown until it begins to be destroyed
  have htaken := (steps_run p moves).live_taken (.of_new h) (.of_new h)
  have hlength := hperm.length_eq
  rw [List.length_append, made, List.length_range'] at hlength
  rw [taken, hletGo, List.length_nil] at htaken
  have hlive : p.live = 0 ∧ p.nextClient = first := by
    rw [eq_of_new h]
    exact ⟨rfl, rfl⟩
  rw [hlive.1, hlive.2] at htaken
  omega

/-- **What a cancelled closing party leaves behind.** The clients that it had not come to are lost
for good. When a pool is closed, whether again or not, no client was let go of outside, and nobody
is left but acquisitions and borrowers that destroy their client, then each client that was made has
begun to be destroyed, once, or was lost, and the number of the lost ones is still shown. -/
theorem close_cancelled (h : Pool.new maxSize wait first = .ok p) (moves : List Move) :
    let q := p.run moves
    let log := p.log moves
    (∀ t c rest, q.party? t = some (.closing c rest) →
        ∀ d ∈ rest, ∀ more, d ∈ lost (p.log (moves ++ .cancel t :: more))) ∧
      (q.closed = true → goneBy .letGo log = [] →
        (∀ w ∈ q.parties, w.2.role = .acquisition ∨ w.2.role = .invalidation) →
        q.live = (lost log).length ∧ (begun log ++ lost log).Perm (q.made first)) :=
  ⟨fun _ _ _ hx _ hd more => lost_of_cancel h moves hx hd more, lost_run h moves⟩

/-- Two clients are idle when a pool is closed, and the closing party is cancelled. -/
theorem close_cancelled_of_two :
    ∃ p, Pool.new 2 none 1 = .ok p ∧
      let before := [.request (fun _ => true) 0, .created 0 (.ok ()), .request (fun _ => true) 0,
        .created 1 (.ok ()), .release 0, .release 1, .close]
      let moves := before ++ [.cancel 2]
      let q := p.run moves
      let log := p.log moves
      ((p.run before).party? 2 = some (.closing 1 [2]) ∧ q.closed = true ∧
        goneBy .letGo log = [] ∧
        ∀ w ∈ q.parties, w.2.role = .acquisition ∨ w.2.role = .invalidation) ∧
      (∀ more, 2 ∈ lost (p.log (before ++ .cancel 2 :: more))) ∧
      q.live = (lost log).length ∧ (begun log ++ lost log).Perm [1, 2] := by
  have hnew : Pool.new 2 none 1 = .ok ⟨2, none, 2, [], 0, false, [], 1, 0, []⟩ := rfl
  refine ⟨_, hnew, ?_⟩
  intro before moves q log
  have hclosing : (Pool.run ⟨2, none, 2, [], 0, false, [], 1, 0, []⟩ before).party? 2 =
      some (.closing 1 [2]) := by decide
  have hclosed : q.closed = true := by decide
  have hletGo : goneBy .letGo log = [] := by decide
  have hleft : ∀ w ∈ q.parties, w.2.role = .acquisition ∨ w.2.role = .invalidation := by decide
  obtain ⟨hlost, -⟩ := close_cancelled hnew before
  obtain ⟨-, hend⟩ := close_cancelled hnew moves
  exact ⟨⟨hclosing, hclosed, hletGo, hleft⟩,
    fun more => hlost 2 1 [2] hclosing 2 (List.mem_singleton.2 rfl) more,
    hend hclosed hletGo hleft⟩

/-- Two clients are idle when a pool is closed, the closing party is cancelled, and the pool is
closed again. Then nothing is open and no party is left, but one of the two clients is still shown,
and its destruction has not begun. -/
theorem close_cancelled_loses_client :
    ∃ p, Pool.new 2 none 1 = .ok p ∧
      let before := [.request (fun _ => true) 0, .created 0 (.ok ()), .request (fun _ => true) 0,
        .created 1 (.ok ()), .release 0, .release 1]
      let moves := before ++ [.close, .cancel 2, .close]
      let q := p.run moves
      let log := p.log moves
      ((p.run before).closed = false ∧ (p.run before).idle = [2, 1]) ∧
        (q.closed = true ∧ q.Settled ∧ q.parties = [] ∧ goneBy .letGo log = []) ∧
        q.live = 1 ∧ .begun 2 ∉ log := by
  refine ⟨_, rfl, ⟨by decide, by decide⟩, ⟨by decide, ?_, by decide, by decide⟩, by decide, ?_⟩
  · rfl
  · decide

end Run

end Depot.Pool
