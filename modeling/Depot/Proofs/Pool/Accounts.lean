import Depot.Proofs.Pool.Close
import Depot.Proofs.Pool.Parties

/-!
# The accounts of a pool

What the moves of a pool come to for somebody who counts clients: how many were made, and which ones
began to be destroyed (`Accounts`). As long as no client is let go of outside, and no closing party
leaves any behind, whatever is taken out of use begins to be destroyed (`Steps.begun_add`). So when
the pool is empty, that has happened to every client that was made, once (`Accounts.perm_made`).
-/

set_option autoImplicit false

namespace Depot.Pool

variable {p q r : Pool} {t : Ticket} {x : Party} {next : Option Party} {es fs : List Event}
  {c : Client} {cs ds : List Client} {k k' : Nat}

/-! ## No client is lost -/

/-- No client is let go of outside, and no closing party leaves any behind. -/
structure NoneLost (es : List Event) : Prop where
  letGo : goneBy .letGo es = []
  abandoned : goneBy .abandoned es = []

theorem noneLost_append : NoneLost (es ++ fs) ↔ NoneLost es ∧ NoneLost fs := by
  constructor
  · rintro ⟨hl, ha⟩
    rw [goneBy_append, List.append_eq_nil_iff] at hl ha
    exact ⟨⟨hl.1, ha.1⟩, ⟨hl.2, ha.2⟩⟩
  · rintro ⟨⟨hl, ha⟩, ⟨hl', ha'⟩⟩
    constructor
    · rw [goneBy_append, hl, hl', List.append_nil]
    · rw [goneBy_append, ha, ha', List.append_nil]

/-- If none is lost, whatever a party takes out of use begins to be destroyed, or is queued to. -/
theorem Shift.begun_add (h : Shift p t x es r next) (hes : NoneLost es) (c : Client) :
    (begun es).count c + next.elim 0 (·.queued.count c) =
      x.queued.count c + (withdrawn es).count c := by
  cases h with
  | create hs _ | take hs _ | reject hs _ =>
    cases hs <;> simp [Party.queued, begun, withdrawn]
  -- the two ways to lose a client are ruled out
  | letGo => exact absurd hes.letGo (by simp [goneBy])
  | abandon =>
    have hlost := hes.abandoned
    rw [goneBy_abandoned] at hlost
    cases hlost
  | finish hx => rcases hx with rfl | rfl | rfl <;> simp [Party.queued, begun, withdrawn]
  | cutOff hx => rcases hx with rfl | rfl <;> simp [Party.queued, begun, withdrawn]
  | cancel hx | fail hx =>
    -- who has no client has none queued either
    have hqueued : x.queued = [] := by
      cases x <;> simp_all [Party.clients, Party.queued]
    simp [hqueued, begun, withdrawn]
  | next => simp [Party.queued, begun, withdrawn, List.count_cons, Nat.add_comm]
  | _ => simp [Party.queued, begun, withdrawn]

theorem Step.begun_add (hp : Table p) (h : Step p es q) (hes : NoneLost es) (c : Client) :
    (begun es).count c + q.total (·.queued.count c) =
      p.total (·.queued.count c) + (withdrawn es).count c := by
  cases h with
  | advance ha =>
    cases ha with
    | stay => exact Nat.add_comm _ _
    | go hx hs =>
      have htotal := hs.total_after hp hx (f := (·.queued.count c)) fun _ => rfl
      have hbegun := hs.begun_add hes c
      omega
  | wait _ _ _ | grant _ _ =>
    rw [total_enter]
    exact Nat.add_comm _ _
  | @drain d rest called hi =>
    -- all idle clients are taken out of use; the first one is destroyed, the others are queued
    have hcount : p.idle.count c = (d :: rest).count c := by
      rw [← hi, List.count_reverse]
    have hwithdrawn : withdrawn (p.idle.map .withdrawn ++ [.begun d]) = p.idle := by
      simp [withdrawn, List.filterMap_map]
    have hbegun : begun (p.idle.map .withdrawn ++ [.begun d]) = [d] := by
      simp [begun, List.filterMap_map]
    rw [total_enter, hwithdrawn, hbegun, hcount]
    show _ + (p.total (·.queued.count c) + rest.count c) = _
    rw [List.count_cons, List.count_cons, List.count_nil]
    omega
  | _ => exact Nat.add_comm _ _

theorem Steps.begun_add (hp : Table p) (h : Steps p es q) (hes : NoneLost es) (c : Client) :
    (begun es).count c + q.total (·.queued.count c) =
      p.total (·.queued.count c) + (withdrawn es).count c := by
  induction h with
  | refl => exact Nat.add_comm _ _
  | tail h hs ih =>
    obtain ⟨hfirst, hlast⟩ := noneLost_append.1 hes
    have hbefore := ih hfirst
    have hstep := hs.begun_add (hp.steps h) hlast c
    rw [begun_append, withdrawn_append, List.count_append, List.count_append]
    omega

/-! ## Accounts -/

/-- Some steps lead from a pool to another one; a number of clients are made meanwhile, those of a
list begin to be destroyed, in order, and none is lost. -/
structure Accounts (p : Pool) (made : Nat) (ruined : List Client) (q : Pool) : Prop where
  steps : ∃ es, Steps p es q ∧ NoneLost es ∧ begun es = ruined
  next : q.nextClient = p.nextClient + made

namespace Accounts

theorem refl (p : Pool) : Accounts p 0 [] p := ⟨⟨[], .refl, ⟨rfl, rfl⟩, rfl⟩, rfl⟩

theorem trans (h : Accounts p k cs q) (h' : Accounts q k' ds r) :
    Accounts p (k + k') (cs ++ ds) r := by
  obtain ⟨⟨es, hsteps, hes, rfl⟩, hnext⟩ := h
  obtain ⟨⟨fs, hsteps', hfs, rfl⟩, hnext'⟩ := h'
  refine ⟨⟨es ++ fs, hsteps.trans hsteps', noneLost_append.2 ⟨hes, hfs⟩, begun_append es fs⟩, ?_⟩
  rw [hnext', hnext, Nat.add_assoc]

/-- News are of no account. -/
theorem hear (h : Accounts p k cs q) (called : List Ticket) :
    Accounts p k cs { q with called } := by
  obtain ⟨⟨es, hsteps, hes, rfl⟩, hnext⟩ := h
  refine ⟨⟨es ++ [], hsteps.tail (.hear called), ?_, by rw [List.append_nil]⟩, hnext⟩
  rwa [List.append_nil]

/-- One party gets on. -/
theorem of_shift (hx : p.party? t = some x) (h : Shift p t x es r next) (hes : NoneLost es)
    (hnext : r.nextClient = p.nextClient + k) : Accounts p k (begun es) (r.after t x next) :=
  ⟨⟨es, (Step.advance (.go hx h)).steps, hes, rfl⟩, by rw [after_nextClient, hnext]⟩

end Accounts

/-! ## Acquiring -/

/-- The client that an acquisition begins to destroy. -/
def Progress.ruined : Progress → List Client
  | reject c => [c]
  | _ => []

theorem lend_accounts (isValid : Client → Bool) (hx : p.party? t = some x) (hs : Seeks p x es) :
    Accounts p 0 (lend isValid t p).2.ruined (lend isValid t p).1 := by
  have hes : NoneLost es ∧ begun es = [] := by
    cases hs with
    | granted _ => exact ⟨⟨rfl, rfl⟩, rfl⟩
    | rejecting c => exact ⟨⟨rfl, rfl⟩, rfl⟩
  unfold lend
  split
  · rename_i hi
    have h : Accounts p 0 (begun es) _ := .of_shift hx (.create hs hi) hes.1 rfl
    rw [hes.2] at h
    exact h
  · rename_i c rest hi
    split
    · have h : Accounts p 0 _ _ :=
        .of_shift hx (.take (c := c) hs hi) (noneLost_append.2 ⟨hes.1, ⟨rfl, rfl⟩⟩) rfl
      rw [begun_append, hes.2] at h
      exact h
    · have h : Accounts p 0 _ _ :=
        .of_shift hx (.reject (c := c) hs hi) (noneLost_append.2 ⟨hes.1, ⟨rfl, rfl⟩⟩) rfl
      rw [begun_append, hes.2] at h
      exact h

theorem proceed_accounts (isValid : Client → Bool) (now : Nat) (t : Ticket) (p : Pool) :
    Accounts p 0 (p.proceed isValid now t).2.ruined (p.proceed isValid now t).1 := by
  unfold proceed
  split
  · rename_i d hx
    split
    · exact .of_shift hx (.fail (e := .poolClosed) rfl fun _ _ => rfl) ⟨rfl, rfl⟩ rfl
    · rename_i hc
      split
      · exact .of_shift hx (.fail (e := p.exhausted) rfl fun h => absurd h hc) ⟨rfl, rfl⟩ rfl
      · exact .refl p
  · rename_i hx
    split
    · exact .of_shift hx (.fail (e := .poolClosed) rfl fun _ _ => rfl) ⟨rfl, rfl⟩ rfl
    · rename_i hc
      exact lend_accounts isValid hx (.granted (by simpa using hc))
  · exact .refl p

theorem request_accounts (isValid : Client → Bool) (now : Nat) (p : Pool) :
    Accounts p 0 (p.request isValid now).2.2.ruined (p.request isValid now).1 := by
  cases hc : p.closed with
  | true =>
    rw [request_of_closed isValid now hc]
    exact .refl p
  | false =>
    obtain ⟨q, hq, e⟩ := request_of_open isValid now hc
    have henter : Accounts p 0 [] q := by
      rcases hq with ⟨rfl, hf⟩ | ⟨rfl, hf⟩
      · exact ⟨⟨[], (Step.wait _ hc hf).steps, ⟨rfl, rfl⟩, rfl⟩, rfl⟩
      · exact ⟨⟨[], (Step.grant hc hf).steps, ⟨rfl, rfl⟩, rfl⟩, rfl⟩
    have h := henter.trans (proceed_accounts isValid now p.nextTicket q)
    rw [e]
    exact h

theorem rejected_accounts (isValid : Client → Bool) (t : Ticket) (p : Pool) :
    Accounts p 0 (p.rejected isValid t).2.ruined (p.rejected isValid t).1 := by
  unfold rejected
  split
  · rename_i c hx
    exact lend_accounts isValid hx (.rejecting c)
  · exact .refl p

/-- A client is made if its creation has succeeded. -/
theorem created_accounts (hx : p.party? t = some .creating) (result : Except StoreError Unit) :
    Accounts p result.toOption.toList.length (p.created t result).2.ruined
      (p.created t result).1 := by
  simp only [created, hx]
  cases result with
  | ok _ => exact .of_shift hx .created ⟨rfl, rfl⟩ rfl
  | error e =>
    exact .of_shift hx (.fail (e := e.toConnectFailed) rfl fun _ h => absurd rfl h) ⟨rfl, rfl⟩ rfl

/-! ## Giving back, destroying and closing -/

theorem release_accounts (t : Ticket) (p : Pool) : Accounts p 0 [] (p.release t).1 := by
  unfold release
  split
  · rename_i c hx
    split
    · exact .of_shift hx .discard ⟨rfl, rfl⟩ rfl
    · rename_i hc
      exact .of_shift hx (.giveBack (by simpa using hc)) ⟨rfl, rfl⟩ rfl
  · exact .refl p

theorem drop_accounts (t : Ticket) (p : Pool) : Accounts p 0 [] (p.drop t).1 := by
  unfold drop
  split
  · rename_i c hx
    exact .of_shift hx .discard ⟨rfl, rfl⟩ rfl
  · exact .refl p

theorem invalidate_accounts (t : Ticket) (p : Pool) :
    Accounts p 0 (p.invalidate t).2.toList (p.invalidate t).1 := by
  unfold invalidate
  split
  · rename_i c hx
    exact .of_shift hx .invalidate ⟨rfl, rfl⟩ rfl
  · exact .refl p

theorem invalidated_accounts (t : Ticket) (p : Pool) : Accounts p 0 [] (p.invalidated t) := by
  unfold invalidated
  split
  · rename_i c hx
    exact .of_shift hx (.finish (Or.inl rfl)) ⟨rfl, rfl⟩ rfl
  · exact .refl p

theorem startDestroy_accounts (t : Ticket) (p : Pool) :
    Accounts p 0 (p.startDestroy t).2.toList (p.startDestroy t).1 := by
  unfold startDestroy
  split
  · rename_i c hx
    exact .of_shift hx .destroy ⟨rfl, rfl⟩ rfl
  · exact .refl p

theorem destroyed_accounts (t : Ticket) (p : Pool) : Accounts p 0 [] (p.destroyed t) := by
  unfold destroyed
  split
  · rename_i c hx
    exact .of_shift hx (.finish (Or.inr (Or.inl rfl))) ⟨rfl, rfl⟩ rfl
  · exact .refl p

theorem closedOne_accounts (t : Ticket) (p : Pool) :
    Accounts p 0 (p.closedOne t).2.toList (p.closedOne t).1 := by
  unfold closedOne
  split
  · rename_i c d rest hx
    exact .of_shift hx .next ⟨rfl, rfl⟩ rfl
  · rename_i c hx
    exact .of_shift hx (.finish (Or.inr (Or.inr rfl))) ⟨rfl, rfl⟩ rfl
  · exact .refl p

theorem close_accounts (p : Pool) : Accounts p 0 (p.close.2.map (·.2)).toList p.close.1 := by
  have hsteps := (close_step p).steps
  simp only [events, close] at hsteps ⊢
  cases hi : p.idle.reverse with
  | nil =>
    rw [hi] at hsteps
    exact ⟨⟨_, hsteps, ⟨rfl, rfl⟩, rfl⟩, rfl⟩
  | cons c rest =>
    rw [hi] at hsteps
    refine ⟨⟨_, hsteps, ⟨?_, ?_⟩, ?_⟩, rfl⟩
    · simp [goneBy, List.filterMap_map]
    · simp [goneBy, List.filterMap_map]
    · simp [begun, List.filterMap_map]

/-- Whoever is cancelled in line has no client. -/
theorem cancel_accounts (hx : p.party? t = some x) (hw : x = .granted ∨ ∃ d, x = .waiting d) :
    Accounts p 0 [] (p.cancel t) := by
  unfold cancel
  rw [hx]
  rcases hw with rfl | ⟨d, rfl⟩
  · exact .of_shift hx (.cancel rfl) ⟨rfl, rfl⟩ rfl
  · exact .of_shift hx (.cancel rfl) ⟨rfl, rfl⟩ rfl

/-! ## The end of a pool -/

section End

variable {maxSize : Nat} {wait : Option Nat} {first : Client}

/-- Only clients that were made begin to be destroyed. -/
theorem Accounts.mem_made (hnew : Pool.new maxSize wait first = .ok p) (h : Accounts p k cs q)
    (hc : c ∈ cs) : c ∈ q.made first := by
  obtain ⟨⟨es, hsteps, -, rfl⟩, -⟩ := h
  obtain ⟨-, hused, -, hstarted⟩ := Ledger.steps (.of_new hnew) hsteps c
  have hpos := List.count_pos_iff.2 hc
  obtain rfl := eq_of_new hnew
  simp only [total, List.map_nil, List.sum_nil, List.count_nil] at hused hstarted
  exact List.count_pos_iff.1 (by omega)

/-- Nobody is idle in a closed pool. -/
theorem Accounts.idle_of_closed (hnew : Pool.new maxSize wait first = .ok p)
    (h : Accounts p k cs q) (hclosed : q.closed = true) : q.idle = [] := by
  obtain ⟨⟨es, hsteps, -, -⟩, -⟩ := h
  obtain rfl := eq_of_new hnew
  exact hsteps.keep (P := fun q => q.closed = true → q.idle = []) (fun hs => hs.idle_of_closed)
    (fun _ => rfl) hclosed

/-- **Nothing is left of an empty pool.** If nobody is idle and all parties are gone, every client
that was made has begun to be destroyed, once, and none is shown. -/
theorem Accounts.perm_made (hnew : Pool.new maxSize wait first = .ok p) (h : Accounts p k cs q)
    (hidle : q.idle = []) (hparties : q.parties = []) : cs.Perm (q.made first) ∧ q.live = 0 := by
  obtain ⟨⟨es, hsteps, hes, rfl⟩, -⟩ := h
  have hempty : ∀ f : Party → Nat, q.total f = 0 := by
    intro f
    rw [total, hparties]
    rfl
  constructor
  · -- each client that was made was taken out of use, and so has begun to be destroyed
    refine List.perm_iff_count.2 fun c => ?_
    have hbegun := hsteps.begun_add (.of_new hnew) hes c
    have hused := (Ledger.steps (.of_new hnew) hsteps c).used
    rw [hempty, hidle] at hused
    rw [hempty] at hbegun
    obtain rfl := eq_of_new hnew
    simp only [total, List.map_nil, List.sum_nil, List.count_nil] at hused hbegun
    omega
  · have hlive := hsteps.live_eq (.of_new hnew) hes.abandoned (by rw [eq_of_new hnew]; rfl)
    rw [hidle, hempty] at hlive
    exact hlive

end End

end Depot.Pool
