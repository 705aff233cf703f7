import Depot.Proofs.Pool.Step

/-!
# The lives of the clients

A client is created, is idle and lent out in turns, is taken out of use once, and is destroyed. What
is created, taken out of use and gone is entered in the log, and after every run the entries agree
with what is there (`Ledger`): the clients in use and those taken out of use are the ones created,
and those taken out of use are the ones that are being destroyed or gone. As numbers of clients are
not used twice, each client is at one place (`lifecycle`).
-/

set_option autoImplicit false

namespace Depot

/-- The clients that a party is to destroy, as far as it has not begun. -/
def Party.queued : Party → List Client
  | discarding c => [c]
  | closing _ rest => rest
  | _ => []

theorem Party.borrowed_eq_nil {x : Party} (h : x.clients = []) : x.borrowed = [] := by
  cases x <;> simp_all [clients, borrowed]

theorem Party.doomed_eq_nil {x : Party} (h : x.clients = []) : x.doomed = [] := by
  cases x <;> simp_all [clients, doomed]

namespace Pool

variable {p q r : Pool} {t : Ticket} {x : Party} {next : Option Party} {es fs : List Event}
  {c : Client}

/-! ## The ledger -/

/-- Idle clients, lent clients and those that were taken out of use come from those that were idle
or lent before and from newly created ones; those taken out of use are being destroyed or gone; and
nothing but what was taken out of use begins to be destroyed. -/
structure Ledger (c : Client) (p : Pool) (es : List Event) (q : Pool) : Prop where
  next : p.nextClient ≤ q.nextClient
  used : q.idle.count c + q.total (·.borrowed.count c) + (withdrawn es).count c =
    p.idle.count c + p.total (·.borrowed.count c) + (q.made p.nextClient).count c
  ended : q.total (·.doomed.count c) + (gone es).count c =
    p.total (·.doomed.count c) + (withdrawn es).count c
  started : (begun es).count c + q.total (·.queued.count c) ≤
    p.total (·.queued.count c) + (withdrawn es).count c

theorem count_borrowed (c : Client) (p : Pool) :
    p.borrowed.count c = p.total (·.borrowed.count c) := count_flatMap_eq_total Party.borrowed c p

theorem count_doomed (c : Client) (p : Pool) :
    p.doomed.count c = p.total (·.doomed.count c) := count_flatMap_eq_total Party.doomed c p

theorem made_self (p : Pool) : p.made p.nextClient = [] := by
  rw [made, Nat.sub_self]
  rfl

theorem made_append (hp : p.nextClient ≤ q.nextClient) (hq : q.nextClient ≤ r.nextClient) :
    r.made p.nextClient = q.made p.nextClient ++ r.made q.nextClient := by
  have hlast : p.nextClient + 1 * (q.nextClient - p.nextClient) = q.nextClient := by
    rw [Nat.one_mul, Nat.add_sub_of_le hp]
  have hlen : q.nextClient - p.nextClient + (r.nextClient - q.nextClient) =
      r.nextClient - p.nextClient := by
    rw [Nat.add_comm, Nat.sub_add_sub_cancel hq hp]
  rw [made, made, made, ← hlen, ← List.range'_append, hlast]

theorem mem_made {first : Client} : c ∈ p.made first ↔ first ≤ c ∧ c < p.nextClient := by
  have hbounds : ∀ a m n : Nat, a ≤ m ∧ m < a + (n - a) ↔ a ≤ m ∧ m < n := by omega
  rw [made, List.mem_range'_1]
  exact hbounds first c p.nextClient

theorem nodup_made (first : Client) (p : Pool) : (p.made first).Nodup := List.nodup_range'

namespace Ledger

theorem refl (c : Client) (p : Pool) : Ledger c p [] p := by
  refine ⟨Nat.le_refl _, ?_, rfl, ?_⟩
  · rw [made_self]
    rfl
  · rw [Nat.add_comm]
    exact Nat.le_refl _

theorem trans (h : Ledger c p es q) (h' : Ledger c q fs r) : Ledger c p (es ++ fs) r := by
  have hused := h.used
  have hused' := h'.used
  have hended := h.ended
  have hended' := h'.ended
  have hstarted := h.started
  have hstarted' := h'.started
  refine ⟨Nat.le_trans h.next h'.next, ?_, ?_, ?_⟩
  · rw [made_append h.next h'.next, withdrawn_append, List.count_append, List.count_append]
    omega
  · rw [gone_append, withdrawn_append, List.count_append, List.count_append]
    omega
  · rw [begun_append, withdrawn_append, List.count_append, List.count_append]
    omega

/-- Nothing changes for the clients. -/
theorem of_eq (hi : q.idle = p.idle) (hp : q.parties = p.parties)
    (hn : q.nextClient = p.nextClient) : Ledger c p [] q := by
  refine ⟨Nat.le_of_eq hn.symm, ?_, ?_, ?_⟩
  · rw [hi, total_congr _ hp, ← hn, made_self]
    rfl
  · rw [total_congr _ hp]
    rfl
  · rw [total_congr _ hp, Nat.add_comm]
    exact Nat.le_refl _

end Ledger

/-! ## One party gets on -/

theorem Shift.nextClient_le (h : Shift p t x es r next) : p.nextClient ≤ r.nextClient := by
  cases h with
  | created => exact Nat.le_succ _
  | _ => exact Nat.le_refl _

theorem Shift.used (h : Shift p t x es r next) (c : Client) :
    r.idle.count c + next.elim 0 (·.borrowed.count c) + (withdrawn es).count c =
      p.idle.count c + x.borrowed.count c + (r.made p.nextClient).count c := by
  cases h with
  | create hs hi => cases hs <;> simp [made, Party.borrowed, withdrawn]
  | take hs hi => cases hs <;> simp [made, Party.borrowed, withdrawn, hi, List.count_cons]
  | reject hs hi => cases hs <;> simp [made, Party.borrowed, withdrawn, hi, List.count_cons]
  | finish hx => rcases hx with rfl | rfl | rfl <;> simp [made, Party.borrowed, withdrawn]
  | cutOff hx => rcases hx with rfl | rfl <;> simp [made, Party.borrowed, withdrawn]
  | cancel hx | fail hx => simp [made, withdrawn, Party.borrowed_eq_nil hx]
  | abandon => simp [made, Party.borrowed, withdrawn, List.filterMap_map]
  | _ => simp [made, Party.borrowed, withdrawn, List.count_cons]

theorem Shift.ended (h : Shift p t x es r next) (c : Client) :
    next.elim 0 (·.doomed.count c) + (gone es).count c =
      x.doomed.count c + (withdrawn es).count c := by
  cases h with
  | create hs _ | take hs _ => cases hs <;> simp [Party.doomed, gone, withdrawn]
  | reject hs _ => cases hs <;> simp [Party.doomed, gone, withdrawn, Nat.add_comm]
  | finish hx => rcases hx with rfl | rfl | rfl <;> simp [Party.doomed, gone, withdrawn]
  | cutOff hx => rcases hx with rfl | rfl <;> simp [Party.doomed, gone, withdrawn]
  | cancel hx | fail hx => simp [gone, withdrawn, Party.doomed_eq_nil hx]
  | abandon => simp [Party.doomed, gone, withdrawn, List.filterMap_map]
  | next => simp [Party.doomed, gone, withdrawn, List.count_cons, Nat.add_comm]
  | _ => simp [Party.doomed, gone, withdrawn]

theorem Shift.started (h : Shift p t x es r next) (c : Client) :
    (begun es).count c + next.elim 0 (·.queued.count c) ≤
      x.queued.count c + (withdrawn es).count c := by
  cases h with
  | create hs _ | take hs _ | reject hs _ =>
    cases hs <;> simp [Party.queued, begun, withdrawn]
  | cancel _ | fail _ => simp [begun, withdrawn]
  | abandon => simp [Party.queued, begun, withdrawn, List.filterMap_map]
  | next => simp [Party.queued, begun, withdrawn, List.count_cons, Nat.add_comm]
  | _ => simp [Party.queued, begun, withdrawn]

theorem Ledger.advance (hp : Table p) (ha : Advances p t es q) (c : Client) : Ledger c p es q := by
  cases ha with
  | stay => exact .refl c p
  | @go x es r next hx hs =>
    have hborrowed := hs.total_after hp hx (f := (·.borrowed.count c)) fun _ => rfl
    have hdoomed := hs.total_after hp hx (f := (·.doomed.count c)) fun _ => rfl
    have hqueued := hs.total_after hp hx (f := (·.queued.count c)) fun _ => rfl
    have hused := hs.used c
    have hended := hs.ended c
    have hstarted := hs.started c
    refine ⟨?_, ?_, ?_, ?_⟩
    · rw [after_nextClient]
      exact hs.nextClient_le
    · have hmade : (r.after t x next).made p.nextClient = r.made p.nextClient := by
        rw [made, made, after_nextClient]
      rw [hmade, after_idle]
      omega
    · omega
    · omega

/-! ## All steps -/

theorem Ledger.enter (c : Client) (p : Pool) (h : x.clients = []) : Ledger c p [] (p.enter x) := by
  have hqueued : x.queued = [] := by
    cases x <;> simp_all [Party.clients, Party.queued]
  refine ⟨Nat.le_refl _, ?_, ?_, ?_⟩
  · have hmade : (p.enter x).made p.nextClient = [] := made_self p
    rw [total_enter, Party.borrowed_eq_nil h, hmade]
    rfl
  · rw [total_enter, Party.doomed_eq_nil h]
    rfl
  · rw [total_enter, hqueued, Nat.add_comm]
    exact Nat.le_refl _

theorem Ledger.step (hp : Table p) (h : Step p es q) (c : Client) : Ledger c p es q := by
  cases h with
  | advance ha => exact .advance hp ha c
  | refuse _ =>
    have h := Ledger.refl c p
    exact ⟨h.next, h.used, h.ended, h.started⟩
  | wait d _ _ => exact .enter c p rfl
  | grant _ _ =>
    have h : Ledger c p [] { p with free := p.free - 1 } := .of_eq rfl rfl rfl
    exact h.trans (.enter c _ rfl)
  | close called _ => exact .of_eq rfl rfl rfl
  | @drain d rest called hi =>
    -- all idle clients are taken out of use, and one of them begins to be destroyed
    have hcount : p.idle.count c = (d :: rest).count c := by
      rw [← hi, List.count_reverse]
    have hwithdrawn : withdrawn (p.idle.map .withdrawn ++ [.begun d]) = p.idle := by
      simp [withdrawn, List.filterMap_map]
    have hgone : gone (p.idle.map .withdrawn ++ [.begun d]) = [] := by
      simp [gone, List.filterMap_map]
    have hbegun : begun (p.idle.map .withdrawn ++ [.begun d]) = [d] := by
      simp [begun, List.filterMap_map]
    refine ⟨Nat.le_refl _, ?_, ?_, ?_⟩
    · rw [total_enter, hwithdrawn]
      show 0 + (p.total (·.borrowed.count c) + 0) + _ = _ + (p.made p.nextClient).count c
      rw [made_self]
      simp [Nat.add_comm]
    · rw [total_enter, hwithdrawn, hgone, hcount]
      rfl
    · rw [total_enter, hwithdrawn, hbegun, hcount]
      show _ + (p.total (·.queued.count c) + rest.count c) ≤ _
      rw [List.count_cons, List.count_cons, List.count_nil]
      omega
  | hear called => exact .of_eq rfl rfl rfl

theorem Ledger.steps (hp : Table p) (h : Steps p es q) (c : Client) : Ledger c p es q := by
  induction h with
  | refl => exact .refl c p
  | tail h hs ih => exact ih.trans (.step (hp.steps h) hs c)

/-! ## Clients in use -/

/-- A client in use was in use before or is new. -/
theorem Ledger.mem (h : Ledger c p es q) (hc : c ∈ q.idle ∨ c ∈ q.borrowed) :
    (c ∈ p.idle ∨ c ∈ p.borrowed) ∨ p.nextClient ≤ c := by
  have hused := h.used
  rw [← count_borrowed, ← count_borrowed] at hused
  -- it is counted on the left side, hence on the right
  have hpos : 0 < q.idle.count c + q.borrowed.count c := by
    rcases hc with hc | hc
    · exact Nat.add_pos_left (List.count_pos_iff.2 hc) _
    · exact Nat.add_pos_right _ (List.count_pos_iff.2 hc)
  by_cases hi : c ∈ p.idle
  · exact Or.inl (Or.inl hi)
  · by_cases hb : c ∈ p.borrowed
    · exact Or.inl (Or.inr hb)
    · have hmade : 0 < (q.made p.nextClient).count c := by
        rw [List.count_eq_zero.2 hi, List.count_eq_zero.2 hb] at hused
        omega
      exact Or.inr (mem_made.1 (List.count_pos_iff.1 hmade)).1

/-- A client that is lent was idle or is new. -/
theorem Step.lent (h : Step p es q) {s : Ticket} (hl : .lent s c ∈ es) :
    c ∈ p.idle ∨ c = p.nextClient := by
  cases h with
  | advance ha =>
    cases ha with
    | stay => simp at hl
    | go _ hs =>
      cases hs with
      | create hs _ | reject hs _ => cases hs <;> simp at hl
      | take hs hi => cases hs <;> simp_all
      | created => simp_all
      | _ => simp at hl
  | _ => simp at hl

theorem Steps.lent (hp : Table p) (h : Steps p es q) {s : Ticket} (hl : .lent s c ∈ es) :
    (c ∈ p.idle ∨ c ∈ p.borrowed) ∨ p.nextClient ≤ c := by
  induction h with
  | refl => simp at hl
  | tail h hs ih =>
    have hledger := Ledger.steps hp h c
    rcases List.mem_append.1 hl with hl | hl
    · exact ih hl
    · rcases hs.lent hl with hi | rfl
      · exact hledger.mem (Or.inl hi)
      · exact Or.inr hledger.next

/-- A client that is not idle any more was lent or taken out of use. -/
theorem Step.idle (h : Step p es q) (hc : c ∈ p.idle) :
    c ∈ q.idle ∨ ∃ e ∈ es, (∃ s, e = .lent s c) ∨ e = .withdrawn c := by
  cases h with
  | advance ha =>
    cases ha with
    | stay => exact Or.inl hc
    | go _ hs =>
      rw [after_idle]
      cases hs with
      | take _ hi =>
        rw [hi, List.mem_cons] at hc
        rcases hc with rfl | hc
        · exact Or.inr ⟨_, List.mem_append_right _ List.mem_cons_self, Or.inl ⟨_, rfl⟩⟩
        · exact Or.inl hc
      | reject _ hi =>
        rw [hi, List.mem_cons] at hc
        rcases hc with rfl | hc
        · exact Or.inr ⟨_, List.mem_append_right _ List.mem_cons_self, Or.inr rfl⟩
        · exact Or.inl hc
      | giveBack _ => exact Or.inl (List.mem_cons_of_mem _ hc)
      | _ => exact Or.inl hc
  | drain _ _ =>
    exact Or.inr ⟨_, List.mem_append_left _ (List.mem_map_of_mem hc), Or.inr rfl⟩
  | close _ hi => simp [hi] at hc
  | _ => exact Or.inl hc

theorem Steps.idle (h : Steps p es q) (hc : c ∈ p.idle) :
    c ∈ q.idle ∨ ∃ e ∈ es, (∃ s, e = .lent s c) ∨ e = .withdrawn c :=
  h.until (fun hs hc => hs.idle hc) hc

/-! ## What an acquisition ends with -/

theorem lend_lent {isValid : Client → Bool} (h : (lend isValid t p).2 = .lent c) :
    ∃ rest, p.idle = c :: rest ∧ (lend isValid t p).1.idle = rest ∧ isValid c = true := by
  unfold lend at h ⊢
  split at h
  · simp at h
  · rename_i d rest hi
    split at h
    · rename_i hv
      obtain rfl : d = c := by simpa using h
      exact ⟨rest, hi, by simp only [if_pos hv]; rfl, hv⟩
    · simp at h

theorem proceed_lent {isValid : Client → Bool} {now : Nat}
    (h : (p.proceed isValid now t).2 = .lent c) :
    ∃ rest, p.idle = c :: rest ∧ (p.proceed isValid now t).1.idle = rest ∧ isValid c = true := by
  unfold proceed at h ⊢
  split at h
  · split at h
    · simp at h
    · split at h <;> simp at h
  · split at h
    · simp at h
    · rename_i hc
      rw [if_neg hc]
      exact lend_lent h
  · simp at h

/-- A new party that is lent a client at once took the newest idle one. -/
theorem request_lent {isValid : Client → Bool} {now : Nat}
    (h : (p.request isValid now).2.2 = .lent c) :
    ∃ rest, p.idle = c :: rest ∧ (p.request isValid now).1.idle = rest ∧ isValid c = true := by
  cases hc : p.closed with
  | true => simp [request_of_closed isValid now hc] at h
  | false =>
    obtain ⟨q, hq, e⟩ := request_of_open isValid now hc
    rw [e] at h ⊢
    have hidle : q.idle = p.idle := by
      rcases hq with ⟨rfl, -⟩ | ⟨rfl, -⟩
      · rfl
      · rfl
    rw [← hidle]
    exact proceed_lent h

theorem Progress.mem_events {s : Ticket} {progress : Progress} :
    .lent s c ∈ progress.events t ↔ s = t ∧ progress = .lent c := by
  cases progress <;> simp [Progress.events, eq_comm]

/-- A client that is lent was created by that acquisition, or taken by it out of the idle clients
and found fit. -/
theorem lent_cases {m : Move} (h : .lent t c ∈ p.events m) :
    (m = .created t (.ok ()) ∧ p.party? t = some .creating ∧ c = p.nextClient) ∨
      ∃ rest, p.idle = c :: rest ∧ (p.move m).idle = rest ∧ m.accepts c = true := by
  cases m with
  | request isValid now =>
    simp only [events, Progress.mem_events] at h
    exact Or.inr (request_lent h.2)
  | proceed isValid now s =>
    simp only [events, Progress.mem_events] at h
    exact Or.inr (proceed_lent h.2)
  | rejected isValid s =>
    right
    simp only [events] at h
    split at h
    · rename_i d hd
      simp only [rejected, hd, List.mem_cons, reduceCtorEq, false_or, Progress.mem_events] at h
      simp only [move, rejected, hd]
      exact lend_lent h.2
    · simp at h
  | created s result =>
    left
    simp only [events, Progress.mem_events] at h
    obtain ⟨rfl, h⟩ := h
    unfold created at h
    split at h
    · rename_i hs
      exact ⟨rfl, hs, by simpa using h.symm⟩
    · simp at h
    · simp at h
  | release s => simp [events] at h
  | releaseOutside s => simp only [events] at h; split at h <;> (try split at h) <;> simp at h
  | drop s => simp [events] at h
  | dropOutside s => simp only [events] at h; split at h <;> simp at h
  | invalidate s => simp only [events] at h; split at h <;> simp at h
  | invalidated s => simp only [events] at h; split at h <;> simp at h
  | startDestroy s => simp [events] at h
  | destroyed s => simp only [events] at h; split at h <;> simp at h
  | close => simp only [events] at h; split at h <;> simp at h
  | closedOne s => simp only [events] at h; split at h <;> simp at h
  | cancel s => simp only [events] at h; split at h <;> simp at h

/-! ## One place for every client -/

section Run

variable {maxSize : Nat} {wait : Option Nat} {first : Client}

/-- What the log of a run and the pool after it say about a client. -/
theorem ledger_run (h : Pool.new maxSize wait first = .ok p) (moves : List Move) (c : Client) :
    (p.run moves).idle.count c + (p.run moves).borrowed.count c +
        (withdrawn (p.log moves)).count c = ((p.run moves).made first).count c ∧
      (p.run moves).doomed.count c + (gone (p.log moves)).count c =
        (withdrawn (p.log moves)).count c ∧
      (begun (p.log moves)).count c ≤ (withdrawn (p.log moves)).count c := by
  obtain ⟨-, hused, hended, hstarted⟩ := Ledger.steps (.of_new h) (steps_run p moves) c
  rw [← count_borrowed] at hused
  rw [← count_doomed] at hended
  obtain rfl := eq_of_new h
  refine ⟨?_, ?_, ?_⟩
  · simpa [total] using hused
  · simpa [total] using hended
  · simp only [total, List.map_nil, List.sum_nil, Nat.zero_add] at hstarted
    omega

theorem count_made_le (first : Client) (p : Pool) (c : Client) : (p.made first).count c ≤ 1 :=
  List.nodup_iff_count.1 (nodup_made first p) c

/-- Every client is at one place. -/
theorem places_perm (h : Pool.new maxSize wait first = .ok p) (moves : List Move) :
    ((p.run moves).idle ++ (p.run moves).borrowed ++ (p.run moves).doomed ++
      gone (p.log moves)).Perm ((p.run moves).made first) := by
  refine List.perm_iff_count.2 fun c => ?_
  obtain ⟨hused, hended, -⟩ := ledger_run h moves c
  rw [List.count_append, List.count_append, List.count_append]
  omega

/-- No destruction begins twice. -/
theorem nodup_begun (h : Pool.new maxSize wait first = .ok p) (moves : List Move) :
    (begun (p.log moves)).Nodup := by
  refine List.nodup_iff_count.2 fun c => ?_
  obtain ⟨hused, -, hstarted⟩ := ledger_run h moves c
  have hle := count_made_le first (p.run moves) c
  omega

theorem lt_nextClient_of_idle (h : Pool.new maxSize wait first = .ok p) (moves : List Move)
    (hc : c ∈ (p.run moves).idle) : c < (p.run moves).nextClient := by
  obtain ⟨hused, -, -⟩ := ledger_run h moves c
  have hpos := List.count_pos_iff.2 hc
  have hmade : c ∈ (p.run moves).made first := List.count_pos_iff.1 (by omega)
  exact (mem_made.1 hmade).2

/-- A client that was taken out of use is known, and neither idle nor lent. -/
theorem unused_of_withdrawn (h : Pool.new maxSize wait first = .ok p) (moves : List Move)
    (hc : .withdrawn c ∈ p.log moves) :
    c ∉ (p.run moves).idle ∧ c ∉ (p.run moves).borrowed ∧ c < (p.run moves).nextClient := by
  obtain ⟨hused, -, -⟩ := ledger_run h moves c
  have hpos := List.count_pos_iff.2 (mem_withdrawn.2 hc)
  have hle := count_made_le first (p.run moves) c
  have hmade : c ∈ (p.run moves).made first := List.count_pos_iff.1 (by omega)
  refine ⟨?_, ?_, (mem_made.1 hmade).2⟩
  · exact List.count_eq_zero.1 (by omega)
  · exact List.count_eq_zero.1 (by omega)

theorem Retires.withdrawn {m : Move} (h : Retires p m c) (hnew : c ∈ p.idle → c < p.nextClient) :
    .withdrawn c ∈ p.events m := by
  cases h with
  | invalidated hx => simp [events, invalidate, hx]
  | dropped hx => simp [events, drop, hx]
  | droppedOutside hx => simp [events, hx]
  | late hc hx => simp [events, release, hc, hx]
  | lateOutside hc hx => simp [events, hc, hx]
  | unfit hi hni hv =>
    rcases (steps_move p m).idle hi with hq | ⟨_, hl, ⟨s, rfl⟩ | rfl⟩
    · exact absurd hq hni
    · -- it was not lent: it is not new, and was not found fit
      rcases lent_cases hl with ⟨-, -, rfl⟩ | ⟨rest, -, -, hv'⟩
      · exact absurd (hnew hi) (Nat.lt_irrefl _)
      · simp [hv] at hv'
    · exact hl

/-- Whoever was taken out of use comes back neither to the idle clients nor to a party. -/
theorem never_again (h : Pool.new maxSize wait first = .ok p) (moves : List Move) {m : Move}
    (hret : Retires (p.run moves) m c) (more : List Move) :
    c ∉ (((p.run moves).move m).run more).idle ∧
      ∀ t, .lent t c ∉ ((p.run moves).move m).log more := by
  have hrun : p.run (moves ++ [m]) = (p.run moves).move m := run_append p moves [m]
  -- the move enters the client as taken out of use, so that it is not in use afterwards
  have hw : .withdrawn c ∈ p.log (moves ++ [m]) := by
    rw [log_append, log_cons, log_nil, List.append_nil]
    exact List.mem_append_right _ (hret.withdrawn (lt_nextClient_of_idle h moves))
  obtain ⟨hi, hb, hlt⟩ := unused_of_withdrawn h (moves ++ [m]) hw
  have hq : Table (p.run (moves ++ [m])) := (Table.of_new h).steps (steps_run p (moves ++ [m]))
  rw [hrun] at hi hb hlt hq
  -- and a client that is in use later was in use then, or is a new one
  have hsteps := steps_run ((p.run moves).move m) more
  have hnew : ¬ ((p.run moves).move m).nextClient ≤ c := Nat.not_le.2 hlt
  refine ⟨fun hc => ?_, fun t hl => ?_⟩
  · rcases (Ledger.steps hq hsteps c).mem (Or.inl hc) with (hc | hc) | hc
    · exact hi hc
    · exact hb hc
    · exact hnew hc
  · rcases hsteps.lent hq hl with (hc | hc) | hc
    · exact hi hc
    · exact hb hc
    · exact hnew hc

/-- **The life of a client.** After every run each client that was created is at one place: idle,
lent to one party, being destroyed, or gone. The destruction of none begins twice. A client that was
taken out of use is never idle or lent again. A client that is lent was created by that acquisition,
or it was the newest of the idle clients and was found fit. -/
theorem lifecycle (h : Pool.new maxSize wait first = .ok p) (moves : List Move) :
    let q := p.run moves
    let log := p.log moves
    ((q.idle ++ q.borrowed ++ q.doomed ++ gone log).Perm (q.made first) ∧
        (q.idle ++ q.borrowed ++ q.doomed ++ gone log).Nodup) ∧
      (begun log).Nodup ∧
      (∀ m c, Retires q m c → ∀ more,
        c ∉ ((q.move m).run more).idle ∧ ∀ t, .lent t c ∉ (q.move m).log more) ∧
      ∀ m t c, .lent t c ∈ q.events m →
        m = .created t (.ok ()) ∧ q.party? t = some .creating ∧ c = q.nextClient ∨
          ∃ rest, q.idle = c :: rest ∧ (q.move m).idle = rest ∧ m.accepts c = true := by
  intro q log
  have hplaces := places_perm h moves
  exact ⟨⟨hplaces, hplaces.nodup_iff.2 (nodup_made first q)⟩, nodup_begun h moves,
    fun m c hret more => never_again h moves hret more, fun m t c => lent_cases⟩

/-- An idle client that is found unfit never comes back; the same client, found fit, is lent. -/
theorem lifecycle_of_idle :
    ∃ p, Pool.new 2 none 1 = .ok p ∧
      let q := p.run [.request (fun _ => true) 0, .created 0 (.ok ()), .release 0]
      let unfit : Move := .request (fun _ => false) 0
      let fit : Move := .request (fun _ => true) 0
      (Retires q unfit 1 ∧ ∀ more, 1 ∉ ((q.move unfit).run more).idle) ∧
        .lent 1 1 ∈ q.events fit ∧
        (fit = .created 1 (.ok ()) ∧ q.party? 1 = some .creating ∧ 1 = q.nextClient ∨
          ∃ rest, q.idle = 1 :: rest ∧ (q.move fit).idle = rest ∧ fit.accepts 1 = true) := by
  have hnew : Pool.new 2 none 1 = .ok ⟨2, none, 2, [], 0, false, [], 1, 0, []⟩ := rfl
  refine ⟨_, hnew, ?_⟩
  intro q unfit fit
  have hret : Retires q unfit 1 := .unfit (by decide) (by decide) rfl
  have hlent : .lent 1 1 ∈ q.events fit := by decide
  obtain ⟨-, -, hnever, hfrom⟩ := lifecycle hnew
    [.request (fun _ => true) 0, .created 0 (.ok ()), .release 0]
  exact ⟨⟨hret, fun more => (hnever unfit 1 hret more).1⟩, hlent, hfrom fit 1 1 hlent⟩

end Run

end Pool

end Depot
