import Depot.Proofs.Pool.Parties
import Depot.Proofs.Pool.Slots

/-!
# Deadlines

The time that a party waits for a slot counts from the moment at which its acquisition began, and
for nothing but the wait: the deadline of whoever stands in line is kept (`Dated`), and whoever was
given a slot has none. An acquisition that gives up does so when its time is over, no slot is free
and it was not given one, and it leaves no trace but its place in line (`gives_up_in_time`).
-/

set_option autoImplicit false

namespace Depot.Pool

variable {p q : Pool} {s t u : Ticket} {es : List Event} {m : Move} {text : String}
  {maxSize : Nat} {wait : Option Nat} {first : Client}

/-- The time of a move in which a party looks how things are. -/
def Move.time? : Move → Option Nat
  | .request _ now => some now
  | .proceed _ now _ => some now
  | _ => none

/-- The acquisition that begins with a move, with the time. -/
def arrived (p : Pool) : Move → List (Ticket × Nat)
  | .request _ now => if p.closed then [] else [(p.nextTicket, now)]
  | _ => []

/-- The acquisitions that begin in some moves, in order, with the time of each. -/
def arrivals (p : Pool) : List Move → List (Ticket × Nat)
  | [] => []
  | m :: moves => p.arrived m ++ (p.move m).arrivals moves

theorem arrivals_append (before after : List Move) :
    p.arrivals (before ++ after) = p.arrivals before ++ (p.run before).arrivals after := by
  induction before generalizing p with
  | nil => rfl
  | cons m before ih => simp [arrivals, ih]

theorem grants_append (before after : List Move) :
    p.grants (before ++ after) = p.grants before ++ (p.run before).grants after := by
  induction before generalizing p with
  | nil => rfl
  | cons m before ih => simp [grants, ih]

/-- Whatever happens in a run happens in one of its moves. -/
theorem exists_of_mem_log {e : Event} {moves : List Move} (h : e ∈ p.log moves) :
    ∃ before m after, moves = before ++ m :: after ∧ e ∈ (p.run before).events m := by
  induction moves generalizing p with
  | nil => simp at h
  | cons m moves ih =>
    rw [log_cons, List.mem_append] at h
    rcases h with h | h
    · exact ⟨[], m, moves, rfl, h⟩
    · obtain ⟨before, n, after, rfl, hn⟩ := ih h
      exact ⟨m :: before, n, after, rfl, hn⟩

/-! ## What no step changes -/

theorem Advances.frame (h : Advances p t es q) :
    q.maxSize = p.maxSize ∧ q.wait = p.wait ∧ q.nextTicket = p.nextTicket := by
  cases h with
  | stay => exact ⟨rfl, rfl, rfl⟩
  | @go x es r next hx hs =>
    obtain ⟨_, _, _, e⟩ := after_frame r t x next
    rw [e, hs.frame]
    exact ⟨rfl, rfl, rfl⟩

theorem Step.limits (h : Step p es q) : q.maxSize = p.maxSize ∧ q.wait = p.wait := by
  cases h with
  | advance ha => exact ⟨ha.frame.1, ha.frame.2.1⟩
  | _ => exact ⟨rfl, rfl⟩

/-- The size of a pool and the time that it makes a party wait are those of the beginning. -/
theorem limits_run (h : Pool.new maxSize wait first = .ok p) (moves : List Move) :
    (p.run moves).maxSize = maxSize ∧ (p.run moves).wait = wait := by
  have hkeep := (steps_run p moves).keep
    (P := fun q => q.maxSize = p.maxSize ∧ q.wait = p.wait)
    (fun hs hp => ⟨hs.limits.1.trans hp.1, hs.limits.2.trans hp.2⟩) ⟨rfl, rfl⟩
  rw [eq_of_new h] at hkeep ⊢
  exact hkeep

/-! ## When an acquisition began -/

theorem nextTicket_le_move (p : Pool) (m : Move) : p.nextTicket ≤ (p.move m).nextTicket :=
  (Follows.steps (steps_move p m)).next

/-- An acquisition that begins takes the next ticket. -/
theorem arrived_ticket {s : Nat} (h : (t, s) ∈ p.arrived m) :
    t = p.nextTicket ∧ t < (p.move m).nextTicket := by
  cases m with
  | request isValid now =>
    cases hc : p.closed with
    | true => simp [arrived, hc] at h
    | false =>
      simp only [arrived, hc, Bool.false_eq_true, if_false, List.mem_singleton,
        Prod.mk.injEq] at h
      obtain ⟨r, hr, e⟩ := request_of_open isValid now hc
      have hnext : (p.move (.request isValid now)).nextTicket = r.nextTicket := by
        rw [move, e]
        exact (proceed_advances isValid now p.nextTicket r).frame.2.2
      refine ⟨h.1, ?_⟩
      rw [hnext, h.1]
      rcases hr with ⟨rfl, -⟩ | ⟨rfl, -⟩
      · exact Nat.lt_succ_self _
      · exact Nat.lt_succ_self _
  | _ => simp [arrived] at h

theorem nextTicket_le_of_arrivals {s : Nat} {moves : List Move} (h : (t, s) ∈ p.arrivals moves) :
    p.nextTicket ≤ t := by
  induction moves generalizing p with
  | nil => simp [arrivals] at h
  | cons m moves ih =>
    rw [arrivals, List.mem_append] at h
    rcases h with h | h
    · exact Nat.le_of_eq (arrived_ticket h).1.symm
    · exact Nat.le_trans (nextTicket_le_move p m) (ih h)

/-- No acquisition begins twice. -/
theorem arrivals_unique {s s' : Nat} {moves : List Move} (h : (t, s) ∈ p.arrivals moves)
    (h' : (t, s') ∈ p.arrivals moves) : s = s' := by
  induction moves generalizing p with
  | nil => simp [arrivals] at h
  | cons m moves ih =>
    rw [arrivals, List.mem_append] at h h'
    rcases h with h | h
    · rcases h' with h' | h'
      · cases m with
        | request isValid now =>
          simp only [arrived] at h h'
          split at h
          · simp at h
          · simp_all
        | _ => simp [arrived] at h
      · exact absurd (arrived_ticket h).2 (Nat.not_lt.2 (nextTicket_le_of_arrivals h'))
    · rcases h' with h' | h'
      · exact absurd (arrived_ticket h').2 (Nat.not_lt.2 (nextTicket_le_of_arrivals h))
      · exact ih h h'

/-! ## The deadline of whoever stands in line -/

/-- Whoever stands in line after another party got on stood there before, with the same deadline. -/
theorem Advances.waiting (h : Advances p t es q) {d : Option Nat}
    (hu : (u, .waiting d) ∈ q.parties) : (u, .waiting d) ∈ p.parties := by
  cases h with
  | stay => exact hu
  | go hx hs =>
    rcases mem_after hu with ⟨-, hnext⟩ | ⟨-, hu' | ⟨hg, -⟩⟩
    · have hw := (hs.stays hnext).2.1
      simp [Party.isWaiting] at hw
    · rwa [hs.parties_eq] at hu'
    · simp at hg

/-- Whoever stands in line after a move stood there before with the same deadline, or has just come:
then its deadline counts from the time of the move. -/
theorem move_waiting {d : Option Nat} (hu : (u, .waiting d) ∈ (p.move m).parties) :
    (u, .waiting d) ∈ p.parties ∨ ∃ now, (u, now) ∈ p.arrived m ∧ d = p.wait.map (now + ·) := by
  rcases move_cases p m with ⟨isValid, now, rfl⟩ | rfl | ⟨called, t, ha⟩
  · cases hc : p.closed with
    | true =>
      rw [move, request_of_closed isValid now hc] at hu
      exact Or.inl hu
    | false =>
      obtain ⟨r, hr, e⟩ := request_of_open isValid now hc
      rw [move, e] at hu
      have hu' := (proceed_advances isValid now p.nextTicket r).waiting hu
      rcases hr with ⟨rfl, -⟩ | ⟨rfl, -⟩
      · simp only [enter, List.mem_append, List.mem_singleton, Prod.mk.injEq,
          Party.waiting.injEq] at hu'
        rcases hu' with hu' | ⟨rfl, rfl⟩
        · exact Or.inl hu'
        · exact Or.inr ⟨now, by simp [arrived, hc], rfl⟩
      · simp only [enter, List.mem_append, List.mem_singleton, Prod.mk.injEq, reduceCtorEq,
          and_false, or_false] at hu'
        exact Or.inl hu'
  · rw [move, close] at hu
    split at hu
    · exact Or.inl hu
    · simp only [enter, List.mem_append, List.mem_singleton, Prod.mk.injEq, reduceCtorEq,
        and_false, or_false] at hu
      exact Or.inl hu
  · exact Or.inl (ha.waiting hu)

/-- Whoever stands in line came at a known time, from which its deadline counts. -/
def Dated (wait : Option Nat) (begun : List (Ticket × Nat)) (p : Pool) : Prop :=
  ∀ u d, (u, Party.waiting d) ∈ p.parties → ∃ s, (u, s) ∈ begun ∧ d = wait.map (s + ·)

theorem Dated.move {begun : List (Ticket × Nat)} (h : Dated p.wait begun p) (m : Move) :
    Dated p.wait (begun ++ p.arrived m) (p.move m) := by
  intro u d hu
  rcases move_waiting hu with hu | ⟨now, hmem, hd⟩
  · obtain ⟨s, hs, hd⟩ := h u d hu
    exact ⟨s, List.mem_append_left _ hs, hd⟩
  · exact ⟨now, List.mem_append_right _ hmem, hd⟩

theorem wait_move (p : Pool) (m : Move) : (p.move m).wait = p.wait :=
  (steps_move p m).keep (P := fun q => q.wait = p.wait) (fun hs hp => hs.limits.2.trans hp) rfl

theorem Dated.run {begun : List (Ticket × Nat)} (h : Dated p.wait begun p) (moves : List Move) :
    Dated p.wait (begun ++ p.arrivals moves) (p.run moves) := by
  induction moves generalizing p begun with
  | nil => simpa [arrivals] using h
  | cons m moves ih =>
    have hm := h.move m
    rw [← wait_move p m] at hm ⊢
    rw [arrivals, ← List.append_assoc]
    exact ih hm

theorem dated_run (h : Pool.new maxSize wait first = .ok p) (moves : List Move) :
    Dated wait (p.arrivals moves) (p.run moves) := by
  have hw : p.wait = wait := by rw [eq_of_new h]
  have hnew : Dated p.wait [] p := by
    intro u d hu
    rw [eq_of_new h] at hu
    simp at hu
  simpa [hw] using hnew.run moves

/-! ## Who gives up -/

/-- An acquisition gives up when it looks at its place in line after its deadline. It leaves the
line, and nothing else changes. -/
theorem proceed_exhausted {isValid : Client → Bool} {now : Nat}
    (h : (p.proceed isValid now t).2 = .failed (.poolExhausted text)) :
    (∃ d, p.party? t = some (.waiting (some d)) ∧ d ≤ now) ∧ p.closed = false ∧
      p.exhausted = .poolExhausted text ∧ (p.proceed isValid now t).1 = p.leave t := by
  unfold proceed at h ⊢
  split at h
  · rename_i deadline hx
    split at h
    · cases h
    · rename_i hc
      rw [if_neg hc]
      split at h
      · rename_i hd
        rw [if_pos hd]
        obtain ⟨d, rfl, hle⟩ := (Option.any_eq_true _ _).1 hd
        exact ⟨⟨d, hx, by simpa using hle⟩, by simpa using hc, Progress.failed.inj h, rfl⟩
      · cases h
  · split at h
    · cases h
    · exact absurd h lend_ne_failed
  · cases h

theorem Progress.failed_mem_events {e : StoreError} {progress : Progress} :
    .failed s e ∈ progress.events t ↔ s = t ∧ progress = .failed e := by
  cases progress <;> simp [Progress.events, eq_comm]

/-- A creation that fails is never told as a wait that was too long. -/
theorem created_ne_exhausted {result : Except StoreError Unit} :
    (p.created t result).2 ≠ .failed (.poolExhausted text) := by
  have hkind : ∀ e : StoreError, e.toConnectFailed ≠ .poolExhausted text := by
    intro e
    cases e <;> simp [StoreError.toConnectFailed]
  unfold created
  split
  · nofun
  · exact fun h => hkind _ (Progress.failed.inj h)
  · nofun

/-- An acquisition gives up as the move of a party that stands in line, or of one that comes and may
not wait at all. -/
theorem exhausted_cases (hp : Table p) (hf : .failed t (.poolExhausted text) ∈ p.events m) :
    ∃ isValid now r, m.time? = some now ∧
      (r.proceed isValid now t).2 = .failed (.poolExhausted text) ∧
      p.move m = (r.proceed isValid now t).1 ∧
      (m = .proceed isValid now t ∧ r = p.heard t ∨
        t = p.nextTicket ∧ p.free = 0 ∧ p.arrived m = [(t, now)] ∧
          r = p.enter (.waiting (p.wait.map (now + ·)))) := by
  cases m with
  | request isValid now =>
    simp only [events, Progress.failed_mem_events, request_ticket] at hf
    obtain ⟨rfl, hf⟩ := hf
    cases hc : p.closed with
    | true =>
      rw [request_of_closed isValid now hc] at hf
      cases hf
    | false =>
      obtain ⟨r, hr, e⟩ := request_of_open isValid now hc
      rw [e] at hf
      refine ⟨isValid, now, r, rfl, hf, by rw [move, e], Or.inr ⟨rfl, ?_⟩⟩
      rcases hr with ⟨rfl, hfree⟩ | ⟨rfl, -⟩
      · exact ⟨hfree, by simp [arrived, hc], rfl⟩
      · -- whoever has a slot does not give up
        obtain ⟨⟨d, hd, -⟩, -⟩ := proceed_exhausted hf
        rw [party?_enter_self (p := { p with free := p.free - 1 }) hp.fresh] at hd
        cases hd
  | proceed isValid now s =>
    simp only [events, Progress.failed_mem_events] at hf
    obtain ⟨rfl, hf⟩ := hf
    exact ⟨isValid, now, p.heard t, rfl, hf, rfl, Or.inl ⟨rfl, rfl⟩⟩
  | rejected isValid s =>
    simp only [events] at hf
    split at hf
    · simp only [List.mem_cons, reduceCtorEq, false_or, Progress.failed_mem_events] at hf
      exact absurd hf.2 rejected_ne_failed
    · simp at hf
  | created s result =>
    simp only [events, Progress.failed_mem_events] at hf
    exact absurd hf.2 created_ne_exhausted
  | release s | drop s | startDestroy s => simp [events] at hf
  | releaseOutside s =>
    simp only [events] at hf
    split at hf
    · split at hf <;> simp at hf
    · simp at hf
  | dropOutside s | invalidate s | invalidated s | destroyed s | close | closedOne s | cancel s =>
    simp only [events] at hf
    split at hf <;> simp at hf

/-- What the pool is like when an acquisition gives up, and what it leaves behind. -/
structure GivesUp (p : Pool) (m : Move) (t : Ticket) : Prop where
  /-- Nobody can be given a slot. -/
  full : p.free = 0
  unserved : t ∉ p.holders
  idle : (p.move m).idle = p.idle
  live : (p.move m).live = p.live
  free : (p.move m).free = p.free
  /-- All others stay where they are, in the same order. -/
  others : (p.move m).parties = p.parties.filter (·.1 ≠ t)

/-- The acquisition that gives up stands in line with a deadline that is over, or has just come. -/
theorem gives_up (hp : Table p) (hf : .failed t (.poolExhausted text) ∈ p.events m) :
    p.GivesUp m t ∧ p.exhausted = .poolExhausted text ∧ ∃ now, m.time? = some now ∧
      ((∃ d ≤ now, (t, .waiting (some d)) ∈ p.parties) ∨
        t = p.nextTicket ∧ p.arrived m = [(t, now)] ∧ ∃ w, p.wait = some w ∧ now + w ≤ now) := by
  obtain ⟨isValid, now, r, htime, hfail, hmove, hr⟩ := exhausted_cases hp hf
  obtain ⟨⟨d, hd, hle⟩, hc, htext, hleave⟩ := proceed_exhausted hfail
  rw [hleave] at hmove
  rcases hr with ⟨-, rfl⟩ | ⟨rfl, hfree, harrived, rfl⟩
  · have hmem : (t, Party.waiting (some d)) ∈ p.parties := mem_of_party? hd
    have hline : t ∈ p.line := mem_line.2 ⟨_, hmem, rfl⟩
    refine ⟨⟨?_, ?_, ?_, ?_, ?_, ?_⟩, htext, now, htime, Or.inl ⟨d, hle, hmem⟩⟩
    · rcases Nat.eq_zero_or_pos p.free with h0 | hpos
      · exact h0
      · have hw := hp.full hc hpos _ hmem
        simp [Party.isWaiting] at hw
    · exact fun hh => absurd (holder_lt hp hh (Or.inl hline)) (Nat.lt_irrefl t)
    all_goals rw [hmove]; rfl
  · rw [party?_enter_self hp.fresh] at hd
    obtain ⟨w, hw, rfl⟩ := Option.map_eq_some_iff.1 (Party.waiting.inj (Option.some.inj hd))
    refine ⟨⟨hfree, ?_, ?_, ?_, ?_, ?_⟩, htext, now, htime, Or.inr ⟨rfl, harrived, w, hw, hle⟩⟩
    · exact fun hh => absurd (holder_lt hp hh (Or.inr (Nat.le_refl _))) (Nat.lt_irrefl _)
    · rw [hmove]
      rfl
    · rw [hmove]
      rfl
    · rw [hmove]
      rfl
    · rw [hmove]
      simp [leave, enter]

theorem GivesUp.line (h : p.GivesUp m t) : (p.move m).line = p.line.filter (· ≠ t) := by
  rw [Pool.line, h.others, Pool.line, List.filter_map, List.filter_filter, List.filter_filter]
  simp only [Function.comp_def, Bool.and_comm]

theorem GivesUp.holders (h : p.GivesUp m t) : (p.move m).holders = p.holders := by
  have hfilter : (p.move m).holders = p.holders.filter (· ≠ t) := by
    rw [Pool.holders, h.others, Pool.holders, List.filter_map, List.filter_filter,
      List.filter_filter]
    simp only [Function.comp_def, Bool.and_comm]
  rw [hfilter]
  refine List.filter_eq_self.2 fun u hu => ?_
  simp only [ne_eq, decide_eq_true_eq]
  rintro rfl
  exact h.unserved hu

theorem grants_lt_nextTicket (hp : Table p) (moves : List Move) (ht : t ∈ p.grants moves) :
    t < (p.run moves).nextTicket := by
  induction moves generalizing p with
  | nil => simp [grants] at ht
  | cons m moves ih =>
    have hq : Table (p.move m) := hp.steps (steps_move p m)
    simp only [grants, List.mem_append] at ht
    rcases ht with ht | ht
    · obtain ⟨x, hx, -⟩ := mem_holders.1 (List.mem_of_mem_filter ht)
      have hnext := (Follows.steps (steps_run (p.move m) moves)).next
      exact Nat.lt_of_lt_of_le (hq.fresh t (List.mem_map_of_mem hx)) hnext
    · exact ih hq ht

/-- Who gives up was never given a slot. -/
theorem not_granted_of_gives_up (hp : Table p) (moves : List Move)
    (hf : .failed t (.poolExhausted text) ∈ (p.run moves).events m) :
    t ∉ p.grants (moves ++ [m]) := by
  have hq : Table (p.run moves) := hp.steps (steps_run p moves)
  obtain ⟨hup, -, now, -, hwhere⟩ := gives_up hq hf
  rw [grants_append, List.mem_append, not_or]
  constructor
  · intro hg
    rcases hwhere with ⟨d, -, hmem⟩ | ⟨rfl, -⟩
    · have hline : t ∈ (p.run moves).line := mem_line.2 ⟨_, hmem, rfl⟩
      exact absurd (grants_lt_line hp moves hg hline) (Nat.lt_irrefl t)
    · exact absurd (grants_lt_nextTicket hp moves hg) (Nat.lt_irrefl _)
  · simp [grants, hup.holders]

section Run

variable (h : Pool.new maxSize wait first = .ok p) (moves : List Move)

include h

/-- Who gives up came at a time since which the whole wait of the pool has passed. -/
theorem late_of_gives_up (hf : .failed t (.poolExhausted text) ∈ (p.run moves).events m) :
    ∃ w s now, wait = some w ∧ m.time? = some now ∧ (t, s) ∈ p.arrivals (moves ++ [m]) ∧
      s + w ≤ now ∧ text = s!"no client available within {w}ms (max {maxSize})" := by
  have hq : Table (p.run moves) := (Table.of_new h).steps (steps_run p moves)
  obtain ⟨hmax, hwait⟩ := limits_run h moves
  obtain ⟨-, htext, now, htime, hwhere⟩ := gives_up hq hf
  have hlate : ∃ w s, wait = some w ∧ (t, s) ∈ p.arrivals (moves ++ [m]) ∧ s + w ≤ now := by
    rw [arrivals_append]
    rcases hwhere with ⟨d, hle, hmem⟩ | ⟨-, harrived, w, hw, hle⟩
    · obtain ⟨s, hs, hd⟩ := dated_run h moves t _ hmem
      obtain ⟨w, hw, rfl⟩ := Option.map_eq_some_iff.1 hd.symm
      exact ⟨w, s, hw, List.mem_append_left _ hs, hle⟩
    · refine ⟨w, now, hwait.symm.trans hw, List.mem_append_right _ ?_, hle⟩
      simp [arrivals, harrived]
  obtain ⟨w, s, rfl, hs, hle⟩ := hlate
  refine ⟨w, s, now, rfl, htime, hs, hle, ?_⟩
  rw [exhausted, hmax, hwait] at htext
  exact (StoreError.poolExhausted.inj htext).symm

end Run

/-- **An acquisition gives up in time, and leaves nothing behind.** Whoever is told that nobody gave
up a slot came to a pool with a limit to the wait, and the limit has passed since it came. No slot
is free then: all of them are held, in one of four roles, and none by the one that gives up, which
was never given one. The idle clients, the live ones, the free slots and all other parties stay as
they are. Whoever was given a slot is never told so, whatever happens afterwards. -/
theorem gives_up_in_time (h : Pool.new maxSize wait first = .ok p) :
    (∀ moves m t text, .failed t (.poolExhausted text) ∈ (p.run moves).events m →
      let q := p.run moves
      (∃ w s now, wait = some w ∧ m.time? = some now ∧ (t, s) ∈ p.arrivals (moves ++ [m]) ∧
          (∀ s', (t, s') ∈ p.arrivals (moves ++ [m]) → s' = s) ∧ s + w ≤ now ∧
          text = s!"no client available within {w}ms (max {maxSize})") ∧
        (q.free = 0 ∧ q.held = maxSize ∧
          q.held = q.heldBy .acquisition + q.heldBy .guard + q.heldBy .invalidation +
            q.heldBy .background) ∧
        t ∉ q.holders ∧ t ∉ p.grants (moves ++ [m]) ∧
        ((q.move m).idle = q.idle ∧ (q.move m).live = q.live ∧ (q.move m).free = q.free ∧
          (q.move m).holders = q.holders ∧ (q.move m).line = q.line.filter (· ≠ t) ∧
          (q.move m).parties = q.parties.filter (·.1 ≠ t))) ∧
      ∀ before after, ∀ t ∈ p.grants before, ∀ text,
        .failed t (.poolExhausted text) ∉ (p.run before).log after := by
  have hp : Table p := .of_new h
  constructor
  · intro moves m t text hf q
    obtain ⟨hq, hb⟩ := balance_run h moves
    obtain ⟨hup, -⟩ := gives_up hq hf
    obtain ⟨w, s, now, hw, htime, hs, hle, htext⟩ := late_of_gives_up h moves hf
    have hslots := hb.slots
    rw [hup.full, Nat.zero_add, ← held_eq_total] at hslots
    exact ⟨⟨w, s, now, hw, htime, hs, fun s' hs' => arrivals_unique hs' hs, hle, htext⟩,
      ⟨hup.full, hslots, held_eq_heldBy q⟩, hup.unserved, not_granted_of_gives_up hp moves hf,
      hup.idle, hup.live, hup.free, hup.holders, hup.line, hup.others⟩
  · intro before after t ht text hmem
    obtain ⟨between, m, rest, rfl, hf⟩ := exists_of_mem_log hmem
    rw [← run_append] at hf
    refine not_granted_of_gives_up hp (before ++ between) hf ?_
    rw [List.append_assoc, grants_append]
    exact List.mem_append_left _ ht

/-- One slot, which the first party keeps. The second one comes at 5 and may wait for 20: it gives up
at 25, and is told so. Where the first party gives its client back at the deadline, before the
second one looks, that one has a slot and is not told so later. -/
theorem gives_up_in_time_of_deadline :
    ∃ p, Pool.new 1 (some 20) 1 = .ok p ∧
      let moves := [.request (fun _ => true) 0, .created 0 (.ok ()), .request (fun _ => true) 5]
      let late := .proceed (fun _ => true) 25 1
      let text := "no client available within 20ms (max 1)"
      (Event.failed 1 (.poolExhausted text) ∈ (p.run moves).events late ∧
          (p.run moves).free = 0 ∧ 1 ∉ p.grants (moves ++ [late])) ∧
        1 ∈ p.grants (moves ++ [.release 0]) ∧
          .failed 1 (.poolExhausted text) ∉ (p.run (moves ++ [.release 0])).log [late] := by
  refine ⟨_, rfl, ?_⟩
  have hnew : Pool.new 1 (some 20) 1 = .ok _ := rfl
  have htold := (gives_up_in_time hnew).1
    [.request (fun _ => true) 0, .created 0 (.ok ()), .request (fun _ => true) 5]
    (.proceed (fun _ => true) 25 1) 1 "no client available within 20ms (max 1)" (by decide)
  have hspared := (gives_up_in_time hnew).2
    [.request (fun _ => true) 0, .created 0 (.ok ()), .request (fun _ => true) 5, .release 0]
    [.proceed (fun _ => true) 25 1] 1 (by decide) "no client available within 20ms (max 1)"
  exact ⟨⟨by decide, htold.2.1.1, htold.2.2.2.1⟩, by decide, hspared⟩

end Depot.Pool
