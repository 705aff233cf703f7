import Depot.Proofs.Pool.Step

/-!
# No news is lost

A party that could get on by looking, because it was given a slot or because the pool was closed
while it stood in line, was told so and has not looked since (`News`). So when no news is open,
nobody has a slot without having seen to it, and nobody stands in line of a closed pool. A pool
settles as soon as everybody who was told something has looked (`settled_of_looks`).
-/

set_option autoImplicit false

namespace Depot

/-- Whether a party could get on by looking, depending on whether the pool is closed. -/
def Party.hasNews (closed : Bool) : Party → Bool
  | granted => true
  | waiting _ => closed
  | _ => false

namespace Pool

variable {p q r : Pool} {t : Ticket} {x : Party} {next : Option Party} {es : List Event}

/-- Among the parties with certain tickets, those that could get on by looking were told so. -/
def NewsFor (P : Ticket → Prop) (p : Pool) : Prop :=
  ∀ w ∈ p.parties, P w.1 → w.2.hasNews p.closed = true → w.1 ∈ p.called

/-- Every party that could get on by looking was told so. -/
def News (p : Pool) : Prop := p.NewsFor fun _ => True

theorem hasNews_of_not_waiting {b : Bool} (hw : x.isWaiting = false) (hg : x ≠ .granted) :
    x.hasNews b = false := by
  cases x <;> simp_all [Party.hasNews, Party.isWaiting]

theorem NewsFor.advance {P : Ticket → Prop} (h : p.NewsFor P) (ha : Advances p t es q) :
    q.NewsFor P := by
  cases ha with
  | stay => exact h
  | @go x es r next hx hs =>
    intro w hw hP hn
    have hcalled : r.called = p.called := by rw [hs.frame]
    rcases mem_after hw with ⟨-, hy⟩ | ⟨-, hw' | ⟨-, -, hc⟩⟩
    · obtain ⟨-, hwait, hg⟩ := hs.stays hy
      simp [hasNews_of_not_waiting hwait hg] at hn
    · -- another party as before: what it was told stays open
      rw [hs.parties_eq] at hw'
      rw [after_closed, hs.closed_eq] at hn
      exact called_subset_after r t x next (hcalled ▸ h w hw' hP hn)
    · -- another party that was given the freed slot: it was told so
      exact hc

theorem Shift.quiet (h : Shift p t x es r next) (b : Bool) :
    ∀ w ∈ (r.after t x next).parties, w.1 = t → w.2.hasNews b = false := by
  intro w hw ht
  rcases mem_after hw with ⟨-, hy⟩ | ⟨hne, -⟩
  · exact hasNews_of_not_waiting (h.stays hy).2.1 (h.stays hy).2.2
  · exact absurd ht hne

/-- Everybody has been told if everybody but one has, and that one has looked or left if it could
get on. -/
theorem NewsFor.news_of_advances (hp : Table p) (h : p.NewsFor (· ≠ t)) (ha : Advances p t es q)
    (hgo : ∀ x, p.party? t = some x → x.hasNews p.closed = true →
      ∃ es r next, Shift p t x es r next ∧ q = r.after t x next) : q.News := by
  intro w hw _ hn
  by_cases ht : w.1 = t
  · -- the party itself is not where it could get on by looking any more
    exfalso
    cases ha with
    | stay =>
      have hx : p.party? t = some w.2 := (party?_eq_some_iff hp.nodup).2 (ht ▸ hw)
      obtain ⟨es, r, next, hs, e⟩ := hgo w.2 hx hn
      have hquiet := hs.quiet p.closed w (e ▸ hw) ht
      simp [hn] at hquiet
    | go _ hs =>
      rw [hs.quiet _ w hw ht] at hn
      simp at hn
  · exact h.advance ha w hw ht hn

/-! ## Whoever looks or leaves -/

theorem proceed_shift (isValid : Client → Bool) (now : Nat) (hx : p.party? t = some x)
    (hn : x.hasNews p.closed = true) :
    ∃ es r next, Shift p t x es r next ∧ (p.proceed isValid now t).1 = r.after t x next := by
  cases x with
  | waiting d =>
    have hc : p.closed = true := hn
    exact ⟨_, p, none, .cancel rfl, by simp only [proceed, hx, hc, if_true]; rfl⟩
  | granted =>
    cases hc : p.closed with
    | true => exact ⟨_, p, none, .cancel rfl, by simp only [proceed, hx, hc, if_true]; rfl⟩
    | false =>
      obtain ⟨r, next, hs, e⟩ := lend_shift isValid (.granted hc) t
      refine ⟨_, r, next, hs, ?_⟩
      rw [← e]
      simp [proceed, hx, hc]
  | _ => simp [Party.hasNews] at hn

theorem cancel_shift (hx : p.party? t = some x) (hn : x.hasNews p.closed = true) :
    ∃ es r next, Shift p t x es r next ∧ p.cancel t = r.after t x next := by
  cases x with
  | waiting d => exact ⟨_, p, none, .cancel rfl, by simp only [cancel, hx]; rfl⟩
  | granted => exact ⟨_, p, none, .cancel rfl, by simp only [cancel, hx]; rfl⟩
  | _ => simp [Party.hasNews] at hn

theorem News.heard (h : p.News) (t : Ticket) : (p.heard t).NewsFor (· ≠ t) := by
  intro w hw ht hn
  have hmem : w.1 ∈ p.called := h w hw trivial hn
  simp [Pool.heard, hmem, ht]

/-! ## All moves -/

theorem News.enter (h : p.News) (x : Party) : (p.enter x).NewsFor (· ≠ p.nextTicket) := by
  intro w hw ht hn
  simp only [Pool.enter, List.mem_append, List.mem_singleton] at hw
  rcases hw with hw | rfl
  · exact h w hw trivial hn
  · exact absurd rfl ht

theorem News.request (hp : Table p) (h : p.News) (isValid : Client → Bool) (now : Nat) :
    (p.request isValid now).1.News := by
  cases hc : p.closed with
  | true =>
    rw [request_of_closed isValid now hc]
    exact h
  | false =>
    obtain ⟨q, hq, e⟩ := request_of_open isValid now hc
    have hnews : q.NewsFor (· ≠ p.nextTicket) := by
      rcases hq with ⟨rfl, -⟩ | ⟨rfl, -⟩
      · exact h.enter _
      · exact News.enter (p := { p with free := p.free - 1 }) h _
    have htable : Table q := by
      rcases hq with ⟨rfl, hf⟩ | ⟨rfl, hf⟩
      · exact hp.step (.wait _ hc hf)
      · exact hp.step (.grant hc hf)
    rw [e]
    exact hnews.news_of_advances htable (proceed_advances isValid now p.nextTicket q)
      fun x hx hn => proceed_shift isValid now hx hn

/-- Whoever stands in line when the pool is closed is told. -/
theorem News.close (h : p.News) : p.close.1.News := by
  have hcalled : ∀ w ∈ p.parties, w.2.hasNews true = true →
      w.1 ∈ if p.closed then p.called else p.called ++ p.line := by
    intro w hw hn
    cases hc : p.closed with
    | true => exact h w hw trivial (hc ▸ hn)
    | false =>
      cases hw2 : w.2 with
      | waiting d =>
        have hline : w.1 ∈ p.line := mem_line.2 ⟨w.2, hw, by rw [hw2]; rfl⟩
        simp [hline]
      | granted =>
        have hmem : w.1 ∈ p.called := h w hw trivial (by rw [hw2]; rfl)
        simp [hmem]
      | _ => simp [hw2, Party.hasNews] at hn
  simp only [Pool.close]
  cases p.idle.reverse with
  | nil => exact fun w hw _ hn => hcalled w hw hn
  | cons c rest =>
    intro w hw _ hn
    simp only [Pool.enter, List.mem_append, List.mem_singleton] at hw
    rcases hw with hw | rfl
    · exact hcalled w hw hn
    · simp [Party.hasNews] at hn

theorem News.move (hp : Table p) (h : p.News) (m : Move) : (p.move m).News := by
  cases m with
  | request isValid now => exact h.request hp isValid now
  | proceed isValid now t =>
    have hp' : Table (p.heard t) := hp.congr rfl rfl rfl rfl
    exact NewsFor.news_of_advances hp' (h.heard t) (proceed_advances isValid now t (p.heard t))
      fun x hx hn => proceed_shift isValid now hx hn
  | rejected isValid t => exact NewsFor.advance h (rejected_advances isValid t p)
  | created t result => exact NewsFor.advance h (created_advances t result p)
  | release t => exact NewsFor.advance h (release_advances t p)
  | releaseOutside t => exact NewsFor.advance h (releaseOutside_advances t p)
  | drop t => exact NewsFor.advance h (drop_advances t p)
  | dropOutside t => exact NewsFor.advance h (dropOutside_advances t p)
  | invalidate t => exact NewsFor.advance h (invalidate_advances t p)
  | invalidated t => exact NewsFor.advance h (invalidated_advances t p)
  | startDestroy t => exact NewsFor.advance h (startDestroy_advances t p)
  | destroyed t => exact NewsFor.advance h (destroyed_advances t p)
  | close => exact h.close
  | closedOne t => exact NewsFor.advance h (closedOne_advances t p)
  | cancel t =>
    have hp' : Table (p.heard t) := hp.congr rfl rfl rfl rfl
    exact NewsFor.news_of_advances hp' (h.heard t) (cancel_advances t (p.heard t))
      fun x hx hn => cancel_shift hx hn

/-- The induction is on the moves, not on their steps: a party comes, and hears what there is, in
one move. -/
theorem News.run (hp : Table p) (h : p.News) (moves : List Move) : (p.run moves).News := by
  induction moves generalizing p with
  | nil => exact h
  | cons m moves ih => exact ih (hp.steps (steps_move p m)) (h.move hp m)

/-- **No news is lost.** After every run of a new pool, whoever could get on by looking was told so
and has not looked since. -/
theorem news_run {maxSize : Nat} {wait : Option Nat} {first : Client}
    (h : Pool.new maxSize wait first = .ok p) (moves : List Move) : (p.run moves).News := by
  refine News.run (.of_new h) ?_ moves
  rw [eq_of_new h]
  exact fun w hw => absurd hw List.not_mem_nil

/-! ## Settling -/

/-- In a settled pool nobody could get on by looking. -/
theorem News.quiet_of_settled (h : p.News) (hs : p.Settled) :
    ∀ w ∈ p.parties, w.2.hasNews p.closed = false := by
  intro w hw
  cases hn : w.2.hasNews p.closed with
  | false => rfl
  | true =>
    have hmem := h w hw trivial hn
    rw [hs] at hmem
    simp at hmem

/-- To look makes no news: no slot is freed by it, unless the pool is closed. -/
theorem called_proceed (isValid : Client → Bool) (now : Nat) (t : Ticket) (p : Pool) :
    (p.proceed isValid now t).1.called = p.called := by
  unfold proceed
  split
  · split
    · rfl
    · split <;> rfl
  · split
    · rename_i hc
      rw [freeSlot_of_closed (p := p.leave t) hc]
      rfl
    · unfold lend
      split
      · rfl
      · split <;> rfl
  · rfl

theorem called_run_proceed (isValid : Client → Bool) (now : Nat) (ts : List Ticket) (p : Pool) :
    (p.run (ts.map (.proceed isValid now ·))).called = p.called.filter (· ∉ ts) := by
  induction ts generalizing p with
  | nil => simp
  | cons t ts ih =>
    have hone : (p.move (.proceed isValid now t)).called = p.called.filter (· ≠ t) :=
      called_proceed isValid now t (p.heard t)
    rw [List.map_cons, run_cons, ih, hone, List.filter_filter]
    refine List.filter_congr fun u _ => ?_
    simp [Bool.and_comm]

/-- **A pool settles.** When everybody who was told something has looked, in whatever order, the
pool has settled. -/
theorem settled_of_looks (isValid : Client → Bool) (now : Nat) {ts : List Ticket}
    (h : p.called ⊆ ts) : (p.run (ts.map (.proceed isValid now ·))).Settled := by
  rw [Settled, called_run_proceed]
  refine List.filter_eq_nil_iff.2 fun t ht => ?_
  simp [h ht]

end Pool

end Depot
