import Depot.Pool.Events
import Depot.Proofs.Pool.Table

/-!
# What a move can do

Every move of a pool is made of few kinds of steps: a party gets on from one phase to another or
leaves (`Shift`), a party comes in, or the pool is closed and drained (`Step`). The inversion lemmas
of the single moves are collected in `steps_move` and `steps_run`: whatever holds after every step
holds after every run, together with its log.
-/

set_option autoImplicit false

namespace Depot.Pool

variable {p q : Pool} {t : Ticket} {x : Party} {es fs : List Event}

/-- An acquisition with a slot that now looks for a client: it has seen to its slot in an open pool,
or the unfit client that it had found is destroyed. -/
inductive Seeks (p : Pool) : Party → List Event → Prop where
  | granted : p.closed = false → Seeks p .granted []
  | rejecting (c : Client) : Seeks p (.rejecting c) [.gone c .destroyed]

/-- The party of a ticket gets on from a phase to the next one, if it stays. The events come with
the pool in which clients were taken, given back and counted, before the party changes its place. -/
inductive Shift (p : Pool) (t : Ticket) : Party → List Event → Pool → Option Party → Prop where
  | create {x : Party} {es : List Event} : Seeks p x es → p.idle = [] →
      Shift p t x es p (some .creating)
  | take {x : Party} {es : List Event} {c : Client} {rest : List Client} : Seeks p x es →
      p.idle = c :: rest →
      Shift p t x (es ++ [.lent t c]) { p with idle := rest } (some (.holding c))
  | reject {x : Party} {es : List Event} {c : Client} {rest : List Client} : Seeks p x es →
      p.idle = c :: rest →
      Shift p t x (es ++ [.withdrawn c, .begun c]) { p with idle := rest, live := p.live - 1 }
        (some (.rejecting c))
  | created : Shift p t .creating [.lent t p.nextClient]
      { p with nextClient := p.nextClient + 1, live := p.live + 1 } (some (.holding p.nextClient))
  | discard {c : Client} : Shift p t (.holding c) [.withdrawn c] p (some (.discarding c))
  | invalidate {c : Client} : Shift p t (.holding c) [.withdrawn c, .begun c]
      { p with live := p.live - 1 } (some (.invalidating c))
  | destroy {c : Client} : Shift p t (.discarding c) [.begun c]
      { p with live := p.live - 1 } (some (.destroying c))
  | next {c d : Client} {rest : List Client} :
      Shift p t (.closing c (d :: rest)) [.gone c .destroyed, .begun d]
        { p with live := p.live - 1 } (some (.closing d rest))
  | giveBack {c : Client} : p.closed = false →
      Shift p t (.holding c) [] { p with idle := c :: p.idle } none
  | letGo {c : Client} : Shift p t (.holding c) [.withdrawn c, .gone c .letGo]
      { p with live := p.live - 1 } none
  | finish {x : Party} {c : Client} :
      x = .invalidating c ∨ x = .destroying c ∨ x = .closing c [] →
      Shift p t x [.gone c .destroyed] p none
  | cutOff {x : Party} {c : Client} : x = .rejecting c ∨ x = .invalidating c →
      Shift p t x [.cancelled t, .gone c .cutOff] p none
  | abandon {c : Client} {rest : List Client} :
      Shift p t (.closing c rest) (.cancelled t :: (c :: rest).map (.gone · .abandoned)) p none
  | cancel {x : Party} : x.clients = [] → Shift p t x [.cancelled t] p none
  | fail {x : Party} {e : StoreError} : x.clients = [] →
      (p.closed = true → x ≠ .creating → e = .poolClosed) → Shift p t x [.failed t e] p none

/-- The party of a ticket stays where it is or gets on. -/
inductive Advances (p : Pool) (t : Ticket) : List Event → Pool → Prop where
  | stay : Advances p t [] p
  | go {x : Party} {es : List Event} {r : Pool} {next : Option Party} : p.party? t = some x →
      Shift p t x es r next → Advances p t es (r.after t x next)

/-- What can happen to a pool at once. -/
inductive Step : Pool → List Event → Pool → Prop where
  | advance {p q : Pool} {t : Ticket} {es : List Event} : Advances p t es q → Step p es q
  | refuse {p : Pool} : p.closed = true → Step p [.failed p.nextTicket .poolClosed] p
  | wait {p : Pool} (deadline : Option Nat) : p.closed = false → p.free = 0 →
      Step p [] (p.enter (.waiting deadline))
  | grant {p : Pool} : p.closed = false → 0 < p.free →
      Step p [] ({ p with free := p.free - 1 }.enter .granted)
  | close {p : Pool} (called : List Ticket) : p.idle = [] →
      Step p [] { p with closed := true, called }
  | drain {p : Pool} {c : Client} {rest : List Client} (called : List Ticket) :
      p.idle.reverse = c :: rest →
      Step p (p.idle.map .withdrawn ++ [.begun c])
        ({ p with closed := true, idle := [], live := p.live - 1, called }.enter (.closing c rest))
  | hear {p : Pool} (called : List Ticket) : Step p [] { p with called }

/-- Steps in a row, with all that they bring about. -/
inductive Steps (p : Pool) : List Event → Pool → Prop where
  | refl : Steps p [] p
  | tail {q r : Pool} {es fs : List Event} : Steps p es q → Step q fs r → Steps p (es ++ fs) r

theorem Step.steps (h : Step p es q) : Steps p es q := by
  simpa using Steps.refl.tail h

theorem Steps.trans {r : Pool} (h : Steps p es q) (h' : Steps q fs r) : Steps p (es ++ fs) r := by
  induction h' with
  | refl => simpa using h
  | tail _ hs ih =>
    rw [← List.append_assoc]
    exact ih.tail hs

/-- What every step keeps holds after all steps. -/
theorem Steps.keep {P : Pool → Prop}
    (hstep : ∀ {p q : Pool} {es : List Event}, Step p es q → P p → P q) (h : Steps p es q)
    (hp : P p) : P q := by
  induction h with
  | refl => exact hp
  | tail _ hs ih => exact hstep hs ih

/-- What every step keeps, unless something happens, holds after all steps unless that happened. -/
theorem Steps.until {P : Pool → Prop} {E : Event → Prop}
    (hstep : ∀ {p q : Pool} {es : List Event}, Step p es q → P p → P q ∨ ∃ e ∈ es, E e)
    (h : Steps p es q) (hp : P p) : P q ∨ ∃ e ∈ es, E e := by
  induction h with
  | refl => exact Or.inl hp
  | tail _ hs ih =>
    rcases ih with hq | ⟨e, he, hE⟩
    · rcases hstep hs hq with hr | ⟨e, he, hE⟩
      · exact Or.inl hr
      · exact Or.inr ⟨e, List.mem_append_right _ he, hE⟩
    · exact Or.inr ⟨e, List.mem_append_left _ he, hE⟩

/-! ## What every step leaves as it is -/

section Shift

variable {r : Pool} {next : Option Party}

theorem Shift.frame (h : Shift p t x es r next) :
    r = { p with idle := r.idle, live := r.live, nextClient := r.nextClient } := by
  cases h <;> rfl

theorem Seeks.holdsSlot (h : Seeks p x es) : x.holdsSlot = true := by
  cases h <;> rfl

/-- Who stays keeps the slot that it held, and neither stands in line nor was just given a slot. -/
theorem Shift.stays (h : Shift p t x es r next) {y : Party} (hy : next = some y) :
    y.holdsSlot = x.holdsSlot ∧ y.isWaiting = false ∧ y ≠ .granted := by
  subst hy
  cases h with
  | create hs | take hs | reject hs => exact ⟨hs.holdsSlot.symm, rfl, nofun⟩
  | _ => exact ⟨rfl, rfl, nofun⟩

theorem Shift.parties_eq (h : Shift p t x es r next) : r.parties = p.parties := by
  rw [h.frame]

theorem Shift.closed_eq (h : Shift p t x es r next) : r.closed = p.closed := by
  rw [h.frame]

theorem Shift.table (h : Shift p t x es r next) (hp : Table p) : Table r := by
  rw [h.frame]
  exact hp.congr rfl rfl rfl rfl

theorem Shift.party?_eq (h : Shift p t x es r next) (hx : p.party? t = some x) :
    r.party? t = some x := by
  rwa [party?, h.parties_eq]

/-- What the other parties amount to stays when one of them gets on. -/
theorem Shift.total_after {M : Type} [AddCommMonoid M] {f : Party → M} (h : Shift p t x es r next)
    (hp : Table p) (hx : p.party? t = some x) (hf : ∀ d, f (.waiting d) = f .granted) :
    (r.after t x next).total f + f x = p.total f + next.elim 0 f := by
  rw [Pool.total_after (h.table hp) (h.party?_eq hx) hf next, total_congr f h.parties_eq]

theorem Shift.free_add_after (h : Shift p t x es r next) (hp : Table p)
    (hx : p.party? t = some x) :
    (r.after t x next).free + (r.after t x next).total Party.slots =
      p.free + p.total Party.slots := by
  have hfree : r.free = p.free := by rw [h.frame]
  rw [Pool.free_add_after (h.table hp) (h.party?_eq hx) fun y hy => (h.stays hy).1, hfree,
    total_congr _ h.parties_eq]

end Shift

theorem Advances.closed_eq (h : Advances p t es q) : q.closed = p.closed := by
  cases h with
  | stay => rfl
  | go _ hs => rw [after_closed, hs.closed_eq]

theorem Table.advance (hp : Table p) (h : Advances p t es q) : Table q := by
  cases h with
  | stay => exact hp
  | go hx hs =>
    exact (hs.table hp).after (hs.party?_eq hx) fun y hy => ⟨(hs.stays hy).1, (hs.stays hy).2.1⟩

theorem Table.step (hp : Table p) (h : Step p es q) : Table q := by
  cases h with
  | advance h => exact hp.advance h
  | refuse _ => exact hp
  | wait d _ hf => exact hp.enter (by simp [Party.holdsSlot]) fun _ => Or.inr hf
  | grant hc hf =>
    -- there was a free slot, so nobody stands in line
    have hp' : Table { p with free := p.free - 1 } :=
      ⟨hp.sorted, hp.fresh, hp.behind, fun _ _ => hp.full hc hf⟩
    exact hp'.enter (fun _ => hp.full hc hf) (by simp [Party.isWaiting])
  | close called _ => exact ⟨hp.sorted, hp.fresh, hp.behind, by simp⟩
  | @drain c rest called _ =>
    have hp' : Table { p with closed := true, idle := [], live := p.live - 1, called } :=
      ⟨hp.sorted, hp.fresh, hp.behind, by simp⟩
    exact hp'.enter (by simp [Party.holdsSlot]) (by simp [Party.isWaiting])
  | hear called => exact hp.congr rfl rfl rfl rfl

theorem Table.steps (hp : Table p) (h : Steps p es q) : Table q :=
  h.keep (fun hs hp => hp.step hs) hp

/-- A new pool has slots, all of them free, and nothing else. -/
theorem eq_of_new {maxSize : Nat} {wait : Option Nat} {first : Client}
    (h : Pool.new maxSize wait first = .ok p) :
    p = ⟨maxSize, wait, maxSize, [], 0, false, [], first, 0, []⟩ := by
  unfold Pool.new at h
  split at h
  · simp at h
  · exact (Except.ok.inj h).symm

theorem Table.of_new {maxSize : Nat} {wait : Option Nat} {first : Client}
    (h : Pool.new maxSize wait first = .ok p) : Table p := by
  rw [eq_of_new h]
  exact ⟨by simp [tickets], by simp [tickets], by simp, by simp⟩

/-! ## The moves of an acquisition -/

/-- An acquisition that looks for a client takes one, finds one unfit, or has one created. -/
theorem lend_shift (isValid : Client → Bool) (hs : Seeks p x es) (t : Ticket) :
    ∃ r next, Shift p t x (es ++ (lend isValid t p).2.events t) r next ∧
      (lend isValid t p).1 = r.after t x next := by
  unfold lend
  split
  · rename_i hi
    rw [Progress.events, List.append_nil]
    exact ⟨_, _, .create hs hi, rfl⟩
  · rename_i c rest hi
    split
    · exact ⟨_, _, .take hs hi, rfl⟩
    · exact ⟨_, _, .reject hs hi, rfl⟩

theorem lend_advances (isValid : Client → Bool) (hx : p.party? t = some x) (hs : Seeks p x es) :
    Advances p t (es ++ (lend isValid t p).2.events t) (lend isValid t p).1 := by
  obtain ⟨r, next, hshift, e⟩ := lend_shift isValid hs t
  rw [e]
  exact .go hx hshift

theorem proceed_advances (isValid : Client → Bool) (now : Nat) (t : Ticket) (p : Pool) :
    Advances p t ((p.proceed isValid now t).2.events t) (p.proceed isValid now t).1 := by
  unfold proceed
  split
  · rename_i d hx
    split
    · exact .go hx (.fail rfl fun _ _ => rfl)
    · rename_i hc
      split
      · exact .go hx (.fail rfl fun h => absurd h hc)
      · exact .stay
  · rename_i hx
    split
    · exact .go hx (.fail rfl fun _ _ => rfl)
    · rename_i hc
      exact lend_advances isValid hx (.granted (by simpa using hc))
  · exact .stay

theorem rejected_advances (isValid : Client → Bool) (t : Ticket) (p : Pool) :
    Advances p t (p.events (.rejected isValid t)) (p.rejected isValid t).1 := by
  simp only [events, rejected]
  cases hx : p.party? t with
  | none => exact .stay
  | some x =>
    cases x with
    | rejecting c => exact lend_advances isValid hx (.rejecting c)
    | _ => exact .stay

theorem created_advances (t : Ticket) (result : Except StoreError Unit) (p : Pool) :
    Advances p t (p.events (.created t result)) (p.created t result).1 := by
  simp only [events, created]
  cases hx : p.party? t with
  | none => exact .stay
  | some x =>
    cases x with
    | creating =>
      cases result with
      | ok _ => exact .go hx .created
      | error e => exact .go hx (.fail rfl fun _ h => absurd rfl h)
    | _ => exact .stay

/-! ## The moves by which a client comes back -/

theorem release_advances (t : Ticket) (p : Pool) :
    Advances p t (p.events (.release t)) (p.release t).1 := by
  simp only [events, release]
  cases hx : p.party? t with
  | none => exact .stay
  | some x =>
    cases x with
    | holding c =>
      dsimp only
      by_cases hc : p.closed = true
      · rw [if_pos hc]
        exact .go hx .discard
      · rw [if_neg hc]
        exact .go hx (.giveBack (by simpa using hc))
    | _ => exact .stay

theorem drop_advances (t : Ticket) (p : Pool) : Advances p t (p.events (.drop t)) (p.drop t).1 := by
  simp only [events, drop]
  cases hx : p.party? t with
  | none => exact .stay
  | some x =>
    cases x with
    | holding c => exact .go hx .discard
    | _ => exact .stay

theorem dropOutside_advances (t : Ticket) (p : Pool) :
    Advances p t (p.events (.dropOutside t)) (p.dropOutside t) := by
  simp only [events, dropOutside]
  cases hx : p.party? t with
  | none => exact .stay
  | some x =>
    cases x with
    | holding c => exact .go hx .letGo
    | _ => exact .stay

/-- In an open pool it makes no difference where a client is given back, and in a closed one it is
let go of. -/
theorem releaseOutside_advances (t : Ticket) (p : Pool) :
    Advances p t (p.events (.releaseOutside t)) (p.releaseOutside t) := by
  simp only [events, releaseOutside, release, dropOutside]
  cases hx : p.party? t with
  | none => cases p.closed <;> exact .stay
  | some x =>
    cases x with
    | holding c =>
      dsimp only
      by_cases hc : p.closed = true
      · rw [if_pos hc, if_pos hc]
        exact .go hx .letGo
      · rw [if_neg hc, if_neg hc, if_neg hc]
        exact .go hx (.giveBack (by simpa using hc))
    | _ => cases p.closed <;> exact .stay

theorem invalidate_advances (t : Ticket) (p : Pool) :
    Advances p t (p.events (.invalidate t)) (p.invalidate t).1 := by
  simp only [events, invalidate]
  cases hx : p.party? t with
  | none => exact .stay
  | some x =>
    cases x with
    | holding c => exact .go hx .invalidate
    | _ => exact .stay

theorem invalidated_advances (t : Ticket) (p : Pool) :
    Advances p t (p.events (.invalidated t)) (p.invalidated t) := by
  simp only [events, invalidated]
  cases hx : p.party? t with
  | none => exact .stay
  | some x =>
    cases x with
    | invalidating c => exact .go hx (.finish (Or.inl rfl))
    | _ => exact .stay

/-! ## The moves of destruction -/

theorem startDestroy_advances (t : Ticket) (p : Pool) :
    Advances p t (p.events (.startDestroy t)) (p.startDestroy t).1 := by
  simp only [events, startDestroy]
  cases hx : p.party? t with
  | none => exact .stay
  | some x =>
    cases x with
    | discarding c => exact .go hx .destroy
    | _ => exact .stay

theorem destroyed_advances (t : Ticket) (p : Pool) :
    Advances p t (p.events (.destroyed t)) (p.destroyed t) := by
  simp only [events, destroyed]
  cases hx : p.party? t with
  | none => exact .stay
  | some x =>
    cases x with
    | destroying c => exact .go hx (.finish (Or.inr (Or.inl rfl)))
    | _ => exact .stay

theorem closedOne_advances (t : Ticket) (p : Pool) :
    Advances p t (p.events (.closedOne t)) (p.closedOne t).1 := by
  simp only [events, closedOne]
  cases hx : p.party? t with
  | none => exact .stay
  | some x =>
    cases x with
    | closing c rest =>
      cases rest with
      | nil => exact .go hx (.finish (Or.inr (Or.inr rfl)))
      | cons d rest => exact .go hx .next
    | _ => exact .stay

theorem cancel_advances (t : Ticket) (p : Pool) :
    Advances p t (p.events (.cancel t)) (p.cancel t) := by
  simp only [events, cancel]
  cases hx : p.party? t with
  | none => exact .stay
  | some x =>
    cases x with
    | waiting d => exact .go hx (.cancel rfl)
    | granted => exact .go hx (.cancel rfl)
    | rejecting c => exact .go hx (.cutOff (Or.inl rfl))
    | creating => exact .go hx (.cancel rfl)
    | invalidating c => exact .go hx (.cutOff (Or.inr rfl))
    | closing c rest => exact .go hx .abandon
    | _ => exact .stay

/-! ## All moves -/

theorem request_of_closed (isValid : Client → Bool) (now : Nat) (h : p.closed = true) :
    p.request isValid now = (p, p.nextTicket, .failed .poolClosed) := by
  simp only [request]
  rw [if_pos h]

/-- A party that comes to an open pool stands in line, or has a slot at once, and looks. -/
theorem request_of_open (isValid : Client → Bool) (now : Nat) (h : p.closed = false) :
    ∃ q, (q = p.enter (.waiting (p.wait.map (now + ·))) ∧ p.free = 0 ∨
        q = { p with free := p.free - 1 }.enter .granted ∧ 0 < p.free) ∧
      p.request isValid now =
        ((q.proceed isValid now p.nextTicket).1, p.nextTicket,
          (q.proceed isValid now p.nextTicket).2) := by
  simp only [request]
  rw [if_neg (by simp [h])]
  by_cases hf : p.free = 0
  · rw [if_pos hf]
    exact ⟨_, Or.inl ⟨rfl, hf⟩, rfl⟩
  · rw [if_neg hf]
    exact ⟨_, Or.inr ⟨rfl, Nat.pos_of_ne_zero hf⟩, rfl⟩

theorem request_steps (isValid : Client → Bool) (now : Nat) (p : Pool) :
    Steps p (p.events (.request isValid now)) (p.request isValid now).1 := by
  simp only [events]
  cases hc : p.closed with
  | true =>
    rw [request_of_closed isValid now hc]
    exact (Step.refuse hc).steps
  | false =>
    obtain ⟨q, hq, e⟩ := request_of_open isValid now hc
    have henter : Step p [] q := by
      rcases hq with ⟨rfl, hf⟩ | ⟨rfl, hf⟩
      · exact .wait _ hc hf
      · exact .grant hc hf
    rw [e]
    exact henter.steps.tail (.advance (proceed_advances isValid now p.nextTicket q))

theorem close_step (p : Pool) : Step p (p.events .close) p.close.1 := by
  simp only [events, close]
  cases hi : p.idle.reverse with
  | nil =>
    have hidle : p.idle = [] := by simpa using hi
    have h := Step.close (if p.closed then p.called else p.called ++ p.line) hidle
    simpa [hidle] using h
  | cons c rest => exact .drain _ hi

/-- A move asks for a client, closes the pool, or is a step of a party that is in the table
already. -/
theorem move_cases (p : Pool) (m : Move) :
    (∃ isValid now, m = .request isValid now) ∨ m = .close ∨
      ∃ called t, Advances { p with called } t (p.events m) (p.move m) := by
  cases m with
  | request isValid now => exact Or.inl ⟨isValid, now, rfl⟩
  | close => exact Or.inr (Or.inl rfl)
  | proceed isValid now t =>
    exact Or.inr (Or.inr ⟨_, t, proceed_advances isValid now t (p.heard t)⟩)
  | rejected isValid t => exact Or.inr (Or.inr ⟨_, t, rejected_advances isValid t p⟩)
  | created t result => exact Or.inr (Or.inr ⟨_, t, created_advances t result p⟩)
  | release t => exact Or.inr (Or.inr ⟨_, t, release_advances t p⟩)
  | releaseOutside t => exact Or.inr (Or.inr ⟨_, t, releaseOutside_advances t p⟩)
  | drop t => exact Or.inr (Or.inr ⟨_, t, drop_advances t p⟩)
  | dropOutside t => exact Or.inr (Or.inr ⟨_, t, dropOutside_advances t p⟩)
  | invalidate t => exact Or.inr (Or.inr ⟨_, t, invalidate_advances t p⟩)
  | invalidated t => exact Or.inr (Or.inr ⟨_, t, invalidated_advances t p⟩)
  | startDestroy t => exact Or.inr (Or.inr ⟨_, t, startDestroy_advances t p⟩)
  | destroyed t => exact Or.inr (Or.inr ⟨_, t, destroyed_advances t p⟩)
  | closedOne t => exact Or.inr (Or.inr ⟨_, t, closedOne_advances t p⟩)
  | cancel t => exact Or.inr (Or.inr ⟨_, t, cancel_advances t (p.heard t)⟩)

/-- A move is made of steps. -/
theorem steps_move (p : Pool) (m : Move) : Steps p (p.events m) (p.move m) := by
  rcases move_cases p m with ⟨isValid, now, rfl⟩ | rfl | ⟨called, t, ha⟩
  · exact request_steps isValid now p
  · exact (close_step p).steps
  · -- A party that gets on may have heard its call first.
    exact (Step.hear called).steps.tail (.advance ha)

/-- A run is made of steps, and its log is what they bring about. -/
theorem steps_run (p : Pool) (moves : List Move) : Steps p (p.log moves) (p.run moves) := by
  induction moves generalizing p with
  | nil => exact .refl
  | cons m moves ih => exact (steps_move p m).trans (ih (p.move m))

end Depot.Pool
