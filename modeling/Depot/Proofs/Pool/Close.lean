import Depot.Proofs.Pool.Bound
import Depot.Proofs.Pool.Lifecycle
import Depot.Proofs.Pool.News

/-!
# Closing a pool

A closed pool stays closed and without idle clients, and nobody gets a slot in it any more. Whoever
stood in line or had a slot without having seen to it ends with `poolClosed` unless it is cancelled
(`Steps.pending`); a client is only lent to an acquisition that was creating one, or destroying an
unfit one (`Steps.seeker`). When all parties are gone that destroy clients, no client is left, and
each was destroyed once (`close_final`).
-/

set_option autoImplicit false

namespace Depot

/-- Whether an acquisition has a slot and will look for a client even in a closed pool. -/
def Party.seeks : Party → Bool
  | rejecting _ => true
  | creating => true
  | _ => false

namespace Pool

variable {p q r : Pool} {t : Ticket} {x y : Party} {next : Option Party} {es : List Event}
  {c : Client}

/-! ## Nobody is idle -/

theorem close_closed (p : Pool) : p.close.1.closed = true := by
  simp only [close]
  cases p.idle.reverse with
  | nil => rfl
  | cons c rest => rfl

theorem Step.closed (h : Step p es q) (hc : p.closed = true) : q.closed = true := by
  cases h with
  | advance ha => rw [ha.closed_eq, hc]
  | close | drain => rfl
  | _ => exact hc

theorem Step.idle_of_closed (h : Step p es q) (hp : p.closed = true → p.idle = []) :
    q.closed = true → q.idle = [] := by
  cases h with
  | advance ha =>
    cases ha with
    | stay => exact hp
    | go _ hs =>
      intro hq
      have hc : p.closed = true := by rw [← hs.closed_eq, ← hq, after_closed]
      have hidle := hp hc
      rw [after_idle]
      cases hs with
      | take _ hi | reject _ hi => simp [hidle] at hi
      | giveBack hopen => simp [hc] at hopen
      | _ => exact hidle
  | close _ hi => exact fun _ => hi
  | drain => exact fun _ => rfl
  | _ => exact hp

/-- A closed pool with no idle clients. -/
def Shut (p : Pool) : Prop := p.closed = true ∧ p.idle = []

theorem Shut.step (hp : Shut p) (h : Step p es q) : Shut q :=
  ⟨h.closed hp.1, h.idle_of_closed (fun _ => hp.2) (h.closed hp.1)⟩

theorem Shut.steps (hp : Shut p) (h : Steps p es q) : Shut q :=
  h.keep (fun hs hp => hp.step hs) hp

/-! ## Whoever waits -/

/-- In a closed pool the other parties stay as they are when one gets on. -/
theorem mem_after_of_closed (hc : p.closed = true) {w : Ticket × Party} (hw : w ∈ p.parties)
    (hne : w.1 ≠ t) : w ∈ (p.after t x next).parties := by
  have hleave : w ∈ (p.leave t).parties := mem_leave.2 ⟨hw, hne⟩
  cases next with
  | some y => exact List.mem_map.2 ⟨w, hw, if_neg hne⟩
  | none =>
    rw [after_none]
    split
    · rw [freeSlot_of_closed (p := p.leave t) hc]
      exact hleave
    · exact hleave

/-- A party of a closed pool that waits, or has not seen to its slot, stays where it is until it
fails or is cancelled. -/
theorem Step.pending (hp : Table p) (hc : p.closed = true) (h : Step p es q)
    (hx : (t, x) ∈ p.parties) (hw : x.hasNews true = true) :
    (t, x) ∈ q.parties ∨ ∃ e ∈ es, e = .failed t .poolClosed ∨ e = .cancelled t := by
  cases h with
  | @advance _ u _ ha =>
    cases ha with
    | stay => exact Or.inl hx
    | @go z es r next hz hs =>
      by_cases hu : t = u
      · -- the party itself gets on, and what it can do in a closed pool is to fail or be cancelled
        subst hu
        have hzx : z = x := by
          rw [(party?_eq_some_iff hp.nodup).2 hx] at hz
          exact (Option.some.inj hz).symm
        subst hzx
        right
        cases hs with
        | create hs _ | take hs _ | reject hs _ =>
          cases hs with
          | granted hopen => simp [hc] at hopen
          | rejecting d => simp [Party.hasNews] at hw
        | cancel _ => simp
        | fail _ he =>
          have hne : z ≠ .creating := by
            rintro rfl
            simp [Party.hasNews] at hw
          simp [he hc hne]
        | finish hz => rcases hz with rfl | rfl | rfl <;> simp [Party.hasNews] at hw
        | cutOff hz => rcases hz with rfl | rfl <;> simp [Party.hasNews] at hw
        | _ => simp [Party.hasNews] at hw
      · have hclosed : r.closed = true := by rw [hs.closed_eq, hc]
        exact Or.inl (mem_after_of_closed hclosed (hs.parties_eq ▸ hx) hu)
  | wait _ hopen _ | grant hopen _ => simp [hc] at hopen
  | drain _ hi => exact Or.inl (List.mem_append_left _ hx)
  | _ => exact Or.inl hx

theorem Steps.pending (hp : Table p) (hc : p.closed = true) (h : Steps p es q)
    (hx : (t, x) ∈ p.parties) (hw : x.hasNews true = true) :
    (t, x) ∈ q.parties ∨ ∃ e ∈ es, e = .failed t .poolClosed ∨ e = .cancelled t := by
  have huntil := h.until (P := fun p => (Table p ∧ p.closed = true) ∧ (t, x) ∈ p.parties)
    (E := fun e => e = .failed t .poolClosed ∨ e = .cancelled t)
    (fun hs hp => (hs.pending hp.1.1 hp.1.2 hp.2 hw).imp_left
      fun hx => ⟨⟨hp.1.1.step hs, hs.closed hp.1.2⟩, hx⟩) ⟨⟨hp, hc⟩, hx⟩
  exact huntil.imp_left And.right

/-! ## Whoever seeks a client -/

/-- An acquisition ends, and not because the pool is closed. -/
def Event.serves (t : Ticket) : Event → Prop
  | .lent s _ => s = t
  | .failed s e => s = t ∧ e ≠ .poolClosed
  | _ => False

/-- Whoever seeks a client in a closed pool has done so before. -/
theorem Step.seeker (hp : Shut p) (h : Step p es q) (hy : (t, y) ∈ q.parties)
    (hs : y.seeks = true) : ∃ x, (t, x) ∈ p.parties ∧ x.seeks = true := by
  obtain ⟨hc, hi⟩ := hp
  cases h with
  | advance ha =>
    cases ha with
    | stay => exact ⟨y, hy, hs⟩
    | go hz hshift =>
      rcases mem_after hy with ⟨rfl, hnext⟩ | ⟨-, hy' | ⟨hg, -⟩⟩
      · -- the party itself: it was destroying an unfit client, and creates one now
        cases hshift with
        | create hseeks _ =>
          cases hseeks with
          | granted hopen => simp [hc] at hopen
          | rejecting d => exact ⟨_, mem_of_party? hz, rfl⟩
        | reject _ hi' => simp [hi] at hi'
        | finish _ | cutOff _ | cancel _ | fail _ _ => simp at hnext
        | _ =>
          simp at hnext
          try simp [← hnext, Party.seeks] at hs
      · exact ⟨y, hshift.parties_eq ▸ hy', hs⟩
      · have hg' : y = .granted := hg
        simp [hg', Party.seeks] at hs
  | wait _ hopen _ | grant hopen _ => simp [hc] at hopen
  | drain _ hi' => simp [hi] at hi'
  | _ => exact ⟨y, hy, hs⟩

/-- Only whoever seeks a client ends otherwise than with `poolClosed`. -/
theorem Step.served (hp : Shut p) (h : Step p es q) {e : Event} (he : e ∈ es)
    (hserves : e.serves t) : ∃ x, (t, x) ∈ p.parties ∧ x.seeks = true := by
  obtain ⟨hc, hi⟩ := hp
  cases e with
  | lent s c =>
    obtain rfl : s = t := hserves
    cases h with
    | advance ha =>
      cases ha with
      | stay => simp at he
      | go hz hs =>
        cases hs with
        | create hs _ => cases hs <;> simp at he
        | take _ hi' | reject _ hi' => simp [hi] at hi'
        | created =>
          obtain ⟨rfl, -⟩ : s = _ ∧ _ := by simpa using he
          exact ⟨_, mem_of_party? hz, rfl⟩
        | _ => simp at he
    | _ => simp at he
  | failed s e =>
    obtain ⟨rfl, hne⟩ : s = t ∧ e ≠ .poolClosed := hserves
    cases h with
    | advance ha =>
      cases ha with
      | stay => simp at he
      | @go x _ _ _ hz hs =>
        cases hs with
        | create hs _ => cases hs <;> simp at he
        | take _ hi' | reject _ hi' => simp [hi] at hi'
        | fail _ hclosed =>
          -- every failure but that of a creation is the closed pool's
          obtain ⟨rfl, rfl⟩ : s = _ ∧ e = _ := by simpa using he
          have hx : x = .creating := by
            by_contra hx
            exact hne (hclosed hc hx)
          exact ⟨x, mem_of_party? hz, by rw [hx]; rfl⟩
        | _ => simp at he
    | refuse _ =>
      obtain ⟨-, rfl⟩ : s = _ ∧ e = _ := by simpa using he
      exact absurd rfl hne
    | _ => simp at he
  | _ => exact hserves.elim

theorem Steps.seeker (hp : Shut p) (h : Steps p es q) (hy : (t, y) ∈ q.parties)
    (hs : y.seeks = true) : ∃ x, (t, x) ∈ p.parties ∧ x.seeks = true := by
  induction h generalizing y with
  | refl => exact ⟨y, hy, hs⟩
  | tail h hstep ih =>
    obtain ⟨x, hx, hxs⟩ := hstep.seeker (hp.steps h) hy hs
    exact ih hx hxs

theorem Steps.served (hp : Shut p) (h : Steps p es q) {e : Event} (he : e ∈ es)
    (hserves : e.serves t) : ∃ x, (t, x) ∈ p.parties ∧ x.seeks = true := by
  induction h with
  | refl => simp at he
  | tail h hs ih =>
    rcases List.mem_append.1 he with he | he
    · exact ih he
    · obtain ⟨x, hx, hxs⟩ := hs.served (hp.steps h) he hserves
      exact h.seeker hp hx hxs

/-! ## The shown number -/

/-- The shown number stays exact unless a closing party is cancelled. -/
theorem Step.live_eq (hp : Table p) (h : Step p es q) (hes : goneBy .abandoned es = [])
    (hl : p.live = p.idle.length + p.total Party.counted) :
    q.live = q.idle.length + q.total Party.counted := by
  cases h with
  | advance ha =>
    cases ha with
    | stay => exact hl
    | @go x es r next hx hs =>
      have hcounted := hs.total_after hp hx (f := Party.counted) fun _ => rfl
      have hleave := total_leave Party.counted hp.nodup hx
      have hlive := hs.live_add (by omega)
      rw [hes, List.length_nil] at hlive
      simp only [after_live, after_idle]
      omega
  | wait _ _ _ | grant _ _ =>
    rw [total_enter]
    exact hl
  | @drain c rest _ hi =>
    have hlen : p.idle.length = rest.length + 1 := by
      rw [← List.length_reverse, hi, List.length_cons]
    rw [total_enter]
    show p.live - 1 = 0 + (p.total Party.counted + rest.length)
    omega
  | _ => exact hl

theorem Steps.live_eq (hp : Table p) (h : Steps p es q) (hes : goneBy .abandoned es = [])
    (hl : p.live = p.idle.length + p.total Party.counted) :
    q.live = q.idle.length + q.total Party.counted := by
  induction h with
  | refl => exact hl
  | tail h hs ih =>
    rw [goneBy_append, List.append_eq_nil_iff] at hes
    exact hs.live_eq (hp.steps h) hes.2 (ih hes.1)

/-- Whoever is gone came to one of four ends. -/
theorem count_gone (c : Client) (es : List Event) :
    (gone es).count c = (goneBy .destroyed es).count c + (goneBy .cutOff es).count c +
      (goneBy .letGo es).count c + (goneBy .abandoned es).count c := by
  induction es with
  | nil => rfl
  | cons e es ih =>
    simp only [gone, goneBy] at ih ⊢
    cases e with
    | gone d fate => cases fate <;> simp [List.count_cons, ih] <;> omega
    | _ => simpa [List.filterMap_cons] using ih

/-! ## What holds of a closed pool -/

section Run

variable {maxSize : Nat} {wait : Option Nat} {first : Client}

theorem shut_run (h : Pool.new maxSize wait first = .ok p) (moves : List Move)
    (hc : (p.run moves).closed = true) : Shut (p.run moves) := by
  have hidle := (steps_run p moves).keep (P := fun p => p.closed = true → p.idle = [])
    (fun hs hp => hs.idle_of_closed hp)
  refine ⟨hc, hidle ?_ hc⟩
  rw [eq_of_new h]
  exact fun _ => rfl

/-- What holds after some moves of a pool that was closed before. -/
structure Final (s : Pool) (more : List Move) : Prop where
  /-- It stays closed, and nobody is idle. -/
  shut : Shut (s.run more)
  /-- Once it has settled, nobody waits for a slot. -/
  quiet : (s.run more).Settled →
    ∀ w ∈ (s.run more).parties, w.2.isWaiting = false ∧ w.2 ≠ .granted
  /-- Whoever waited for a slot gets no client, and fails with nothing but `poolClosed`. It has
  failed, if it was not cancelled, when the pool has settled, and as soon as it looks. -/
  waiting : ∀ t x, s.party? t = some x → x.isWaiting = true ∨ x = .granted →
    (∀ c, .lent t c ∉ s.log more) ∧
      (∀ e, .failed t e ∈ s.log more → e = .poolClosed) ∧
      ((s.run more).Settled →
        .failed t .poolClosed ∈ s.log more ∨ .cancelled t ∈ s.log more) ∧
      ∀ isValid now, .failed t .poolClosed ∈ s.log (more ++ [.proceed isValid now t]) ∨
        .cancelled t ∈ s.log more
  /-- Whoever comes is refused, and nothing changes. -/
  refused : ∀ isValid now, (s.run more).request isValid now =
    (s.run more, (s.run more).nextTicket, .failed .poolClosed)
  /-- Only an acquisition that was creating a client, or destroying an unfit one, gets a client. -/
  lent : ∀ t c, .lent t c ∈ s.log more → ∃ x, s.party? t = some x ∧ x.seeks = true
  /-- A client that comes back is to be destroyed in the background. -/
  back : ∀ t c, (s.run more).party? t = some (.holding c) → ∀ m ∈ [.release t, .drop t],
    ((s.run more).move m).party? t = some (.discarding c)
  /-- To close the pool again does nothing. -/
  again : (s.run more).move .close = s.run more ∧ (s.run more).events .close = []

theorem hasNews_of_waiting (hw : x.isWaiting = true ∨ x = .granted) : x.hasNews true = true := by
  rcases hw with hw | rfl
  · cases x <;> simp_all [Party.isWaiting, Party.hasNews]
  · rfl

theorem not_seeks_of_waiting (hw : x.isWaiting = true ∨ x = .granted) : x.seeks = false := by
  rcases hw with hw | rfl
  · cases x <;> simp_all [Party.isWaiting, Party.seeks]
  · rfl

/-- Whoever waits in a closed pool fails when it looks. -/
theorem failed_of_proceed (hc : p.closed = true) (hx : p.party? t = some x)
    (hw : x.isWaiting = true ∨ x = .granted) (isValid : Client → Bool) (now : Nat) :
    .failed t .poolClosed ∈ p.events (.proceed isValid now t) := by
  have hx' : (p.heard t).party? t = some x := hx
  have hc' : (p.heard t).closed = true := hc
  rcases hw with hw | rfl
  · cases x <;> simp [Party.isWaiting] at hw
    simp [events, proceed, hx', hc', Progress.events]
  · simp [events, proceed, hx', hc', Progress.events]

/-- Whoever waits in a closed pool gets no client, and has failed with `poolClosed` when it looks,
unless it was cancelled. -/
theorem waiting_ends (hp : Table p) (hshut : Shut p) (more : List Move) (hx : p.party? t = some x)
    (hw : x.isWaiting = true ∨ x = .granted) :
    (∀ e ∈ p.log more, ¬ e.serves t) ∧
      ((t, x) ∈ (p.run more).parties ∨
        .failed t .poolClosed ∈ p.log more ∨ .cancelled t ∈ p.log more) ∧
      ∀ isValid now, .failed t .poolClosed ∈ p.log (more ++ [.proceed isValid now t]) ∨
        .cancelled t ∈ p.log more := by
  have hsteps := steps_run p more
  have hends : (t, x) ∈ (p.run more).parties ∨
      .failed t .poolClosed ∈ p.log more ∨ .cancelled t ∈ p.log more := by
    rcases hsteps.pending hp hshut.1 (mem_of_party? hx) (hasNews_of_waiting hw) with
      hstill | ⟨_, he, rfl | rfl⟩
    · exact Or.inl hstill
    · exact Or.inr (Or.inl he)
    · exact Or.inr (Or.inr he)
  refine ⟨fun e he hserves => ?_, hends, fun isValid now => ?_⟩
  · -- only a party that seeks a client is served, and this one waits
    obtain ⟨y, hy, hseeks⟩ := hsteps.served hshut he hserves
    rw [(party?_eq_some_iff hp.nodup).2 hy] at hx
    obtain rfl := Option.some.inj hx
    simp [not_seeks_of_waiting hw] at hseeks
  · rw [log_append]
    rcases hends with hstill | hf | hcancelled
    · have hx' := (party?_eq_some_iff (hp.steps hsteps).nodup).2 hstill
      have hf := failed_of_proceed (hshut.steps hsteps).1 hx' hw isValid now
      exact Or.inl (List.mem_append_right _ (by simpa using hf))
    · exact Or.inl (List.mem_append_left _ hf)
    · exact Or.inr hcancelled

/-- To close a closed pool does nothing. -/
theorem Shut.close (h : Shut p) : p.move .close = p ∧ p.events .close = [] := by
  obtain ⟨hc, hi⟩ := h
  constructor
  · simp only [move, Pool.close, hi, hc, List.reverse_nil, if_true]
    rw [← hc, ← hi]
  · simp [events, Pool.close, hi]

theorem final_run (h : Pool.new maxSize wait first = .ok p) (before more : List Move)
    (hc : (p.run before).closed = true) : Final (p.run before) more := by
  have hs : Table (p.run before) := (Table.of_new h).steps (steps_run p before)
  have hshut := shut_run h before hc
  have hsteps := steps_run (p.run before) more
  have hq : Table ((p.run before).run more) := hs.steps hsteps
  obtain ⟨hqc, hqi⟩ := hshut.steps hsteps
  have hquiet : ((p.run before).run more).Settled →
      ∀ w ∈ ((p.run before).run more).parties, w.2.hasNews true = false := by
    intro hset w hw
    rw [← hqc]
    have hnews : ((p.run before).run more).News := by
      rw [← run_append]
      exact news_run h _
    exact hnews.quiet_of_settled hset w hw
  refine ⟨⟨hqc, hqi⟩, ?_, ?_, ?_, ?_, ?_, Shut.close ⟨hqc, hqi⟩⟩
  · intro hset w hw
    have hn := hquiet hset w hw
    cases hw2 : w.2 <;> simp_all [Party.hasNews, Party.isWaiting]
  · intro t x hx hw
    obtain ⟨hnot, hends, hlooks⟩ := waiting_ends hs hshut more hx hw
    refine ⟨fun c hl => hnot _ hl rfl, fun e hf => ?_, fun hset => ?_, hlooks⟩
    · by_contra hne
      exact hnot _ hf ⟨rfl, hne⟩
    · refine hends.resolve_left fun hstill => ?_
      have hn := hquiet hset _ hstill
      simp [hasNews_of_waiting hw] at hn
  · exact fun isValid now => request_of_closed isValid now hqc
  · intro t c hl
    obtain ⟨x, hx, hseeks⟩ := hsteps.served hshut hl rfl
    exact ⟨x, (party?_eq_some_iff hs.nodup).2 hx, hseeks⟩
  · intro t c hx m hm
    have hput := party?_put hq.nodup hx (.discarding c)
    simp only [List.mem_cons, List.not_mem_nil, or_false] at hm
    rcases hm with rfl | rfl
    · simpa [move, release, hx, hqc] using hput
    · simpa [move, drop, hx] using hput

/-- A closed pool without lent clients, without closing parties and without work in the background
shows no client. Each client had its destruction run to the end, or cut off, or an acquisition or
its borrower is destroying it. -/
theorem drained_run (h : Pool.new maxSize wait first = .ok p) (moves : List Move)
    (hc : (p.run moves).closed = true) (habandoned : goneBy .abandoned (p.log moves) = [])
    (hletGo : goneBy .letGo (p.log moves) = [])
    (hleft : ∀ w ∈ (p.run moves).parties, w.2.role = .acquisition ∨ w.2.role = .invalidation) :
    (p.run moves).live = 0 ∧
      (goneBy .destroyed (p.log moves) ++ goneBy .cutOff (p.log moves) ++
        (p.run moves).doomed).Perm ((p.run moves).made first) := by
  have hidle := (shut_run h moves hc).2
  constructor
  · have hlive := (steps_run p moves).live_eq (.of_new h) habandoned (by rw [eq_of_new h]; rfl)
    have hcounted : (p.run moves).total Party.counted = 0 := by
      refine List.sum_eq_zero fun n hn => ?_
      obtain ⟨w, hw, rfl⟩ := List.mem_map.1 hn
      have hrole := hleft w hw
      cases hw2 : w.2 <;> simp_all [Party.role, Party.counted]
    rw [hidle, hcounted] at hlive
    exact hlive
  · have hborrowed : (p.run moves).borrowed = [] := by
      refine List.flatMap_eq_nil_iff.2 fun w hw => ?_
      have hrole := hleft w hw
      cases hw2 : w.2 <;> simp_all [Party.role, Party.borrowed]
    refine List.perm_iff_count.2 fun c => ?_
    -- nobody is idle or lent, and two of the four ends did not occur
    have hplaces := List.perm_iff_count.1 (places_perm h moves) c
    rw [hidle, hborrowed, List.nil_append, List.nil_append, List.count_append, count_gone,
      habandoned, hletGo] at hplaces
    rw [List.count_append, List.count_append]
    simp only [List.count_nil] at hplaces
    omega

/-- **To close a pool is final.** From then on it is as `Final` says. If no closing party was
cancelled and no client was let go of outside, and nobody is left but acquisitions and borrowers
that destroy their client, then no client is shown, and each was destroyed once, unless its
destruction was cut off or is under way. -/
theorem close_final (h : Pool.new maxSize wait first = .ok p) (before more : List Move)
    (hc : (p.run before).closed = true) :
    let q := (p.run before).run more
    let log := p.log (before ++ more)
    Final (p.run before) more ∧
      (goneBy .abandoned log = [] → goneBy .letGo log = [] →
        (∀ w ∈ q.parties, w.2.role = .acquisition ∨ w.2.role = .invalidation) →
        q.live = 0 ∧
          (goneBy .destroyed log ++ goneBy .cutOff log ++ q.doomed).Perm (q.made first)) := by
  intro q log
  refine ⟨final_run h before more hc, ?_⟩
  have hq : p.run (before ++ more) = q := run_append p before more
  have hclosed : (p.run (before ++ more)).closed = true := hq ▸ (final_run h before more hc).shut.1
  rw [← hq]
  exact drained_run h (before ++ more) hclosed

/-- A pool of two is closed with one client lent, one idle, and a party that was just given a slot.
That party fails, and at the end both clients are destroyed. -/
theorem close_final_of_granted :
    ∃ p, Pool.new 2 none 1 = .ok p ∧
      let before := [.request (fun _ => true) 0, .created 0 (.ok ()), .request (fun _ => true) 0,
        .created 1 (.ok ()), .request (fun _ => true) 0, .release 1, .close]
      let more := [.proceed (fun _ => true) 0 2, .closedOne 3, .release 0, .startDestroy 0,
        .destroyed 0]
      let s := p.run before
      let log := p.log (before ++ more)
      (s.closed = true ∧ s.party? 2 = some .granted ∧ (s.run more).Settled) ∧
        (.failed 2 .poolClosed ∈ s.log more ∨ .cancelled 2 ∈ s.log more) ∧
        (goneBy .abandoned log = [] ∧ goneBy .letGo log = [] ∧
          ∀ w ∈ (s.run more).parties, w.2.role = .acquisition ∨ w.2.role = .invalidation) ∧
        (s.run more).live = 0 ∧
        (goneBy .destroyed log ++ goneBy .cutOff log ++ (s.run more).doomed).Perm
          ((s.run more).made 1) := by
  have hnew : Pool.new 2 none 1 = .ok ⟨2, none, 2, [], 0, false, [], 1, 0, []⟩ := rfl
  refine ⟨_, hnew, ?_⟩
  intro before more s log
  have hclosed : s.closed = true := by decide
  have hgranted : s.party? 2 = some .granted := by decide
  have hkept : goneBy .abandoned log = [] ∧ goneBy .letGo log = [] := by decide
  have hleft : ∀ w ∈ (s.run more).parties, w.2.role = .acquisition ∨ w.2.role = .invalidation := by
    decide
  obtain ⟨hfinal, hend⟩ := close_final hnew before more hclosed
  obtain ⟨-, -, hfailed, -⟩ := hfinal.waiting 2 .granted hgranted (Or.inr rfl)
  exact ⟨⟨hclosed, hgranted, rfl⟩, hfailed rfl, ⟨hkept.1, hkept.2, hleft⟩,
    hend hkept.1 hkept.2 hleft⟩

end Run

end Pool

end Depot
