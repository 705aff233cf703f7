import Depot.Proofs.Pool.Bound
import Depot.Proofs.Storage.Parties
import Depot.Proofs.Storage.Serves

/-!
# An acquisition that nobody disturbs

Whoever asks an open pool with a free slot for a client, and is left alone, goes through the idle
clients from the newest on. It destroys those that are unfit, takes the first one that is fit, and
has one created if there is none. What that search destroys is computed by `unfit`; how far it has
come is followed step by step (`Seeks`), first in the pool (`Amid`), then by the task that makes the
calls. It comes to its end, and every end is the one that was computed (`borrow_undisturbed`).
-/

set_option autoImplicit false

namespace Depot

namespace Pool

variable {p q : Pool} {n : Nat} {left : List Client} {x : Party} {c : Client}

/-! ## The search in the pool -/

/-- The pool `p` with a party that came to it and has a slot. The party is at `x`, has destroyed `n`
idle clients or is about to, and has left the others; only the news are not told. -/
def Amid (p : Pool) (n : Nat) (left : List Client) (x : Party) (q : Pool) : Prop :=
  ∃ called, q =
    { p with
      free := p.free - 1
      idle := left
      live := p.live - n
      parties := p.parties ++ [(p.nextTicket, x)]
      nextTicket := p.nextTicket + 1
      called }

/-- An open pool with a free slot, which shows no fewer clients than are idle. -/
structure Ready (p : Pool) : Prop where
  table : Table p
  opened : p.closed = false
  free : 0 < p.free
  live : p.idle.length ≤ p.live

/-- The party looks for a client among the idle ones that are left. -/
inductive Amid.Looks (isValid : Client → Bool) (p : Pool) (n : Nat) :
    List Client → Progress → Pool → Prop where
  | create {q : Pool} : Amid p n [] .creating q → Looks isValid p n [] .create q
  | take {c : Client} {left : List Client} {q : Pool} : isValid c = true →
      Amid p n left (.holding c) q → Looks isValid p n (c :: left) (.lent c) q
  | reject {c : Client} {left : List Client} {q : Pool} : isValid c = false →
      Amid p (n + 1) left (.rejecting c) q → Looks isValid p n (c :: left) (.reject c) q

theorem Amid.called (h : Amid p n left x q) (called : List Ticket) :
    Amid p n left x { q with called } := by
  obtain ⟨_, rfl⟩ := h
  exact ⟨called, rfl⟩

theorem Amid.party?_eq (hp : Table p) (h : Amid p n left x q) :
    q.party? p.nextTicket = some x := by
  obtain ⟨_, rfl⟩ := h
  exact party?_enter_self hp.fresh x

/-- Nobody else has the ticket of the party that came last. -/
theorem Amid.put (hp : Table p) (h : Amid p n left x q) (y : Party) :
    Amid p n left y (q.put p.nextTicket y) := by
  obtain ⟨called, rfl⟩ := h
  refine ⟨called, ?_⟩
  have hothers : p.parties.map (fun w => if w.1 = p.nextTicket then (p.nextTicket, y) else w) =
      p.parties := by
    conv_rhs => rw [← List.map_id' p.parties]
    refine List.map_congr_left fun w hw => if_neg ?_
    exact Nat.ne_of_lt (hp.fresh w.1 (List.mem_map_of_mem hw))
  simp [Pool.put, hothers]

theorem Amid.lend (isValid : Client → Bool) (hp : Table p) (h : Amid p n left x q) :
    Looks isValid p n left (q.lend isValid p.nextTicket).2 (q.lend isValid p.nextTicket).1 := by
  have hidle : q.idle = left := by
    obtain ⟨_, rfl⟩ := h
    rfl
  unfold Pool.lend
  rw [hidle]
  cases left with
  | nil => exact .create (h.put hp .creating)
  | cons c left =>
    dsimp only
    by_cases hc : isValid c = true
    · rw [if_pos hc]
      refine .take hc (Amid.put hp (x := x) ?_ _)
      obtain ⟨called, rfl⟩ := h
      exact ⟨called, rfl⟩
    · rw [if_neg hc]
      refine .reject (by simpa using hc) (Amid.put hp (x := x) ?_ _)
      obtain ⟨called, rfl⟩ := h
      exact ⟨called, by simp only [Nat.sub_sub]⟩

/-- Whoever comes to an open pool with a free slot has the slot, and looks for a client. -/
theorem Ready.looks (hp : Ready p) (isValid : Client → Bool) (now : Nat) :
    ∃ progress q, p.request isValid now = (q, p.nextTicket, progress) ∧
      Amid.Looks isValid p 0 p.idle progress q := by
  have hgranted : Amid p 0 p.idle .granted ({ p with free := p.free - 1 }.enter .granted) :=
    ⟨p.called, rfl⟩
  refine ⟨_, _, ?_, hgranted.lend isValid hp.table⟩
  obtain ⟨r, hr, e⟩ := request_of_open isValid now hp.opened
  rw [e]
  rcases hr with ⟨-, hzero⟩ | ⟨rfl, -⟩
  · exact absurd hzero (Nat.ne_of_gt hp.free)
  · have hopen : ¬ ({ p with free := p.free - 1 }.enter .granted).closed = true := by
      simp [enter, hp.opened]
    simp only [proceed, hgranted.party?_eq hp.table, if_neg hopen]

theorem Amid.rejected (isValid : Client → Bool) (hp : Table p)
    (h : Amid p n left (.rejecting c) q) :
    Looks isValid p n left (q.rejected isValid p.nextTicket).2
      (q.rejected isValid p.nextTicket).1 := by
  simp only [Pool.rejected, h.party?_eq hp]
  exact h.lend isValid hp

/-- When the party leaves, its slot is free again, because nobody waits for it. -/
theorem Amid.leave (hp : Ready p) (h : Amid p n left x q) :
    ∃ called, (q.leave p.nextTicket).freeSlot =
      { p with idle := left, live := p.live - n, nextTicket := p.nextTicket + 1, called } := by
  obtain ⟨called, rfl⟩ := h
  have hothers : (p.parties ++ [(p.nextTicket, x)]).filter (fun w => w.1 ≠ p.nextTicket) =
      p.parties := by
    rw [List.filter_append, List.filter_eq_self.2, List.filter_cons_of_neg (by simp),
      List.filter_nil, List.append_nil]
    intro w hw
    simpa using Nat.ne_of_lt (hp.table.fresh w.1 (List.mem_map_of_mem hw))
  have hline : p.line = [] := by
    rw [line, List.filter_eq_nil_iff.2, List.map_nil]
    intro w hw
    simp [hp.table.full hp.opened hp.free w hw]
  simp only [Pool.leave, hothers]
  rcases freeSlot_cases { p with
      free := p.free - 1
      idle := left
      live := p.live - n
      nextTicket := p.nextTicket + 1
      called } with ⟨u, us, -, hu, -⟩ | ⟨-, e⟩
  · have hu' : p.line = u :: us := hu
    rw [hline] at hu'
    cases hu'
  · refine ⟨called, e.trans ?_⟩
    simp only [Nat.sub_add_cancel hp.free]

/-- Before it is closed, and while no client is to be destroyed in the background, a pool shows the
clients that are idle and those that are lent. -/
theorem Balance.live_eq {maxSize : Nat} (h : Balance maxSize p) (hc : p.closed = false)
    (hquiet : ∀ w ∈ p.parties, w.2.role ≠ .background) :
    p.live = p.idle.length + p.borrowed.length := by
  obtain ⟨hlive, hdrained⟩ := h.exact hc
  have hcounted : p.total Party.counted = p.borrowed.length := by
    rw [borrowed, length_flatMap_eq_total, total, total]
    refine congrArg List.sum (List.map_congr_left fun w hw => ?_)
    have hrole := hquiet w hw
    have hzero : w.2.drained = 0 :=
      List.sum_eq_zero_iff.1 hdrained _ (List.mem_map_of_mem hw)
    cases hx : w.2 <;> simp [hx, Party.role, Party.drained] at hrole hzero
    all_goals rfl
  rw [hlive, hcounted]

end Pool

namespace Storage

variable {World Writer : Type}

/-! ## What a search destroys -/

/-- The clients on top of a stack that are unfit, each as it is seen when those above it are
destroyed. -/
def unfit (b : Backend World Writer) : World → List Client → List Client
  | _, [] => []
  | w, c :: idle => if b.isValid c w then [] else c :: unfit b (b.destroy c w).world idle

/-- The world after some clients were destroyed one after another. -/
def destroyAll (b : Backend World Writer) (w : World) (cs : List Client) : World :=
  cs.foldl (fun w c => (b.destroy c w).world) w

/-- Some clients were destroyed one after another, and nothing else was called. -/
def Recorded.destroyed (b : Backend World Writer) (r : Recorded World) (cs : List Client) :
    Recorded World :=
  ⟨destroyAll b r.world cs, r.calls ++ cs.map .destroy⟩

/-- A search has gone through `gone`, which is unfit, and has left the rest. -/
def Searched (b : Backend World Writer) (w : World) (idle gone left : List Client) : Prop :=
  idle = gone ++ left ∧ unfit b w idle = gone ++ unfit b (destroyAll b w gone) left

section Search

variable {b : Backend World Writer} {w : World} {idle gone left : List Client} {c : Client}

/-- Where the verdict on a client does not change, the clients above the first one that is fit are
destroyed. -/
theorem unfit_eq_takeWhile {valid : Client → Bool} (h : ∀ c w, b.isValid c w = valid c) (w : World)
    (idle : List Client) : unfit b w idle = idle.takeWhile fun c => !valid c := by
  induction idle generalizing w with
  | nil => rfl
  | cons c idle ih =>
    rw [unfit, List.takeWhile_cons, h, ih]
    cases valid c <;> rfl

theorem destroyAll_concat (b : Backend World Writer) (w : World) (gone : List Client)
    (c : Client) : destroyAll b w (gone ++ [c]) = (b.destroy c (destroyAll b w gone)).world := by
  simp [destroyAll]

theorem destroyed_concat (b : Backend World Writer) (r : Recorded World) (gone : List Client)
    (c : Client) :
    ((recorded b).destroy c (r.destroyed b gone)).world = r.destroyed b (gone ++ [c]) := by
  simp [recorded, Recorded.answer, Recorded.destroyed, destroyAll_concat]

theorem destroyed_nil (b : Backend World Writer) (r : Recorded World) : r.destroyed b [] = r := by
  simp [Recorded.destroyed, destroyAll]

theorem Searched.start (b : Backend World Writer) (w : World) (idle : List Client) :
    Searched b w idle [] idle := ⟨rfl, rfl⟩

theorem Searched.reject (h : Searched b w idle gone (c :: left))
    (hc : b.isValid c (destroyAll b w gone) = false) : Searched b w idle (gone ++ [c]) left := by
  obtain ⟨hidle, hunfit⟩ := h
  refine ⟨by rw [hidle, List.append_assoc]; rfl, ?_⟩
  rw [hunfit, unfit, if_neg (by simp [hc]), destroyAll_concat, List.append_assoc]
  rfl

/-- The search ends at a client that is fit. -/
theorem Searched.unfit_of_fit (h : Searched b w idle gone (c :: left))
    (hc : b.isValid c (destroyAll b w gone) = true) : unfit b w idle = gone := by
  rw [h.2, unfit, if_pos hc, List.append_nil]

/-- The search ends where nobody is left. -/
theorem Searched.unfit_of_nil (h : Searched b w idle gone []) : unfit b w idle = gone := by
  rw [h.2, unfit, List.append_nil]

end Search

/-! ## The search by a task -/

/-- A client is lent, to an acquisition that began in the pool `p` and in the world `r`: a fit one,
or a new one if nobody fit was idle. -/
inductive Obtains (b : Backend World Writer) (p : Pool) (r : Recorded World) :
    Client → Pool → Recorded World → Prop where
  | idle {c : Client} {gone left : List Client} {q : Pool} :
      Searched b r.world p.idle gone (c :: left) →
      b.isValid c (destroyAll b r.world gone) = true → p.Amid gone.length left (.holding c) q →
      Obtains b p r c q (r.destroyed b gone)
  | created {gone : List Client} {q : Pool} : Searched b r.world p.idle gone [] →
      (b.create (destroyAll b r.world gone)).result = .ok () →
      Pool.Amid { p with nextClient := p.nextClient + 1, live := p.live + 1 } gone.length []
        (.holding p.nextClient) q →
      Obtains b p r p.nextClient q ((recorded b).create (r.destroyed b gone)).world

/-- The acquisition has come to its end. -/
inductive Concludes (b : Backend World Writer) (p : Pool) (r : Recorded World) :
    Except StoreError Outcome → Pool → Recorded World → Prop where
  | lent {c : Client} {q : Pool} {r' : Recorded World} : Obtains b p r c q r' →
      Concludes b p r (.ok (.client p.nextTicket c)) q r'
  | refused {e : StoreError} {gone : List Client} {called : List Ticket} :
      Searched b r.world p.idle gone [] →
      (b.create (destroyAll b r.world gone)).result = .error e →
      Concludes b p r (.error e.toConnectFailed)
        { p with
          idle := []
          live := p.live - gone.length
          nextTicket := p.nextTicket + 1
          called }
        ((recorded b).create (r.destroyed b gone)).world

/-- How far the acquisition has come. -/
inductive Seeks (b : Backend World Writer) (p : Pool) (r : Recorded World) :
    Task (Client × Writer) → Pool → Recorded World → Prop where
  | start {task : Task (Client × Writer)} : task.phase = .start .borrow → Seeks b p r task p r
  | rejecting {task : Task (Client × Writer)} {q : Pool} {c : Client} {gone left : List Client}
      {reply : Except StoreError Unit} : Searched b r.world p.idle gone left →
      p.Amid gone.length left (.rejecting c) q → task.phase = .rejected .keep reply →
      task.ticket = some p.nextTicket → Seeks b p r task q (r.destroyed b gone)
  | creating {task : Task (Client × Writer)} {q : Pool} {gone : List Client} :
      Searched b r.world p.idle gone [] → p.Amid gone.length [] .creating q →
      task.phase = .created .keep (b.create (destroyAll b r.world gone)).result →
      task.ticket = some p.nextTicket →
      Seeks b p r task q ((recorded b).create (r.destroyed b gone)).world
  | lent {task : Task (Client × Writer)} {c : Client} {q : Pool} {r' : Recorded World} :
      Obtains b p r c q r' → task.phase = .lent .keep → task.ticket = some p.nextTicket →
      task.client = some c → Seeks b p r task q r'
  | ended {task : Task (Client × Writer)} {result : Except StoreError Outcome} {q : Pool}
      {r' : Recorded World} : Concludes b p r result q r' → task.phase = .ended result →
      Seeks b p r task q r'

/-- The steps that are left to an acquisition at most. -/
def Phase.ahead (q : Pool) : Phase Writer → Nat
  | start _ => q.idle.length + 4
  | rejected _ _ => q.idle.length + 3
  | created _ _ => 2
  | lent _ => 1
  | _ => 0

section Seek

variable {b : Backend World Writer} {setup : Setup} {p q : Pool} {r : Recorded World}
  {m : Machine (Recorded World) (Client × Writer)} {id : TaskId} {task : Task (Client × Writer)}
  {n : Next (Recorded World) (Client × Writer)} {gone left : List Client}
  {progress : Pool.Progress}

/-- A search goes on: with the next client that is unfit, with one that is fit, or with a new
one. -/
theorem Searched.seeks (h : Searched b r.world p.idle gone left)
    (hworld : m.world = r.destroyed b gone)
    (hl : Pool.Amid.Looks (Machine.isValid ⟨setup, recorded b⟩ m) p gone.length left progress q)
    (hn : Acquires ⟨setup, recorded b⟩ m task .keep p.nextTicket q progress n)
    (called : List Ticket) :
    Seeks b p r n.task { n.pool with called } n.world ∧
      n.task.phase.ahead { n.pool with called } < left.length + 3 := by
  have hvalid : ∀ c, Machine.isValid ⟨setup, recorded b⟩ m c =
      b.isValid c (destroyAll b r.world gone) := by
    intro c
    show b.isValid c m.world.world = _
    rw [hworld]
    rfl
  cases hl with
  | create hamid =>
    cases hn with
    | create ha _ =>
      subst ha
      rw [hworld]
      exact ⟨.creating h (hamid.called called) rfl rfl, by simp [Phase.ahead]⟩
  | take hc hamid =>
    cases hn with
    | lend =>
      rw [hvalid] at hc
      refine ⟨.lent (hworld ▸ .idle h hc (hamid.called called)) rfl rfl rfl, ?_⟩
      simp [Phase.ahead]
  | @reject c left q hc hamid =>
    cases hn with
    | reject ha _ =>
      subst ha
      rw [hvalid] at hc
      have hidle : q.idle = left := by
        obtain ⟨_, rfl⟩ := hamid
        rfl
      have hlength : gone.length + 1 = (gone ++ [c]).length := by simp
      rw [hlength] at hamid
      refine ⟨?_, ?_⟩
      · show Seeks b p r _ { q with called } ((recorded b).destroy c m.world).world
        rw [hworld, destroyed_concat]
        exact .rejecting (h.reject hc) (hamid.called called) rfl rfl
      · show q.idle.length + 3 < _
        rw [hidle, List.length_cons]
        omega

/-- What became of a creation. -/
theorem Searched.created (h : Searched b r.world p.idle gone []) (hp : p.Ready)
    (hq : p.Amid gone.length [] .creating q) {reply : Except StoreError Unit}
    (hreply : (b.create (destroyAll b r.world gone)).result = reply)
    (hworld : m.world = ((recorded b).create (r.destroyed b gone)).world)
    (hn : Acquires ⟨setup, recorded b⟩ m task .keep p.nextTicket (q.created p.nextTicket reply).1
      (q.created p.nextTicket reply).2 n) (called : List Ticket) :
    Seeks b p r n.task { n.pool with called } n.world ∧
      n.task.phase.ahead { n.pool with called } < 2 := by
  have hx := hq.party?_eq hp.table
  have hlive : gone.length ≤ p.live := by
    have hidle := hp.live
    rwa [h.1, List.append_nil] at hidle
  obtain ⟨news, rfl⟩ := hq
  cases reply with
  | ok u =>
    simp only [Pool.created, hx] at hn
    cases hn with
    | lend =>
      refine ⟨.lent ?_ rfl rfl rfl, by simp [Phase.ahead]⟩
      show Obtains b p r p.nextClient _ m.world
      rw [hworld]
      refine .created h hreply (Pool.Amid.called (Pool.Amid.put ?_ (x := .creating) ?_ _) called)
      · exact hp.table.congr rfl rfl rfl rfl
      · refine ⟨news, ?_⟩
        simp only [Nat.sub_add_comm hlive]
  | error e =>
    simp only [Pool.created, hx] at hn
    cases hn with
    | refuse =>
      refine ⟨.ended ?_ rfl, by simp [Phase.ahead]⟩
      obtain ⟨news', e'⟩ := Pool.Amid.leave hp ⟨news, rfl⟩
      rw [e', hworld]
      exact .refused h hreply

theorem rejected_follow (env : Env (Recorded World) (Client × Writer)) (id : TaskId) {g : Goal}
    {t : Ticket} {reply : Except StoreError Unit} (hphase : task.phase = .rejected g reply)
    (ht : task.ticket = some t) :
    ∃ n, Acquires env m task g t (m.pool.rejected (Machine.isValid env m) t).1
        (m.pool.rejected (Machine.isValid env m) t).2 n ∧
      (Machine.resume env id task m).bare = (m.follow id n).bare := by
  obtain ⟨phase, ticket, client, alarm, visited⟩ := task
  obtain rfl : phase = .rejected g reply := hphase
  obtain rfl : ticket = some t := ht
  exact Machine.acquire_follow _ alarm rfl

theorem created_follow (env : Env (Recorded World) (Client × Writer)) (id : TaskId) {g : Goal}
    {t : Ticket} {reply : Except StoreError Unit} (hphase : task.phase = .created g reply)
    (ht : task.ticket = some t) :
    ∃ n, Acquires env m task g t (m.pool.created t reply).1 (m.pool.created t reply).2 n ∧
      (Machine.resume env id task m).bare = (m.follow id n).bare := by
  obtain ⟨phase, ticket, client, alarm, visited⟩ := task
  obtain rfl : phase = .created g reply := hphase
  obtain rfl : ticket = some t := ht
  exact Machine.acquire_follow _ alarm rfl

/-- A step that follows from what the pool answered. -/
theorem Seeks.of_follow {k : Nat} {m' : Machine (Recorded World) (Client × Writer)}
    (htask : m.task? id = some task) (e : m'.bare = (m.follow id n).bare)
    (h : ∀ called, Seeks b p r n.task { n.pool with called } n.world ∧
      n.task.phase.ahead { n.pool with called } < k) :
    ∃ task', m'.task? id = some task' ∧ Seeks b p r task' m'.pool m'.world ∧
      task'.phase.ahead m'.pool < k := by
  refine ⟨n.task, Machine.task?_of_follow e htask, ?_⟩
  rw [Machine.pool_of_follow e, Machine.world_of_follow e]
  exact h _

/-- A step brings the acquisition nearer to its end. -/
theorem Seeks.resume (setup : Setup) (hp : p.Ready) (htask : m.task? id = some task)
    (h : Seeks b p r task m.pool m.world) (hended : ∀ result, task.phase ≠ .ended result) :
    ∃ task', (Machine.resume ⟨setup, recorded b⟩ id task m).task? id = some task' ∧
      Seeks b p r task' (Machine.resume ⟨setup, recorded b⟩ id task m).pool
        (Machine.resume ⟨setup, recorded b⟩ id task m).world ∧
      task'.phase.ahead (Machine.resume ⟨setup, recorded b⟩ id task m).pool <
        task.phase.ahead m.pool := by
  generalize hpool : m.pool = q at h
  generalize hworld : m.world = w at h
  cases h with
  | start hphase =>
    obtain ⟨progress, q, hreq, hlooks⟩ := hp.looks (Machine.isValid ⟨setup, recorded b⟩ m) m.now
    rw [← hpool] at hreq
    obtain ⟨n, hn, e⟩ : ∃ n,
        Acquires ⟨setup, recorded b⟩ m task .keep m.pool.nextTicket q progress n ∧
          (Machine.resume ⟨setup, recorded b⟩ id task m).bare = (m.follow id n).bare := by
      simp only [Machine.resume, hphase, Machine.start]
      exact Machine.borrow_follow hreq
    rw [hpool] at hn
    refine Seeks.of_follow htask e fun called => ?_
    obtain ⟨hseeks, hahead⟩ := (Searched.start b m.world.world p.idle).seeks (r := m.world)
      (destroyed_nil b m.world).symm hlooks hn called
    rw [hphase, ← hworld]
    exact ⟨hseeks, Nat.lt_succ_of_lt hahead⟩
  | @rejecting q c gone left reply hsearched hamid hphase hticket =>
    have hlooks := hamid.rejected (Machine.isValid ⟨setup, recorded b⟩ m) hp.table
    have hidle : q.idle = left := by
      obtain ⟨_, rfl⟩ := hamid
      rfl
    rw [← hpool] at hlooks
    obtain ⟨n, hn, e⟩ := rejected_follow ⟨setup, recorded b⟩ id hphase hticket
    refine Seeks.of_follow htask e fun called => ?_
    rw [hphase, Phase.ahead, hidle]
    exact hsearched.seeks hworld hlooks hn called
  | @creating q gone hsearched hamid hphase hticket =>
    obtain ⟨n, hn, e⟩ := created_follow ⟨setup, recorded b⟩ id hphase hticket
    refine Seeks.of_follow htask e fun called => ?_
    rw [hpool] at hn
    rw [hphase]
    exact hsearched.created hp hamid rfl hworld hn called
  | @lent c q r' hobtains hphase hticket hclient =>
    have hresume : Machine.resume ⟨setup, recorded b⟩ id task m =
        m.goOn id { task with ticket := none } (.ended (.ok (.client p.nextTicket c))) := by
      simp only [Machine.resume, Machine.begin, hphase, hticket, hclient]
    rw [hresume]
    refine ⟨{ task with
      ticket := none, alarm := none, phase := .ended (.ok (.client p.nextTicket c)) }, ?_, ?_, ?_⟩
    · show (m.put id _).task? id = _
      rw [Machine.task?_put, if_pos rfl, htask]
      rfl
    · show Seeks b p r _ m.pool m.world
      rw [hpool, hworld]
      exact .ended (.lent hobtains) rfl
    · rw [hphase]
      exact Nat.zero_lt_one
  | ended hend hphase => exact absurd hphase (hended _)

theorem Seeks.phase_ne_line {w : Recorded World} (h : Seeks b p r task q w) (g : Goal) :
    task.phase ≠ .line g := by
  cases h with
  | start hphase | rejecting _ _ hphase _ | creating _ _ hphase _ | lent _ hphase _ _
  | ended _ hphase =>
    rw [hphase]
    nofun

theorem Seeks.concludes {w : Recorded World} (h : Seeks b p r task q w)
    {result : Except StoreError Outcome} (hended : task.phase = .ended result) :
    Concludes b p r result q w := by
  cases h with
  | ended hend hphase =>
    rw [hended] at hphase
    cases hphase
    exact hend
  | start hphase | rejecting _ _ hphase _ | creating _ _ hphase _ | lent _ hphase _ _ =>
    rw [hended] at hphase
    cases hphase

/-- The acquisition is under way in a state of the storage, or has come to its end. -/
def Acquiring (b : Backend World Writer) (p : Pool) (r : Recorded World) (id : TaskId)
    (m : Machine (Recorded World) (Client × Writer)) : Prop :=
  ∃ task, m.task? id = some task ∧ Seeks b p r task m.pool m.world

theorem Acquiring.happen (hp : p.Ready) (h : Acquiring b p r id m) {e : Event}
    (he : e.isOwn id = true) : Acquiring b p r id (m.happen ⟨setup, recorded b⟩ e) := by
  cases e with
  | pass ms => exact h
  | step id' =>
    obtain rfl : id' = id := by simpa [Event.isOwn] using he
    obtain ⟨task, htask, hs⟩ := h
    show Acquiring b p r id' (m.step ⟨setup, recorded b⟩ id')
    by_cases hwait : task.alarm.any (m.now < ·.time) = true
    · -- it does not stand in line, so that it waits for its alarm
      have hstep : m.step ⟨setup, recorded b⟩ id' = m := by
        simp only [Machine.step, htask, hwait, if_true]
        split
        · rename_i g hline
          exact absurd hline (hs.phase_ne_line g)
        · rfl
      rw [hstep]
      exact ⟨task, htask, hs⟩
    · rw [Machine.step_eq_resume htask (by simpa using hwait)]
      by_cases hended : ∃ result, task.phase = .ended result
      · obtain ⟨result, hended⟩ := hended
        simp only [Machine.resume, hended]
        exact ⟨task, htask, hs⟩
      · obtain ⟨task', htask', hs', -⟩ :=
          hs.resume setup hp htask fun result hr => hended ⟨result, hr⟩
        exact ⟨task', htask', hs'⟩
  | request | cancel => simp [Event.isOwn] at he

theorem Acquiring.run (hp : p.Ready) (h : Acquiring b p r id m) {events : List Event}
    (he : ∀ e ∈ events, e.isOwn id = true) :
    Acquiring b p r id (m.run ⟨setup, recorded b⟩ events) := by
  induction events generalizing m with
  | nil => exact h
  | cons e events ih =>
    rw [List.forall_mem_cons] at he
    exact ih (h.happen hp he.1) he.2

/-- The acquisition comes to its end, as time passes and its answers arrive. -/
theorem Acquiring.exists_end (hp : p.Ready) (h : Acquiring b p r id m) :
    ∃ events : List Event, (∀ e ∈ events, e.isOwn id = true) ∧
      ∃ task result, (m.run ⟨setup, recorded b⟩ events).task? id = some task ∧
        task.phase = .ended result := by
  obtain ⟨task, htask, hs⟩ := h
  -- on the number of steps that are left
  generalize hk : task.phase.ahead m.pool = k
  induction k using Nat.strong_induction_on generalizing m task with
  | h k ih =>
    by_cases hended : ∃ result, task.phase = .ended result
    · obtain ⟨result, hended⟩ := hended
      exact ⟨[], by simp, task, result, htask, hended⟩
    · obtain ⟨wait, hwait⟩ : ∃ wait, task.alarm.any (m.now + wait < ·.time) = false := by
        cases task.alarm with
        | none => exact ⟨0, rfl⟩
        | some a => exact ⟨a.time, by simp⟩
      have hpass : (m.happen ⟨setup, recorded b⟩ (.pass wait)).step ⟨setup, recorded b⟩ id =
          Machine.resume ⟨setup, recorded b⟩ id task
            (m.happen ⟨setup, recorded b⟩ (.pass wait)) := by
        exact Machine.step_eq_resume htask hwait
      obtain ⟨task', htask', hs', hahead⟩ :=
        Seeks.resume (m := m.happen ⟨setup, recorded b⟩ (.pass wait)) setup hp htask hs
          fun result hr => hended ⟨result, hr⟩
      rw [← hpass] at htask' hs' hahead
      obtain ⟨more, hmore, hend⟩ := ih _ (hk ▸ hahead) task' htask' hs' rfl
      refine ⟨.pass wait :: .step id :: more, ?_, hend⟩
      simpa [Event.isOwn] using hmore

/-! ## What comes of it -/

theorem borrowed_of_holding {t : Ticket} {c : Client}
    (h : q.parties = p.parties ++ [(t, .holding c)]) : q.borrowed = p.borrowed ++ [c] := by
  simp [Pool.borrowed, h, Party.borrowed]

/-- A client was lent: it is the first fit one, or a new one where nobody is fit. -/
theorem Obtains.result {c : Client} {w : Recorded World} (h : Obtains b p r c q w) (hp : p.Ready)
    (hshown : p.live = p.idle.length + p.borrowed.length) :
    (q.parties = p.parties ++ [(p.nextTicket, .holding c)] ∧ q.free + 1 = p.free ∧
        q.live = q.idle.length + q.borrowed.length) ∧
      ((p.idle = unfit b r.world p.idle ++ c :: q.idle ∧
          w.calls = r.calls ++ (unfit b r.world p.idle).map .destroy) ∨
        (p.idle = unfit b r.world p.idle ∧ c = p.nextClient ∧ q.idle = [] ∧
          (b.create (destroyAll b r.world p.idle)).result = .ok () ∧
          w.calls = r.calls ++ p.idle.map .destroy ++ [.create])) := by
  have hfree := Nat.sub_add_cancel hp.free
  cases h with
  | @idle c gone left q hs hc hamid =>
    obtain ⟨called, rfl⟩ := hamid
    rw [hs.unfit_of_fit hc]
    refine ⟨⟨rfl, hfree, ?_⟩, Or.inl ⟨hs.1, rfl⟩⟩
    have hlength := congrArg List.length hs.1
    rw [List.length_append, List.length_cons] at hlength
    rw [borrowed_of_holding (p := p) rfl, List.length_append, List.length_singleton]
    show p.live - gone.length = left.length + _
    omega
  | @created gone q hs hreply hamid =>
    obtain ⟨called, rfl⟩ := hamid
    obtain rfl : p.idle = gone := by rw [hs.1, List.append_nil]
    refine ⟨⟨rfl, hfree, ?_⟩, Or.inr ⟨hs.unfit_of_nil.symm, rfl, rfl, hreply, rfl⟩⟩
    rw [borrowed_of_holding (p := p) rfl, List.length_append, List.length_singleton]
    show p.live + 1 - p.idle.length = 0 + _
    omega

/-- The acquisition has ended with a client, or nobody was fit and the creation failed. -/
theorem Concludes.result {result : Except StoreError Outcome} {w : Recorded World}
    (h : Concludes b p r result q w) (hshown : p.live = p.idle.length + p.borrowed.length) :
    (∃ c, result = .ok (.client p.nextTicket c) ∧ Obtains b p r c q w) ∨
      ∃ e, result = .error e.toConnectFailed ∧ p.idle = unfit b r.world p.idle ∧
        (b.create (destroyAll b r.world p.idle)).result = .error e ∧
        w.calls = r.calls ++ p.idle.map .destroy ++ [.create] ∧
        q.idle = [] ∧ q.parties = p.parties ∧ q.free = p.free ∧ q.live = q.borrowed.length := by
  cases h with
  | lent hobtains => exact Or.inl ⟨_, rfl, hobtains⟩
  | @refused e gone called hs hreply =>
    obtain rfl : p.idle = gone := by rw [hs.1, List.append_nil]
    refine Or.inr ⟨e, rfl, hs.unfit_of_nil.symm, hreply, rfl, rfl, rfl, rfl, ?_⟩
    show p.live - p.idle.length = p.borrowed.length
    omega

end Seek

section Result

variable {p : Pool} {m : Machine (Recorded World) (Client × Writer)} {maxSize : Nat}
  {wait : Option Nat} {first : Client}

theorem unfit_leads (b : Backend World Writer) (w : World) (idle : List Client) :
    unfit b w idle <+: idle := by
  induction idle generalizing w with
  | nil => exact List.prefix_refl []
  | cons c idle ih =>
    rw [unfit]
    split
    · exact List.nil_prefix
    · exact List.cons_prefix_cons.2 ⟨rfl, ih _⟩

/-- **An acquisition that nobody disturbs.** In an open pool with a free slot, and no client to be
destroyed in the background, whoever asks for a client and is left alone comes to an end. It has
destroyed the unfit clients on top of the idle ones, newest first and whatever became of that, and
made no other call if there was a fit one below: that one it gets, and those below stay. If there
was none, it has asked once for a new client, and gets that; or it fails as the creation did, its
slot is free again, and what the pool shows are the clients that others have borrowed. -/
theorem borrow_undisturbed (setup : Setup) (b : Backend World Writer)
    (h : Pool.new maxSize wait first = .ok p) (moves : List Pool.Move) (hpool : m.pool = p.run moves)
    (hnew : m.task? m.nextTask = none) (hopen : m.pool.closed = false) (hfree : 0 < m.pool.free)
    (hquiet : ∀ w ∈ m.pool.parties, w.2.role ≠ .background) :
    let env : Env (Recorded World) (Client × Writer) := ⟨setup, recorded b⟩
    let id := m.nextTask
    let t := m.pool.nextTicket
    let begun := m.happen env (.request .borrow)
    let gone := unfit b m.world.world m.pool.idle
    let destroyed := m.world.calls ++ gone.map .destroy
    let reply := (b.create (destroyAll b m.world.world gone)).result
    (gone <+: m.pool.idle ∧ ∀ valid : Client → Bool, (∀ c w, b.isValid c w = valid c) →
        gone = m.pool.idle.takeWhile fun c => !valid c) ∧
      (∃ events : List Event, (∀ e ∈ events, e.isOwn id = true) ∧
        ∃ task result, (begun.run env events).task? id = some task ∧
          task.phase = .ended result) ∧
      ∀ events : List Event, (∀ e ∈ events, e.isOwn id = true) → ∀ task result,
        (begun.run env events).task? id = some task → task.phase = .ended result →
        let q := (begun.run env events).pool
        let calls := (begun.run env events).world.calls
        q.live = q.idle.length + q.borrowed.length ∧
          (∀ c left, m.pool.idle = gone ++ c :: left →
            calls = destroyed ∧ result = .ok (.client t c) ∧ q.idle = left ∧
              q.parties = m.pool.parties ++ [(t, .holding c)] ∧ q.free + 1 = m.pool.free) ∧
          (m.pool.idle = gone →
            calls = destroyed ++ [.create] ∧ q.idle = [] ∧
              (reply = .ok () →
                result = .ok (.client t m.pool.nextClient) ∧
                  q.parties = m.pool.parties ++ [(t, .holding m.pool.nextClient)] ∧
                  q.free + 1 = m.pool.free) ∧
              ∀ e, reply = .error e →
                (∀ detail, e = .connectFailed detail → result = .error (.connectFailed detail)) ∧
                  ((∀ detail, e ≠ .connectFailed detail) →
                    result = .error (.connectFailed e.message)) ∧
                  q.parties = m.pool.parties ∧ q.free = m.pool.free ∧
                  q.live = q.borrowed.length) := by
  intro env id t begun gone destroyed reply
  obtain ⟨htable, hb⟩ := Pool.balance_run h moves
  rw [← hpool] at htable hb
  have hshown := hb.live_eq hopen hquiet
  have hp : m.pool.Ready := ⟨htable, hopen, hfree, hshown ▸ Nat.le_add_right _ _⟩
  have hbegun : Acquiring b m.pool m.world id begun := by
    refine ⟨.ofRequest _ .borrow, ?_, .start rfl⟩
    show (m.add _).task? m.nextTask = _
    rw [Machine.task?_add, hnew, if_pos rfl]
    rfl
  refine ⟨⟨unfit_leads _ _ _, fun valid hvalid => unfit_eq_takeWhile hvalid _ _⟩,
    hbegun.exists_end hp, ?_⟩
  intro events hown task result htask hended q calls
  obtain ⟨task', htask', hseeks⟩ := hbegun.run hp hown
  obtain rfl : task = task' := Option.some.inj (htask.symm.trans htask')
  have hend : Concludes b m.pool m.world result q (begun.run env events).world :=
    hseeks.concludes hended
  have hsplit : ∀ c left, m.pool.idle = gone ++ c :: left → m.pool.idle ≠ gone := by
    intro c left hidle hgone
    have hlength := congrArg List.length (hgone.symm.trans hidle)
    rw [List.length_append, List.length_cons] at hlength
    omega
  rcases hend.result hshown with ⟨c, rfl, hobtains⟩ | ⟨e, rfl, hgone, he, hcalls, hend⟩
  · obtain ⟨⟨hparties, hheld, hlive⟩, hwho⟩ := hobtains.result hp hshown
    refine ⟨hlive, fun c' left hidle => ?_, fun hidle => ?_⟩
    · -- a fit one was left, so that it is the one that was lent
      rcases hwho with ⟨hidle', hcalls⟩ | ⟨hnone, -⟩
      · obtain ⟨rfl, rfl⟩ := List.cons.inj (List.append_cancel_left (hidle.symm.trans hidle'))
        exact ⟨hcalls, rfl, rfl, hparties, hheld⟩
      · exact absurd hnone (hsplit c' left hidle)
    · rcases hwho with ⟨hidle', -⟩ | ⟨-, rfl, hnone, hreply, hcalls⟩
      · exact absurd hidle (hsplit c _ hidle')
      · rw [hidle] at hcalls hreply
        refine ⟨hcalls, hnone, fun _ => ⟨rfl, hparties, hheld⟩, fun e he => ?_⟩
        cases hreply.symm.trans he
  · obtain ⟨hnone, hparties, hheld, hlive⟩ := hend
    refine ⟨by rw [hlive, hnone]; simp, fun c left hidle => absurd hgone (hsplit c left hidle),
      fun hidle => ?_⟩
    rw [hidle] at hcalls he
    refine ⟨hcalls, hnone, fun hreply => ?_, fun e' he' => ?_⟩
    · cases hreply.symm.trans he
    · obtain rfl : e = e' := Except.error.inj (he.symm.trans he')
      refine ⟨?_, ?_, hparties, hheld, hlive⟩
      · rintro detail rfl
        rfl
      · intro hne
        cases e with
        | connectFailed detail => exact absurd rfl (hne detail)
        | _ => rfl

/-- Of two idle clients the newer one is unfit: it is destroyed, and the other one is lent. -/
theorem borrow_undisturbed_of_unfit :
    ∃ p, Pool.new 2 none 1 = .ok p ∧
      let moves := [.request (fun _ => true) 0, .created 0 (.ok ()), .request (fun _ => true) 0,
        .created 1 (.ok ()), .release 0, .release 1]
      let b : Backend Memory Memory.Writer := { Memory.backend with isValid := fun c _ => c == 1 }
      let env : Env (Recorded Memory) (Client × Memory.Writer) := ⟨default, recorded b⟩
      let m : Machine (Recorded Memory) (Client × Memory.Writer) :=
        ⟨p.run moves, ⟨.new 1, []⟩, none, [], 0, 0, 0, [], []⟩
      let last := (m.happen env (.request .borrow)).run env [.step 0, .step 0, .step 0]
      m.pool.idle = [2, 1] ∧ last.world.calls = [.destroy 2] ∧ last.pool.idle = [] ∧
        last.pool.live = 1 ∧ ∃ task, last.task? 0 = some task ∧
          task.phase = .ended (.ok (.client 2 1)) := by
  have hnew : Pool.new 2 none 1 = .ok ⟨2, none, 2, [], 0, false, [], 1, 0, []⟩ := rfl
  refine ⟨_, hnew, ?_⟩
  intro moves b env m last
  obtain ⟨-, -, hends⟩ := borrow_undisturbed default b (m := m) hnew moves rfl rfl rfl (by decide)
    (by decide)
  obtain ⟨hlive, hfit, -⟩ := hends [.step 0, .step 0, .step 0] (by decide) _ _ rfl rfl
  obtain ⟨hcalls, -, hidle, hparties, -⟩ := hfit 1 [] rfl
  refine ⟨rfl, hcalls, hidle, ?_, _, rfl, rfl⟩
  rw [hlive, hidle, borrowed_of_holding hparties]
  rfl

end Result

end Storage

end Depot
