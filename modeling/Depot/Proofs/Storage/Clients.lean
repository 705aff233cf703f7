import Depot.Memory.Basic
import Depot.Proofs.Storage.Calls
import Mathlib.Data.List.Induction
import Mathlib.Data.List.Infix

/-!
# The client of an operation

How the life of an operation goes with respect to clients (`Story`): it looks for a client, has one,
and then either gives it back, in the step with which it returns, or loses it. Where an operation
stands agrees with its story so far (`At`), step by step. The main statement is
`operation_settles_client`: an operation makes all its calls on one client that nobody else has
meanwhile, gives it back exactly if it succeeds or looked up an object that is missing, and a client
that it did not give back is destroyed and never used again.
-/

set_option autoImplicit false

namespace Depot.Storage

variable {World Writer : Type}

/-! ## Histories that grow -/

section Grow

variable {env : Env World Writer} {m : Machine World Writer} {events : List Event} {e : Event}

theorem sometime_concat_iff {P : Machine World Writer → Prop} :
    m.Sometime env (events ++ [e]) P ↔
      m.Sometime env events P ∨ P (m.run env (events ++ [e])) := by
  constructor
  · rintro ⟨first, hfirst, hP⟩
    rcases List.prefix_concat_iff.1 hfirst with rfl | hfirst
    · exact Or.inr hP
    · exact Or.inl ⟨first, hfirst, hP⟩
  · rintro (⟨first, hfirst, hP⟩ | hP)
    · exact ⟨first, hfirst.trans (List.prefix_append _ _), hP⟩
    · exact ⟨_, List.prefix_rfl, hP⟩

theorem once_concat_iff
    {P : Machine World Writer → Event → Machine World Writer → Prop} :
    m.Once env (events ++ [e]) P ↔
      m.Once env events P ∨ P (m.run env events) e (m.run env (events ++ [e])) := by
  constructor
  · rintro ⟨first, e', hfirst, hP⟩
    rcases List.prefix_concat_iff.1 hfirst with heq | hfirst
    · obtain ⟨rfl, h⟩ := List.append_inj' heq rfl
      cases h
      exact Or.inr hP
    · exact Or.inl ⟨first, e', hfirst, hP⟩
  · rintro (⟨first, e', hfirst, hP⟩ | hP)
    · exact ⟨first, e', hfirst.trans (List.prefix_append _ _), hP⟩
    · exact ⟨events, e, List.prefix_rfl, hP⟩

end Grow

/-! ## The story of an operation -/

/-- What has come of an operation so far: the client that it borrowed, whether and when it gave it
back, and what it returned. -/
structure Story where
  client : Option Client
  /-- Whether the client was given back too late to be used again, if it was given back. -/
  back : Option Bool
  result : Option (Except StoreError Unit)

/-- A story tells what happened in a run. -/
structure Story.Tells (s : Story) (env : Env World Writer) (m : Machine World Writer)
    (events : List Event) (id : TaskId) : Prop where
  client : ∀ c, m.Borrows env events id c ↔ s.client = some c
  back : ∀ c late, m.GivesBack env events id c late ↔ s.client = some c ∧ s.back = some late
  result : ∀ result, m.Returns env events id result ↔ s.result = some result

/-- What a story that is over has come to: no client, one that was given back after a success, or
one that was lost. -/
inductive Story.Closed (r : Request) (m : Machine (Recorded World) (Client × Writer)) :
    Story → Prop where
  | never {result : Option (Except StoreError Unit)} : Closed r m ⟨none, none, result⟩
  | settled {c : Client} {late : Bool} {result : Except StoreError Unit} : r.LeavesGood result →
      (late = true → Lost m c) → Closed r m ⟨some c, some late, some result⟩
  | lost {c : Client} {result : Option (Except StoreError Unit)} :
      (∀ res, result = some res → ¬ r.LeavesGood res) → Lost m c →
      Closed r m ⟨some c, none, result⟩

/-- Where an operation stands after a story. -/
inductive At (setup : Setup) (r : Request) (id : TaskId)
    (m : Machine (Recorded World) (Client × Writer)) : Story → Prop where
  | seeking {task : Task (Client × Writer)} : m.task? id = some task → task.phase.seeks = true →
      task.client = none → task.phase.Serves setup r → At setup r id m ⟨none, none, none⟩
  | working {task : Task (Client × Writer)} {c : Client} : m.task? id = some task →
      task.phase.stage = .holding → task.client = some c → task.phase.Serves setup r →
      At setup r id m ⟨some c, none, none⟩
  | losing {task : Task (Client × Writer)} {c : Client} {reply : Except StoreError Unit}
      {e : StoreError} : m.task? id = some task → task.phase = .invalidated reply (.error e) →
      task.client = none → ¬ r.LeavesGood (.error e) → Lost m c →
      At setup r id m ⟨some c, none, none⟩
  | returned {task : Task (Client × Writer)} {s : Story} {result : Except StoreError Unit} :
      m.task? id = some task → task.phase.stage = .apart → task.client = none →
      task.returned? = some result → s.result = some result → s.Closed r m → At setup r id m s
  | cancelled {s : Story} : m.task? id = none → id < m.nextTask → s.Closed r m → At setup r id m s

section Step

variable {setup : Setup} {b : Backend World Writer} {r : Request} {id : TaskId}
  {m m' : Machine (Recorded World) (Client × Writer)} {task : Task (Client × Writer)}
  {n : Next (Recorded World) (Client × Writer)} {s s' : Story} {c : Client} {e : Event}

theorem Story.Closed.happen (h : s.Closed r m) (ho : Orderly m) (hm : AllBound m) (e : Event) :
    s.Closed r (m.happen (recording setup b) e) := by
  cases h with
  | never => exact .never
  | settled hgood hlost => exact .settled hgood fun hlate => (hlost hlate).happen ho hm e
  | lost hbad hlost => exact .lost hbad (hlost.happen ho hm e)

/-- Who has a client, or has returned, has a story that says so. -/
theorem At.client (h : At setup r id m s) (hc : m.Has id c) :
    s.client = some c ∧ s.back = none := by
  obtain ⟨task, htask, hclient⟩ := hc
  cases h with
  | working htask' _ hc' _ =>
    rw [htask] at htask'
    cases htask'
    rw [hclient] at hc'
    cases hc'
    exact ⟨rfl, rfl⟩
  | seeking htask' _ hc' _ | losing htask' _ hc' _ _ | returned htask' _ hc' _ _ _ =>
    rw [htask] at htask'
    cases htask'
    rw [hclient] at hc'
    cases hc'
  | cancelled hnone _ _ =>
    rw [htask] at hnone
    cases hnone

theorem At.result (h : At setup r id m s) (htask : m.task? id = some task)
    {result : Except StoreError Unit} (hresult : task.returned? = some result) :
    s.result = some result := by
  cases h with
  | returned htask' _ _ hresult' he _ =>
    rw [htask] at htask'
    cases htask'
    rw [hresult] at hresult'
    cases hresult'
    exact he
  | seeking htask' hphase _ _ | working htask' hphase _ _ | losing htask' hphase _ _ _ =>
    rw [htask] at htask'
    cases htask'
    unfold Task.returned? at hresult
    split at hresult
    · rename_i h
      rw [h] at hphase
      cases hphase
    · rename_i h
      rw [h] at hphase
      cases hphase
    · cases hresult
  | cancelled hnone _ _ =>
    rw [htask] at hnone
    cases hnone

/-! ## Good clients and lost ones -/

/-- A client that is given back is still good: its task has succeeded, or has found an object to be
missing. -/
theorem Works.leavesGood {w world : Recorded World} {visited visited' : List Entry}
    {phase phase' : Phase (Client × Writer)}
    (h : Works (recording setup b) c w visited phase (.giveBack phase' world visited'))
    (hs : phase.Serves setup r) :
    ∃ result, r.LeavesGood result ∧
      (⟨phase', none, none, none, visited'⟩ : Task (Client × Writer)).returned? = some result := by
  cases h with
  | missing hmissing =>
    obtain ⟨key, hwants⟩ := hs
    exact ⟨_, Or.inr ⟨hwants.exists_stat, _, rfl, hmissing⟩, rfl⟩
  | _ => exact ⟨_, Or.inl rfl, rfl⟩

/-- A client that is destroyed is not good any more. -/
theorem Works.not_leavesGood {w world : Recorded World} {visited visited' : List Entry}
    {phase : Phase (Client × Writer)} {e : StoreError}
    (h : Works (recording setup b) c w visited phase (.destroy e world visited'))
    (hs : phase.Serves setup r) : ¬ r.LeavesGood (.error e) := by
  rintro (hok | ⟨⟨path, rfl⟩, e', heq, hmissing⟩)
  · cases hok
  · cases heq
    cases h with
    | unfound hfound =>
      rw [hfound] at hmissing
      cases hmissing
    | undeleted | unmeasured | uncopied => cases hs
    | _ =>
      -- none of the other phases belongs to a look-up
      obtain ⟨_, hwants⟩ := hs
      cases hwants

/-- A client is lost when a task is left behind to destroy it. -/
theorem Lost.of_left {t : Ticket} {id' : TaskId} (hretired : m.pool.Retired c)
    (htask : m.task? id' = some (.ofDiscard (Client × Writer) t))
    (hx : m.pool.party? t = some (.discarding c)) : Lost m c :=
  ⟨hretired, Or.inr ⟨id', t, htask, hx⟩⟩

/-- Nobody hands in a client without having it. -/
theorem not_handsIn_of_client (htask : m.task? id = some task) (hc : task.client = none)
    {late : Bool} : ¬ Machine.HandsIn id c late m e m' := by
  rintro ⟨-, task', t, htask', hc', -⟩
  rw [htask] at htask'
  cases htask'
  rw [hc] at hc'
  cases hc'

/-- A client is not handed in where no client becomes idle and none of the task is discarded. -/
theorem not_handsIn_of_pool (htask : m.task? id = some task) {t : Ticket} {late : Bool}
    (ht : task.ticket = some t) (hx : m'.pool.party? t ≠ some (.discarding c))
    (hidle : m'.pool.idle = m.pool.idle) : ¬ Machine.HandsIn id c late m e m' := by
  rintro ⟨-, task', t', htask', -, ht', -, h⟩
  rw [htask] at htask'
  cases htask'
  rw [ht] at ht'
  cases ht'
  cases late with
  | true => exact hx h
  | false =>
    have h : m'.pool.idle = c :: m.pool.idle := h
    rw [hidle] at h
    exact List.ne_cons_self h

/-! ## One event -/

/-- A story goes on by what an event brings about. -/
structure Extends (id : TaskId) (m : Machine (Recorded World) (Client × Writer)) (e : Event)
    (m' : Machine (Recorded World) (Client × Writer)) (s s' : Story) : Prop where
  client : ∀ c, s'.client = some c ↔ s.client = some c ∨ m'.Has id c
  back : ∀ c late, (s'.client = some c ∧ s'.back = some late) ↔
    (s.client = some c ∧ s.back = some late) ∨ Machine.HandsIn id c late m e m'
  result : ∀ result, s'.result = some result ↔
    s.result = some result ∨ ∃ task, m'.task? id = some task ∧ task.returned? = some result

/-- A story that still tells where the operation stands has not to go on, if no client was given
back. -/
theorem Extends.same (h : At setup r id m' s)
    (hback : ∀ c late, ¬ Machine.HandsIn id c late m e m') : Extends id m e m' s s where
  client c := ⟨Or.inl, fun hc => hc.elim (fun hc => hc) fun hc => (h.client hc).1⟩
  back c late := ⟨Or.inl, fun hc => hc.elim (fun hc => hc) fun hc => absurd hc (hback c late)⟩
  result result := by
    refine ⟨Or.inl, ?_⟩
    rintro (hr | ⟨task, htask, hr⟩)
    · exact hr
    · exact h.result htask hr

/-- A story goes on by what the task of the operation has and returns afterwards. -/
theorem Extends.of_task (htask : m'.task? id = some task)
    (hclient : ∀ c, s'.client = some c ↔ s.client = some c ∨ task.client = some c)
    (hback : ∀ c late, (s'.client = some c ∧ s'.back = some late) ↔
      (s.client = some c ∧ s.back = some late) ∨ Machine.HandsIn id c late m e m')
    (hresult : ∀ result, s'.result = some result ↔
      s.result = some result ∨ task.returned? = some result) : Extends id m e m' s s' := by
  have hhas : ∀ c, m'.Has id c ↔ task.client = some c := by
    intro c
    rw [Machine.Has, htask]
    exact ⟨fun ⟨_, h, hc⟩ => Option.some.inj h ▸ hc, fun hc => ⟨task, rfl, hc⟩⟩
  have hreturned : ∀ result, (∃ task', m'.task? id = some task' ∧ task'.returned? = some result) ↔
      task.returned? = some result := by
    intro result
    rw [htask]
    exact ⟨fun ⟨_, h, hr⟩ => Option.some.inj h ▸ hr, fun hr => ⟨task, rfl, hr⟩⟩
  refine ⟨?_, hback, ?_⟩
  · intro c
    rw [hclient, hhas]
  · intro result
    rw [hresult, hreturned]

/-- Nothing of the operation changes when others are at work. -/
theorem At.untouched (h : At setup r id m s) (ho : Orderly m) (hm : AllBound m)
    (hstep : e ≠ .step id) (hcancel : e ≠ .cancel id) :
    At setup r id (m.happen (recording setup b) e) s := by
  have hh := ho.happens (recording setup b) e
  have hstays : ∀ {task}, m.task? id = some task →
      (m.happen (recording setup b) e).task? id = some task :=
    fun htask => (ho.untouched hh htask hstep hcancel).1
  cases h with
  | seeking htask hphase hc hs => exact .seeking (hstays htask) hphase hc hs
  | working htask hphase hc hs => exact .working (hstays htask) hphase hc hs
  | losing htask hphase hc hbad hlost =>
    exact .losing (hstays htask) hphase hc hbad (hlost.happen ho hm e)
  | returned htask hphase hc hr hresult hclosed =>
    exact .returned (hstays htask) hphase hc hr hresult (hclosed.happen ho hm e)
  | cancelled hnone hlt hclosed =>
    refine .cancelled ?_ (Nat.lt_of_lt_of_le hlt hh.nextTask_le) (hclosed.happen ho hm e)
    rw [Option.eq_none_iff_forall_ne_some]
    intro task htask
    rcases hh.task? htask with hold | ⟨_, _, rfl, -⟩ | ⟨rfl, -⟩
    · rw [hnone] at hold
      cases hold
    · exact hstep rfl
    · exact Nat.lt_irrefl _ hlt

/-- A task that seeks a client goes on. -/
theorem At.seek (htask : m.task? id = some task)
    (hphase : task.phase.seeks = true) (hc : task.client = none) (hs : task.phase.Serves setup r)
    (hturn : Turn (recording setup b) m task n) (hm' : m'.bare = (m.follow id n).bare) :
    ∃ s', At setup r id m' s' ∧ Extends id m (.step id) m' ⟨none, none, none⟩ s' := by
  have htask' := Machine.task?_of_follow hm' htask
  have hback : ∀ c late, ¬ Machine.HandsIn id c late m (.step id) m' :=
    fun c late => not_handsIn_of_client htask hc
  rcases hturn.of_seeks hphase hc with
    ⟨hphase', hc'⟩ | ⟨g, c, hphase', hc'⟩ | ⟨result, hphase', hc'⟩
  · have hat : At setup r id m' ⟨none, none, none⟩ :=
      .seeking htask' hphase' hc' (hturn.serves hs)
    exact ⟨_, hat, .same hat hback⟩
  · -- it has a client from now on
    have hreturned : n.task.returned? = none := by simp only [Task.returned?, hphase']
    refine ⟨⟨some c, none, none⟩, ?_, .of_task htask' ?_ ?_ ?_⟩
    · exact .working htask' (by rw [hphase']; rfl) hc' (hturn.serves hs)
    · simp [hc']
    · intro c' late
      simp [hback]
    · simp [hreturned]
  · -- it ends without one
    have hreturned : n.task.returned? = some (result.map fun _ => ()) := by
      simp only [Task.returned?, hphase']
    refine ⟨⟨none, none, some (result.map fun _ => ())⟩, ?_, .of_task htask' ?_ ?_ ?_⟩
    · exact .returned htask' (by rw [hphase']; rfl) hc' hreturned rfl .never
    · simp [hc']
    · intro c' late
      simp [hback]
    · simp [hreturned]

/-- A task hands in nothing but its own client, in time or too late as the pool is. -/
theorem handsIn_iff (htask : m.task? id = some task) {t : Ticket} {c' : Client} {late : Bool}
    (ht : task.ticket = some t) (hc : task.client = some c) :
    Machine.HandsIn id c' late m (.step id) m' ↔ c' = c ∧ m.pool.closed = late ∧
      if late then m'.pool.party? t = some (.discarding c')
      else m'.pool.idle = c' :: m.pool.idle := by
  constructor
  · rintro ⟨-, task', t', htask', hc', ht', hclosed, h⟩
    rw [htask] at htask'
    cases htask'
    rw [hc] at hc'
    cases hc'
    rw [ht] at ht'
    cases ht'
    exact ⟨rfl, hclosed, h⟩
  · rintro ⟨rfl, hclosed, h⟩
    exact ⟨rfl, task, t, htask, hc, ht, hclosed, h⟩

/-- A task that has a client keeps it, gives it back and has returned, or loses it. -/
theorem At.work (ho : Orderly m) (htask : m.task? id = some task)
    (hphase : task.phase.stage = .holding) (hc : task.client = some c)
    (hs : task.phase.Serves setup r) (hturn : Turn (recording setup b) m task n)
    (hm' : m'.bare = (m.follow id n).bare) :
    ∃ s', At setup r id m' s' ∧ Extends id m (.step id) m' ⟨some c, none, none⟩ s' := by
  have htask' := Machine.task?_of_follow hm' htask
  have hserves := hturn.serves hs
  have hpool := Machine.pool_of_follow hm'
  have hparty : ∀ t, m'.pool.party? t = n.pool.party? t := by
    intro t
    rw [hpool]
    rfl
  have hidle : m'.pool.idle = n.pool.idle := by rw [hpool]
  have hretired : n.pool.Retired c → m'.pool.Retired c := by
    intro h
    rw [hpool]
    exact ⟨h.known, h.idle, h.borrowed⟩
  obtain ⟨t, c', k, ht, hx, hc', hw, hn⟩ := hturn.of_holding hphase
  rw [hc] at hc'
  cases hc'
  cases hn with
  | keep _ =>
    -- its party holds the client, so nothing was handed in
    have hat : At setup r id m' ⟨some c, none, none⟩ := .working htask' hw.keeps.1 hc hserves
    refine ⟨_, hat, .same hat fun c' late => not_handsIn_of_pool htask ht ?_ hidle⟩
    rw [hparty, show m.pool.party? t = _ from hx]
    nofun
  | @giveBack phase world visited p hopen hp =>
    obtain ⟨result, hgood, hr⟩ := hw.leavesGood hs
    have hfront : m'.pool.idle = c :: m.pool.idle := by
      have h := Pool.idle_release hx hopen
      rw [hp] at h
      rw [hidle, h]
    refine ⟨⟨some c, some false, some result⟩, ?_, .of_task htask' ?_ ?_ ?_⟩
    · exact .returned htask' hw.gives.1 rfl hr rfl (.settled hgood nofun)
    · simp
    · intro c' late
      rw [handsIn_iff htask ht hc]
      cases late with
      | true => simp [hopen]
      | false => simp [hopen, hfront, eq_comm]
    · intro res
      rw [hr]
      simp
  | @giveLate phase world visited p hclosed hp =>
    -- the party goes to a new task, which is to destroy the client
    obtain ⟨result, hgood, hr⟩ := hw.leavesGood hs
    have hdrop := Pool.party?_drop hx
    have hlost := ho.pool.retired_drop hx
    rw [← Pool.release_of_closed hclosed, hp] at hdrop hlost
    have hdiscarding : m'.pool.party? t = some (.discarding c) := (hparty t).trans hdrop
    have hleft : m'.task? m.nextTask = some (.ofDiscard (Client × Writer) t) := by
      rw [Machine.task?_congr hm']
      refine Machine.task?_follow_left ?_ (ho.fresh _ (Nat.le_refl _)) rfl
      exact (Nat.ne_of_lt (ho.lt_nextTask htask)).symm
    refine ⟨⟨some c, some true, some result⟩, ?_, .of_task htask' ?_ ?_ ?_⟩
    · refine .returned htask' hw.gives.1 rfl hr rfl (.settled hgood fun _ => ?_)
      exact .of_left (hretired hlost) hleft hdiscarding
    · simp
    · intro c' late
      rw [handsIn_iff htask ht hc]
      cases late with
      | true => simp [hclosed, hdiscarding, eq_comm]
      | false => simp [hclosed]
    · intro res
      rw [hr]
      simp
  | @destroy err world visited p a alarm hp ha _ =>
    -- the call that destroys the client is made in this step
    have hinvalidating := Pool.party?_invalidate hx
    have hlost := ho.pool.retired_invalidate hx
    have hsame := Pool.idle_invalidate t m.pool
    rw [hp] at hinvalidating hlost hsame
    have hcall : .destroy c ∈ m'.world.calls := by
      rw [Machine.world_of_follow hm']
      subst ha
      exact List.mem_append_right _ (List.mem_singleton.2 rfl)
    have hat : At setup r id m' ⟨some c, none, none⟩ :=
      .losing htask' rfl rfl (hw.not_leavesGood hs) ⟨hretired hlost, Or.inl hcall⟩
    refine ⟨_, hat, .same hat fun c' late => not_handsIn_of_pool htask ht ?_ (hidle.trans hsame)⟩
    rw [hparty, show Pool.party? _ t = _ from hinvalidating]
    nofun

/-- Nobody hands in a client where nothing happens. -/
theorem Orderly.not_handsIn_self (ho : Orderly m) {late : Bool} :
    ¬ Machine.HandsIn id c late m e m := by
  rintro ⟨-, task, t, htask, hc, ht, -, h⟩
  obtain ⟨t', ht', hx, -⟩ := (ho.sound id task htask).exists_holder hc
  rw [ht] at ht'
  cases ht'
  cases late with
  | true =>
    have h : m.pool.party? t = some (.discarding c) := h
    rw [hx] at h
    cases h
  | false => exact List.ne_cons_self h

/-- An operation that has lost its client ends with the error that it lost it for. -/
theorem At.lose {reply : Except StoreError Unit} {err : StoreError} (htask : m.task? id = some task)
    (hphase : task.phase = .invalidated reply (.error err)) (hc : task.client = none)
    (hbad : ¬ r.LeavesGood (.error err)) (hturn : Turn (recording setup b) m task n)
    (hm' : m'.bare = (m.follow id n).bare) (hlost : Lost m' c) :
    ∃ s', At setup r id m' s' ∧ Extends id m (.step id) m' ⟨some c, none, none⟩ s' := by
  have htask' := Machine.task?_of_follow hm' htask
  rw [hturn.of_invalidated hphase] at htask'
  refine ⟨⟨some c, none, some (.error err)⟩, ?_, .of_task htask' ?_ ?_ ?_⟩
  · refine .returned htask' rfl hc rfl rfl (.lost ?_ hlost)
    rintro _ ⟨⟩
    exact hbad
  · simp [hc]
  · intro c' late
    simp [not_handsIn_of_client htask hc]
  · intro result
    simp [Task.returned?, Except.map]

/-- An operation that has returned is left as it is by its own steps. -/
theorem At.rest {result : Except StoreError Unit} (htask : m.task? id = some task)
    (hc : task.client = none) (hr : task.returned? = some result) (hresult : s.result = some result)
    (hturn : Turn (recording setup b) m task n) (hm' : m'.bare = (m.follow id n).bare)
    (hclosed : s.Closed r m') : At setup r id m' s := by
  have htask' := Machine.task?_of_follow hm' htask
  obtain ⟨-, hstage, hclient, hr'⟩ := hturn.of_returned hr
  exact .returned htask' hstage (hclient.trans hc) hr' hresult hclosed

/-- The client of an operation that is cancelled is lost, if it has one. -/
theorem Orderly.lost_of_cut {p : Pool} {world : Recorded World} {left : Option Ticket}
    (ho : Orderly m) (htask : m.task? id = some task) (hc : task.client = some c)
    (hcut : Cut (recording setup b) m task p world left)
    (hm' : m'.bare = (m.without id p world left).bare) : Lost m' c := by
  obtain ⟨t, ht, hx, -⟩ := (ho.sound id task htask).exists_holder hc
  cases hcut with
  | apart hnone =>
    rw [hnone] at ht
    cases ht
  | cancel ht' hx' hborrowed =>
    rw [ht] at ht'
    cases ht'
    rw [hx] at hx'
    cases hx'
    cases hborrowed
  | @drop t' c' _ _ ht' hx' hc' hp _ =>
    rw [ht] at ht'
    cases ht'
    rw [hc] at hc'
    cases hc'
    have hpool := Machine.pool_of_without hm'
    have hretired := ho.pool.retired_drop hx
    have hdrop := Pool.party?_drop hx
    rw [hp] at hretired hdrop
    have hleft : m'.task? m.nextTask = some (.ofDiscard (Client × Writer) t) := by
      rw [Machine.task?_congr hm']
      exact Machine.task?_without_left (ho.fresh _ (Nat.le_refl _)) _ _ _
    refine .of_left ?_ hleft ?_
    · rw [hpool]
      exact ⟨hretired.known, hretired.idle, hretired.borrowed⟩
    · rw [hpool]
      exact hdrop

/-- An operation that is cancelled has no client any more, and gives none back. -/
theorem At.cancel {p : Pool} {world : Recorded World} {left : Option Ticket} (h : At setup r id m s)
    (ho : Orderly m) (htask : m.task? id = some task)
    (hcut : Cut (recording setup b) m task p world left)
    (hm' : m'.bare = (m.without id p world left).bare) (hclosed : s.Closed r m → s.Closed r m')
    (hlost : ∀ {c}, Lost m c → Lost m' c) : At setup r id m' s := by
  have hnone := ho.task?_cancel htask hm'
  have hlt : id < m'.nextTask := by
    have hnext : m'.nextTask = (m.without id p world left).nextTask := congrArg (·.nextTask) hm'
    rw [hnext]
    exact Nat.lt_of_lt_of_le (ho.lt_nextTask htask)
      (Machine.nextTask_handOver ({ m with pool := p, world }.remove id) left)
  cases h with
  | seeking _ _ _ _ => exact .cancelled hnone hlt .never
  | working htask' _ hc _ =>
    rw [htask] at htask'
    cases htask'
    exact .cancelled hnone hlt (.lost nofun (ho.lost_of_cut htask hc hcut hm'))
  | losing _ _ _ _ h => exact .cancelled hnone hlt (.lost nofun (hlost h))
  | returned _ _ _ _ _ h => exact .cancelled hnone hlt (hclosed h)
  | cancelled _ _ h => exact .cancelled hnone hlt (hclosed h)

/-- **One event.** Where an operation stands agrees with its story also after the event. -/
theorem At.happen (h : At setup r id m s) (ho : Orderly m) (hm : AllBound m) (e : Event) :
    ∃ s', At setup r id (m.happen (recording setup b) e) s' ∧
      Extends id m e (m.happen (recording setup b) e) s s' := by
  have hh := ho.happens (recording setup b) e
  have hclosed : ∀ {s : Story}, s.Closed r m → s.Closed r (m.happen (recording setup b) e) :=
    fun h => h.happen ho hm e
  have hlost : ∀ {c}, Lost m c → Lost (m.happen (recording setup b) e) c :=
    fun h => h.happen ho hm e
  -- the operation itself makes a step, or is cancelled, or others are at work
  by_cases hstep : e = .step id
  · subst hstep
    generalize m.happen (recording setup b) (.step id) = m' at hh hclosed hlost ⊢
    cases hh with
    | still _ => exact ⟨s, h, .same h fun c late => ho.not_handsIn_self⟩
    | turn htask hturn hm' =>
      cases h with
      | seeking htask' hphase hc hs =>
        rw [htask] at htask'
        cases htask'
        exact At.seek htask hphase hc hs hturn hm'
      | working htask' hphase hc hs =>
        rw [htask] at htask'
        cases htask'
        exact At.work ho htask hphase hc hs hturn hm'
      | losing htask' hphase hc hbad hgone =>
        rw [htask] at htask'
        cases htask'
        exact At.lose htask hphase hc hbad hturn hm' (hlost hgone)
      | returned htask' _ hc hr hresult hover =>
        rw [htask] at htask'
        cases htask'
        have hat : At setup r id m' s := .rest htask hc hr hresult hturn hm' (hclosed hover)
        exact ⟨s, hat, .same hat fun c late => not_handsIn_of_client htask hc⟩
      | cancelled hnone _ _ =>
        rw [htask] at hnone
        cases hnone
  · have hback : ∀ c late, ¬ Machine.HandsIn id c late m e (m.happen (recording setup b) e) := by
      rintro c late ⟨he, -⟩
      exact hstep he
    suffices hat : At setup r id (m.happen (recording setup b) e) s from
      ⟨s, hat, .same hat hback⟩
    by_cases hcancel : e = .cancel id
    · subst hcancel
      generalize m.happen (recording setup b) (.cancel id) = m' at hh hclosed hlost ⊢
      cases hh with
      | spared _ => exact h
      | cut htask _ hcut hm' => exact h.cancel ho htask hcut hm' hclosed hlost
    · exact h.untouched ho hm hstep hcancel

end Step

/-! ## Runs -/

section Run

variable {setup : Setup} {b : Backend World Writer} {r : Request} {id : TaskId}
  {m : Machine (Recorded World) (Client × Writer)} {s s' : Story} {c : Client} {e : Event}
  {events : List Event}

theorem Story.Tells.concat (h : s.Tells (recording setup b) m events id)
    (hext : Extends id (m.run (recording setup b) events) e
      (m.run (recording setup b) (events ++ [e])) s s') :
    s'.Tells (recording setup b) m (events ++ [e]) id where
  client c := by
    rw [Machine.Borrows, sometime_concat_iff, hext.client, ← h.client]
    rfl
  back c late := by
    rw [Machine.GivesBack, once_concat_iff, hext.back, ← h.back]
    rfl
  result result := by
    rw [Machine.Returns, sometime_concat_iff, hext.result, ← h.result]
    rfl

/-- At the request itself, the operation begins to look for a client. -/
theorem Orderly.at_request (ho : Orderly m) :
    (Story.mk none none none).Tells (recording setup b) m [.request r] m.nextTask ∧
      At setup r m.nextTask (m.run (recording setup b) [.request r]) ⟨none, none, none⟩ := by
  have hnone : m.task? m.nextTask = none := ho.fresh _ (Nat.le_refl _)
  have htask : (m.run (recording setup b) [.request r]).task? m.nextTask =
      some (.ofRequest _ r) := ho.task?_request r
  have hat : At setup r m.nextTask (m.run (recording setup b) [.request r]) ⟨none, none, none⟩ :=
    .seeking htask rfl rfl rfl
  have hbegin : (Story.mk none none none).Tells (recording setup b) m [] m.nextTask := by
    have hno : ∀ {P : Task (Client × Writer) → Prop} {first : List Event}, first <+: [] →
        ¬ ∃ task, (m.run (recording setup b) first).task? m.nextTask = some task ∧ P task := by
      rintro P first hfirst ⟨task, htask, -⟩
      rw [List.prefix_nil.1 hfirst, Machine.run_nil, hnone] at htask
      cases htask
    refine ⟨fun c => ?_, fun c late => ?_, fun result => ?_⟩
    · simp only [Machine.Borrows, Machine.Sometime, reduceCtorEq, iff_false]
      rintro ⟨first, hfirst, h⟩
      exact hno hfirst h
    · simp only [Machine.GivesBack, Machine.Once, reduceCtorEq, false_and, iff_false]
      rintro ⟨first, e, hfirst, -⟩
      simp at hfirst
    · simp only [Machine.Returns, Machine.Sometime, reduceCtorEq, iff_false]
      rintro ⟨first, hfirst, h⟩
      exact hno hfirst h
  refine ⟨Story.Tells.concat hbegin (.same hat ?_), hat⟩
  rintro c late ⟨he, -⟩
  cases he

/-- **A whole run.** An operation has a story that tells what happened since its request, and it
stands where the story ends. -/
theorem Orderly.exists_story (ho : Orderly m) (hm : AllBound m)
    (he : ∀ r', .request r' ∈ .request r :: events → r'.isOperation = true) :
    ∃ s : Story, s.Tells (recording setup b) m (.request r :: events) m.nextTask ∧
      At setup r m.nextTask (m.run (recording setup b) (.request r :: events)) s := by
  -- from the back, as a story goes on at its end
  induction events using List.reverseRecOn with
  | nil => exact ⟨_, ho.at_request⟩
  | append_singleton events e ih =>
    have he' : ∀ r', .request r' ∈ .request r :: events → r'.isOperation = true := by
      intro r' hr'
      rw [← List.cons_append] at he
      exact he r' (List.mem_append_left _ hr')
    obtain ⟨s, htells, hat⟩ := ih he'
    obtain ⟨s', hat', hext⟩ := hat.happen (b := b) (ho.run he') (hm.run ho he') e
    rw [← Machine.run_concat] at hat' hext
    exact ⟨s', htells.concat hext, hat'⟩

end Run

/-! ## The client of an operation -/

section Client

variable {setup : Setup} {b : Backend World Writer} {r : Request} {id : TaskId}
  {m : Machine (Recorded World) (Client × Writer)} {s : Story} {c : Client}

/-- A client was given back exactly if the request came to a good end on it. -/
theorem At.gave_iff (h : At setup r id m s) :
    (∃ late, s.client = some c ∧ s.back = some late) ↔
      s.client = some c ∧ ∃ result, s.result = some result ∧ r.LeavesGood result := by
  have hclosed : s.Closed r m → ((∃ late, s.client = some c ∧ s.back = some late) ↔
      s.client = some c ∧ ∃ result, s.result = some result ∧ r.LeavesGood result) := by
    rintro (_ | ⟨hgood, -⟩ | ⟨hbad, -⟩)
    · simp
    · simp [hgood]
    · simpa using fun _ => hbad
  cases h with
  | seeking _ _ _ _ | working _ _ _ _ | losing _ _ _ _ _ => simp
  | returned _ _ _ _ _ h => exact hclosed h
  | cancelled _ _ h => exact hclosed h

/-- Whoever has returned or was cancelled has no client any more. -/
theorem At.not_has_of_over (h : At setup r id m s) (hover : m.Over id) : ¬ m.Has id c := by
  rintro ⟨task, htask, hc⟩
  obtain ⟨result, hreturned⟩ := Option.isSome_iff_exists.1 (hover task htask)
  have hresult := h.result htask hreturned
  cases h with
  | working _ _ _ _ => cases hresult
  | seeking htask' _ hc' _ | losing htask' _ hc' _ _ | returned htask' _ hc' _ _ _ =>
    rw [htask] at htask'
    cases htask'
    rw [hc] at hc'
    cases hc'
  | cancelled hnone _ _ =>
    rw [htask] at hnone
    cases hnone

/-- A client that an operation has no more, and has not given back in time, is lost. -/
theorem At.lost (h : At setup r id m s) (hc : s.client = some c) (hno : ¬ m.Has id c)
    (hback : ¬ (s.client = some c ∧ s.back = some false)) : Lost m c := by
  have hclosed : s.Closed r m → Lost m c := by
    intro hclosed
    cases hclosed with
    | never => cases hc
    | @settled _ late _ _ hlost =>
      cases hc
      cases late with
      | true => exact hlost rfl
      | false => exact absurd ⟨rfl, rfl⟩ hback
    | lost _ hlost =>
      cases hc
      exact hlost
  cases h with
  | seeking _ _ _ _ => cases hc
  | working htask _ hclient _ =>
    cases hc
    exact absurd ⟨_, htask, hclient⟩ hno
  | losing _ _ _ _ hlost =>
    cases hc
    exact hlost
  | returned _ _ _ _ _ h => exact hclosed h
  | cancelled _ _ h => exact hclosed h

/-- **An operation settles its client exactly once, and a client that failed never serves again.**
Whatever the backend, the visitors and the sources do, and however operations take turns and are
cancelled:

- who makes a call on a client has borrowed it, and nobody else has it meanwhile;
- an operation borrows at most one client, so all of its calls are made on this one, and none
  without;
- it gives its client back exactly if it succeeds, or has looked up an object that is missing: the
  client is idle again, or, if the pool is closed by then, to be destroyed, and not both;
- when it is over, returned or cancelled, it has no client any more;
- a client that it lost otherwise is destroyed, or the next step of a task in the background does
  it, and from then on no operation has it or makes a call on it, whatever happens. -/
theorem operation_settles_client {World Writer : Type} {b : Backend World Writer} {kind : String}
    {config : Config} {world : World} {m₀ : Machine (Recorded World) (Client × Writer)}
    (hconnect : connect kind (recorded b) config ⟨world, []⟩ = .ok m₀)
    (before : List Event) (r : Request) (after : List Event)
    (hoperations : ∀ r', .request r' ∈ before ++ .request r :: after → r'.isOperation = true) :
    let env : Env (Recorded World) (Client × Writer) := ⟨.ofConfig kind config, recorded b⟩
    let m := m₀.run env before
    let id := m.nextTask
    let events := .request r :: after
    let last := m.run env events
    (∀ first, first <+: events → ∀ id' c, (m.run env first).Uses env id' c →
      (m.run env first).Has id' c ∧ ∀ id'', (m.run env first).Has id'' c → id'' = id') ∧
    (∀ c c', m.Borrows env events id c → m.Borrows env events id c' → c = c') ∧
    ((∀ c, ¬ m.Borrows env events id c) →
      ∀ first, first <+: events → ∀ c, ¬ (m.run env first).Uses env id c) ∧
    (∀ c, (∃ late, m.GivesBack env events id c late) ↔
      m.Borrows env events id c ∧ ∃ result, m.Returns env events id result ∧ r.LeavesGood result) ∧
    (∀ c late late', m.GivesBack env events id c late → m.GivesBack env events id c late' →
      late = late') ∧
    (last.Over id → ∀ c, ¬ last.Has id c) ∧
    ∀ c, m.Borrows env events id c → ¬ last.Has id c → ¬ m.GivesBack env events id c false →
      last.Doomed env c ∧
        ∀ more, (∀ r', .request r' ∈ more → r'.isOperation = true) →
          c ∉ (last.run env more).pool.idle ∧
            ∀ id', ¬ (last.run env more).Has id' c ∧ ¬ (last.run env more).Uses env id' c := by
  intro env m id events last
  have hbefore : ∀ r', .request r' ∈ before → r'.isOperation = true :=
    fun r' hr' => hoperations r' (List.mem_append_left _ hr')
  have hevents : ∀ r', .request r' ∈ events → r'.isOperation = true :=
    fun r' hr' => hoperations r' (List.mem_append_right _ hr')
  have ho₀ := Orderly.of_connect hconnect
  have hm₀ : AllBound m₀ := by
    intro id task htask
    rw [task?_of_connect hconnect] at htask
    cases htask
  have ho : Orderly m := ho₀.run hbefore
  have hm : AllBound m := hm₀.run ho₀ hbefore
  have hoLast : Orderly last := ho.run hevents
  have hmLast : AllBound last := hm.run ho hevents
  have huses : ∀ first, first <+: events → ∀ id' c, (m.run env first).Uses env id' c →
      (m.run env first).Has id' c ∧ ∀ id'', (m.run env first).Has id'' c → id'' = id' := by
    intro first hfirst id' c h
    have hpart : ∀ r', .request r' ∈ first → r'.isOperation = true :=
      fun r' hr' => hevents r' (hfirst.mem hr')
    have hhas := (ho.run hpart).has_of_uses (hm.run ho hpart) h
    exact ⟨hhas, fun id'' h' => (ho.run hpart).has_unique h' hhas⟩
  -- the story of the operation says when it had a client and when it gave one back, and where it
  -- stands in the end says what became of the client
  obtain ⟨s, htells, hat⟩ : ∃ s : Story, s.Tells env m events id ∧ At env.setup r id last s :=
    ho.exists_story hm hevents
  refine ⟨huses, ?_, ?_, ?_, ?_, ?_, ?_⟩
  · intro c c' hc hc'
    rw [htells.client] at hc hc'
    exact Option.some.inj (hc.symm.trans hc')
  · intro hnone first hfirst c h
    exact hnone c ⟨first, hfirst, (huses first hfirst id c h).1⟩
  · intro c
    simp only [htells.client, htells.back, htells.result]
    exact hat.gave_iff
  · intro c late late' h h'
    rw [htells.back] at h h'
    exact Option.some.inj (h.2.symm.trans h'.2)
  · exact fun hover c => hat.not_has_of_over hover
  · intro c hc hno hback
    rw [htells.client] at hc
    rw [htells.back] at hback
    have hlost := hat.lost hc hno hback
    refine ⟨hlost.doom, fun more hmore => ?_⟩
    have hgone : (last.run env more).pool.Retired c := (hlost.run hoLast hmLast hmore).retired
    have hoMore : Orderly (last.run env more) := hoLast.run hmore
    refine ⟨hgone.idle, fun id' => ⟨hoMore.not_has_of_retired hgone, fun h => ?_⟩⟩
    exact hoMore.not_has_of_retired hgone (hoMore.has_of_uses (hmLast.run hoLast hmore) h)

/-- A client on which a missing object was to be read is destroyed, and nobody uses it again. -/
theorem operation_settles_client_of_missing :
    ∃ (config : Config) (m : Machine (Recorded Memory) (Client × Memory.Writer)),
      connect "memory" (recorded Memory.backend) config ⟨.new 1, []⟩ = .ok m ∧
      let env : Env (Recorded Memory) (Client × Memory.Writer) :=
        ⟨.ofConfig "memory" config, recorded Memory.backend⟩
      let last := m.run env [.request (.read "a"), .step 0, .step 0, .step 0, .step 0]
      last.Doomed env 2 ∧ ∀ more, (∀ r, .request r ∈ more → r.isOperation = true) →
        2 ∉ (last.run env more).pool.idle ∧
          ∀ id, ¬ (last.run env more).Has id 2 ∧ ¬ (last.run env more).Uses env id 2 := by
  let config : Config := { Config.standard with bucket := "b" }
  have hvalid : config.validate = .ok () := Config.validate_standard (by decide)
  obtain ⟨m, hconnect⟩ :
      ∃ m, connect "memory" (recorded Memory.backend) config ⟨.new 1, []⟩ = .ok m :=
    exists_connect "memory" hvalid rfl
  obtain ⟨-, -, -, hgave, -, -, hlost⟩ := operation_settles_client hconnect [] (.read "a")
    [.step 0, .step 0, .step 0, .step 0] (by simp [Request.isOperation])
  refine ⟨config, m, hconnect, ?_⟩
  -- the state is written out from here on, for the run to be evaluated
  unfold connect at hconnect
  rw [hvalid] at hconnect
  cases hconnect
  refine hlost 2 ?_ ?_ ?_
  · exact ⟨[.request (.read "a"), .step 0, .step 0], ⟨[.step 0, .step 0], rfl⟩, _, rfl, rfl⟩
  · intro hhas
    exact absurd (Option.isSome_of_eq_some (Option.bind_eq_some_iff.2 hhas)) (by decide +kernel)
  · intro hback
    obtain ⟨-, result, ⟨first, hfirst, hreturned⟩, -⟩ := (hgave 2).1 ⟨_, hback⟩
    replace hreturned := Option.isSome_of_eq_some (Option.bind_eq_some_iff.2 hreturned)
    rw [← List.mem_inits] at hfirst
    revert first
    decide +kernel

end Client

end Depot.Storage
