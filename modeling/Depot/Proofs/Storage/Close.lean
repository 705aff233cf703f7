import Depot.Proofs.Storage.Accounts

/-!
# Closing a storage

The first request to close a storage takes the client outside of the pool and destroys it; each of
them closes the pool then, whatever has come of that, and ends with the result of what it has
destroyed (`Closing`). As nobody who closes has to wait where clients are destroyed without delay,
none of them is cancelled after its first step. With the books of the storage, nothing is left when
all tasks are over (`close_leaves_no_client`).
-/

set_option autoImplicit false

namespace Depot.Storage

/-! ## Occurrences -/

section Occurs

variable {World Writer : Type} {env : Shared World Writer} {m m' : Machine World Writer}
  {os os' : List Occurrence} {x : Occurrence} {id id' : TaskId} {task task' : Task Writer}
  {n : Next World Writer} {result : Except StoreError Unit} {verdict : Except StoreError Unit}

/-- What an occurrence can bring about: a task makes a turn, or all tasks stay as they are, but for
one that is cancelled, while new ones may come. -/
inductive Occurs (env : Shared World Writer) (m : Machine World Writer) (x : Occurrence)
    (m' : Machine World Writer) : Prop where
  | turn {id : TaskId} {task : Task Writer} {n : Next World Writer} :
      x = .event (.step id) → m.task? id = some task → Turn env.toEnv m task n →
      m'.bare = (m.follow id n).bare → Occurs env m x m'
  | besides : m'.direct = m.direct →
      (∀ id task, m.task? id = some task → x ≠ .event (.cancel id) → m'.task? id = some task) →
      (∀ id task', m'.task? id = some task' → m.task? id = some task' ∨ id = m.nextTask ∧
        ((∃ r, x = .event (.request r) ∧ task' = .ofRequest Writer r) ∨
          ∃ t, task' = .ofDiscard Writer t)) →
      Occurs env m x m'

theorem Orderly.occurs (ho : Orderly m) (env : Shared World Writer) (x : Occurrence) :
    Occurs env m x (m.occur env x) := by
  cases x with
  | deed d => exact .besides rfl (fun _ _ h _ => h) fun _ _ h => Or.inl h
  | event e =>
    have hh := ho.happens env.toEnv e
    show Occurs env m (.event e) (m.happen env.toEnv e)
    generalize m.happen env.toEnv e = m' at hh
    have htasks := fun id task' (h : m'.task? id = some task') => hh.task? h
    cases hh with
    | turn htask hturn hm' => exact .turn rfl htask hturn hm'
    | @cut id task p world left _ htask _ _ hm' =>
      refine .besides (Machine.direct_of_without hm') ?_ fun id' task' h => ?_
      · intro id' task' htask' hne
        have hid : id' ≠ id := fun h => hne (h ▸ rfl)
        rw [Machine.task?_congr hm']
        exact Machine.task?_without_of_ne hid htask' p world left
      · rcases htasks id' task' h with hold | ⟨_, _, he, -⟩ | hnew
        · exact Or.inl hold
        · cases he
        · exact Or.inr (hnew.imp_right fun h => h.imp_left fun ⟨_, he, _⟩ => nomatch he)
    | request r =>
      refine .besides rfl ?_ fun id' task' h => ?_
      · intro id' task' htask' _
        rw [Machine.task?_add, htask']
        rfl
      · rcases htasks id' task' h with hold | ⟨_, _, he, -⟩ | ⟨hid, ⟨r', he, hr'⟩ | hdiscard⟩
        · exact Or.inl hold
        · cases he
        · cases he
          exact Or.inr ⟨hid, Or.inl ⟨r, rfl, hr'⟩⟩
        · exact Or.inr ⟨hid, Or.inr hdiscard⟩
    | still _ | spared _ => exact .besides rfl (fun _ _ h _ => h) fun _ _ h => Or.inl h
    | pass ms => exact .besides rfl (fun _ _ h _ => h) fun _ _ h => Or.inl h

end Occurs

/-! ## Steps of who closes the storage -/

section Turn

variable {World Writer : Type} {env : Env World Writer} {m : Machine World Writer}
  {task : Task Writer} {n : Next World Writer} {result : Except StoreError Outcome}

/-- A task in a phase is to end with a result, once the pool is closed. -/
def Phase.Concludes (result : Except StoreError Outcome) : Phase Writer → Prop
  | disconnected r => r = result
  | closing _ r => r = result
  | ended r => r = result
  | _ => False

/-- Nobody changes his mind. -/
theorem Turn.concludes (h : Turn env m task n) (hc : task.phase.Concludes result) :
    n.task.phase.Concludes result := by
  cases h with
  | acquire hasks _ =>
    cases hasks with
    | request hphase _ _ | proceed hphase _ _ _ | rejected hphase _ _ | created hphase _ _ =>
      rw [hphase] at hc
      cases hc
  | work _ _ _ hw _ =>
    have hstage := hw.stage_eq
    generalize task.phase = phase at hc hstage
    cases phase with
    | disconnected _ | closing _ _ | ended _ => cases hstage
    | _ => cases hc
  | shut hshuts _ | drainPool hshuts _ _ _ =>
    generalize task.phase = phase at hc hshuts
    cases hshuts with
    | closePool => cases hc
    | disconnected => exact hc
  | closeNext hphase _ _ _ _ | closeLast hphase _ _ =>
    rw [hphase] at hc
    exact hc
  | deny hphase _ | invalidated hphase _ | drain hphase _ _ | disconnect hphase _ _ _
  | apart hphase _ | startDestroy hphase _ _ _ _ _ | destroyed hphase _ =>
    rw [hphase] at hc
    cases hc

/-- The first step of who closes the storage: the client outside of the pool is destroyed if it is
there. -/
theorem Turn.of_close (h : Turn env m task n) (hphase : task.phase = .start .close) :
    n.direct = none ∧
      ((∃ c, m.direct = some c ∧ n.task.phase =
        .disconnected ((env.backend.destroy c m.world).result.map fun () => .unit)) ∨
      m.direct = none ∧ n.task.phase = .disconnected (.ok .unit)) := by
  cases h with
  | disconnect _ hdirect ha _ =>
    subst ha
    exact ⟨rfl, Or.inl ⟨_, hdirect, rfl⟩⟩
  | apart _ hdirect => exact ⟨hdirect, Or.inr ⟨hdirect, rfl⟩⟩
  | acquire hasks _ =>
    cases hasks with
    | request hphase' hgoal _ =>
      rw [hphase] at hphase'
      cases hphase'
      cases hgoal
    | proceed hphase' _ _ _ | rejected hphase' _ _ | created hphase' _ _ =>
      rw [hphase] at hphase'
      cases hphase'
  | work _ _ _ hw _ =>
    rw [hphase] at hw
    cases hw
  | shut hshuts _ | drainPool hshuts _ _ _ =>
    rw [hphase] at hshuts
    cases hshuts
  | deny hphase' hgoal =>
    rw [hphase] at hphase'
    cases hphase'
    cases hgoal
  | invalidated hphase' _ | drain hphase' _ _ | closeNext hphase' _ _ _ _ | closeLast hphase' _ _
  | startDestroy hphase' _ _ _ _ _ | destroyed hphase' _ =>
    rw [hphase] at hphase'
    cases hphase'

/-- Only who closes the storage takes the client outside of the pool. -/
theorem Turn.direct (h : Turn env m task n) :
    n.direct = m.direct ∨ task.phase = .start .close ∧ ∃ c, m.direct = some c := by
  cases h with
  | disconnect hphase hdirect _ _ => exact Or.inr ⟨hphase, _, hdirect⟩
  | acquire _ hn => cases hn <;> exact Or.inl rfl
  | work _ _ _ _ hn => cases hn <;> exact Or.inl rfl
  | _ => exact Or.inl rfl

/-- What comes after that closes the pool. -/
theorem Turn.of_disconnected (h : Turn env m task n) (hphase : task.phase = .disconnected result) :
    n.pool.closed = true := by
  cases h with
  | shut _ hp =>
    have hclosed : m.pool.close.1.closed = true := Pool.close_closed m.pool
    rwa [hp] at hclosed
  | drainPool _ hp _ _ =>
    have hclosed : m.pool.close.1.closed = true := Pool.close_closed m.pool
    rwa [hp] at hclosed
  | acquire hasks _ =>
    cases hasks with
    | request hphase' _ _ | proceed hphase' _ _ _ | rejected hphase' _ _ | created hphase' _ _ =>
      rw [hphase] at hphase'
      cases hphase'
  | work _ _ _ hw _ =>
    rw [hphase] at hw
    cases hw
  | deny hphase' _ | invalidated hphase' _ | drain hphase' _ _ | disconnect hphase' _ _ _
  | apart hphase' _ | closeNext hphase' _ _ _ _ | closeLast hphase' _ _
  | startDestroy hphase' _ _ _ _ _ | destroyed hphase' _ =>
    rw [hphase] at hphase'
    cases hphase'

end Turn

/-! ## Who closes the storage -/

section Closing

variable {World Writer : Type} {env : Shared World Writer} {m : Machine World Writer}
  {os os' : List Occurrence} {x : Occurrence} {id id' : TaskId} {task : Task Writer}
  {phase : Phase Writer} {v v' : Except StoreError Unit}

theorem Orderly.closed_occur (ho : Orderly m) (env : Shared World Writer) (x : Occurrence)
    (h : m.pool.closed = true) : (m.occur env x).pool.closed = true := by
  cases x with
  | deed d => exact h
  | event e =>
    obtain ⟨es, hsteps⟩ := ho.steps_of_happens (ho.happens env.toEnv e)
    exact hsteps.keep (fun hs => hs.closed) h

theorem Orderly.direct_occur (ho : Orderly m) (env : Shared World Writer) (x : Occurrence)
    (h : m.direct = none) : (m.occur env x).direct = none := by
  cases ho.occurs env x with
  | turn _ _ hturn hm' =>
    rw [Machine.direct_of_follow hm']
    rcases hturn.direct with hsame | ⟨-, c, hdirect⟩
    · rw [hsame, h]
    · rw [h] at hdirect
      cases hdirect
  | besides hdirect _ _ => rw [hdirect, h]

theorem Machine.TearsDown.of_prefix (h : m.TearsDown env os' id v) (hos : os' <+: os) :
    m.TearsDown env os id v := by
  obtain ⟨before, c, hbefore, htaken⟩ := h
  exact ⟨before, c, hbefore.trans hos, htaken⟩

/-- The client outside of the pool is taken once. -/
theorem Orderly.tearsDown_unique (ho : Orderly m) (hops : Machine.Operates os)
    (h : m.TearsDown env os id v) (h' : m.TearsDown env os id' v') : id = id' ∧ v = v' := by
  obtain ⟨before, c, hbefore, hc, hnone, hv⟩ := h
  obtain ⟨before', c', hbefore', hc', hnone', hv'⟩ := h'
  -- who comes later finds nothing
  have hlater : ∀ {first first' : List Occurrence} {d : Client}, first <+: first' →
      first' <+: os → (m.after env first).direct = none →
      (m.after env first').direct ≠ some d := by
    intro first first' d hfirst hos hnone hd
    rw [ho.persists (hops.of_prefix hos) (fun _ x ho h => ho.direct_occur env x h) hfirst hnone]
      at hd
    cases hd
  have hbegun := (List.prefix_append before' _).trans hbefore'
  rcases List.prefix_or_prefix_of_prefix hbefore hbefore' with hfirst | hfirst
  · rcases List.prefix_concat_iff.1 hfirst with heq | hfirst
    · obtain ⟨rfl, hid⟩ := List.append_inj' heq rfl
      cases hid
      rw [hc] at hc'
      cases hc'
      exact ⟨rfl, hv.symm.trans hv'⟩
    · exact absurd hc' (hlater hfirst hbegun hnone)
  · rcases List.prefix_concat_iff.1 hfirst with heq | hfirst
    · obtain ⟨rfl, hid⟩ := List.append_inj' heq rfl
      cases hid
      rw [hc] at hc'
      cases hc'
      exact ⟨rfl, hv.symm.trans hv'⟩
    · exact absurd hc (hlater hfirst ((List.prefix_append before _).trans hbefore) hnone')

/-- What is true of a task in a phase that closes the storage and has made its first step: the client
outside of the pool is taken, and unless the task itself has taken it, it is to end with success.
With its second step the pool is closed. -/
structure Parted (env : Shared World Writer) (m : Machine World Writer) (os : List Occurrence)
    (id : TaskId) (phase : Phase Writer) : Prop where
  direct : (m.after env os).direct = none
  result : (∃ v, m.TearsDown env os id v) ∨ phase.Concludes (.ok .unit)
  closed : (∃ result, phase = .disconnected result) ∨ (m.after env os).pool.closed = true

theorem Parted.concat (h : Parted env m os id phase) (ho : Orderly (m.after env os))
    (x : Occurrence) : Parted env m (os ++ [x]) id phase := by
  constructor
  · rw [Machine.after_concat]
    exact ho.direct_occur env x h.direct
  · exact h.result.imp_left fun ⟨v, hv⟩ => ⟨v, hv.of_prefix (List.prefix_append _ _)⟩
  · rw [Machine.after_concat]
    exact h.closed.imp_right (ho.closed_occur env x)

/-- A step of a task that closes the storage. -/
theorem Parted.turn {n : Next World Writer} (ho : Orderly (m.after env os))
    (hturn : Turn env.toEnv (m.after env os) task n)
    (hm' : ((m.after env os).occur env (.event (.step id))).bare =
      ((m.after env os).follow id n).bare)
    (h : task.phase = .start .close ∨ Parted env m os id task.phase) :
    Parted env m (os ++ [.event (.step id)]) id n.task.phase := by
  have hdirect' := Machine.direct_of_follow hm'
  have hlast := m.after_concat env os (.event (.step id))
  rcases h with hphase | h
  · obtain ⟨hnone, htaken⟩ := hturn.of_close hphase
    have hdirect : (m.after env (os ++ [.event (.step id)])).direct = none := by
      rw [hlast, hdirect', hnone]
    rcases htaken with ⟨c, hc, hphase'⟩ | ⟨-, hphase'⟩
    · -- it takes the client, and has the verdict to return
      exact ⟨hdirect, Or.inl ⟨_, os, c, List.prefix_rfl, hc, hdirect, rfl⟩, Or.inl ⟨_, hphase'⟩⟩
    · -- another one was there before
      exact ⟨hdirect, Or.inr (hphase' ▸ rfl), Or.inl ⟨_, hphase'⟩⟩
  · have hnext := h.concat ho (.event (.step id))
    refine ⟨hnext.direct, hnext.result.imp_right hturn.concludes, Or.inr ?_⟩
    rw [hlast]
    rcases h.closed with ⟨result, hphase⟩ | hclosed
    · rw [Machine.pool_of_follow hm']
      exact hturn.of_disconnected hphase
    · exact ho.closed_occur env _ hclosed

/-- What is known of those who close the storage at some moment. -/
structure Closing (env : Shared World Writer) (m : Machine World Writer) (os : List Occurrence) :
    Prop where
  /-- One of them has taken the client outside of the pool, if it is taken, and is to end with the
  verdict. -/
  taken : (m.after env os).direct = none → ∃ id v task, m.TearsDown env os id v ∧
    m.Asked env os id .close ∧ (m.after env os).task? id = some task ∧
    task.phase.Concludes (v.map fun () => .unit)
  stands : ∀ id task, m.Asked env os id .close → (m.after env os).task? id = some task →
    task.phase = .start .close ∨ Parted env m os id task.phase

theorem Phase.Concludes.pauses {result : Except StoreError Outcome}
    (h : phase.Concludes result) : phase.pauses = false := by
  cases phase with
  | disconnected _ | closing _ _ | ended _ => rfl
  | _ => cases h

theorem Closing.concat_taken (h : Closing env m os) (ho : Orderly m) (hm : ∀ id, m.task? id = none)
    (hops : Machine.Operates (os ++ [x]))
    (hcancel : ∀ id task, x = .event (.cancel id) → (m.after env os).task? id = some task →
      task.phase.pauses = true)
    (hnone : (m.after env (os ++ [x])).direct = none) :
    ∃ id v task, m.TearsDown env (os ++ [x]) id v ∧ m.Asked env (os ++ [x]) id .close ∧
      (m.after env (os ++ [x])).task? id = some task ∧
      task.phase.Concludes (v.map fun () => .unit) := by
  have hops' := hops.of_prefix (List.prefix_append os [x])
  have hmore : os <+: os ++ [x] := List.prefix_append os [x]
  have hlast := m.after_concat env os x
  have hnone' := hnone
  rw [hlast] at hnone ⊢
  cases (ho.after hops').occurs env x with
  | besides hdirect hkept _ =>
    obtain ⟨id, v, task, htears, hasked, htask, hc⟩ := h.taken (by rw [← hdirect, hnone])
    refine ⟨id, v, task, htears.of_prefix hmore, hasked.of_prefix hmore, ?_, hc⟩
    refine hkept id task htask fun hx => ?_
    -- who is at it does not wait, so it is not cancelled
    have hpauses := hcancel id task hx htask
    rw [hc.pauses] at hpauses
    cases hpauses
  | @turn id task n hx htask hturn hm' =>
    have hself := Machine.task?_of_follow hm' htask
    rw [Machine.direct_of_follow hm'] at hnone
    rcases hturn.direct with hsame | ⟨hphase, c, hdirect⟩
    · -- it was taken before
      obtain ⟨id', v, task', htears, hasked, htask', hc⟩ := h.taken (by rw [← hsame, hnone])
      refine ⟨id', v, ?_⟩
      by_cases hid : id' = id
      · subst hid
        rw [htask] at htask'
        cases htask'
        exact ⟨n.task, htears.of_prefix hmore, hasked.of_prefix hmore, hself, hturn.concludes hc⟩
      · refine ⟨task', htears.of_prefix hmore, hasked.of_prefix hmore, ?_, hc⟩
        rw [Machine.task?_congr hm']
        exact Machine.task?_follow_of_ne hid htask' n
    · -- it is taken now, by a task that was asked to close the storage
      obtain ⟨-, ⟨c', hc', hphase'⟩ | ⟨hdirect', -⟩⟩ := hturn.of_close hphase
      · have hasked : m.Asked env os id .close := by
          rcases ho.exists_asked hm hops' htask with ⟨r, hasked⟩ | hlate
          · have hserves := ho.serves_of_asked hops' hasked htask
            rw [hphase] at hserves
            cases hserves
            exact hasked
          · rw [hphase] at hlate
            cases hlate
        subst hx
        exact ⟨id, _, n.task, ⟨os, c', List.prefix_rfl, hc', hnone', rfl⟩, hasked.of_prefix hmore,
          hself, hphase' ▸ rfl⟩
      · rw [hdirect] at hdirect'
        cases hdirect'

theorem Closing.concat_stands (h : Closing env m os) (ho : Orderly m)
    (hops : Machine.Operates (os ++ [x])) (hasked : m.Asked env (os ++ [x]) id .close)
    (htask : (m.after env (os ++ [x])).task? id = some task) :
    task.phase = .start .close ∨ Parted env m (os ++ [x]) id task.phase := by
  have hops' := hops.of_prefix (List.prefix_append os [x])
  have ho' : Orderly (m.after env os) := ho.after hops'
  have hsame : ∀ {task}, m.Asked env os id .close → (m.after env os).task? id = some task →
      task.phase = .start .close ∨ Parted env m (os ++ [x]) id task.phase :=
    fun hold htask => (h.stands id _ hold htask).imp_right fun hparted => hparted.concat ho' x
  rw [Machine.after_concat] at htask
  rcases Machine.asked_concat.1 hasked with hold | ⟨rfl, rfl⟩
  · have hlt := ho.lt_of_asked hops' hold
    cases ho'.occurs env x with
    | besides _ _ htasks =>
      rcases htasks id task htask with htask | ⟨hnew, -⟩
      · exact hsame hold htask
      · exact absurd hlt (hnew ▸ Nat.lt_irrefl _)
    | @turn id' task' n hx htask' hturn hm' =>
      rw [Machine.task?_congr hm'] at htask
      rcases Machine.of_task?_follow htask with ⟨rfl, rfl⟩ | ⟨-, htask⟩ | ⟨-, hnew, -⟩
      · subst hx
        exact Or.inr (.turn ho' hturn hm' (h.stands id task' hold htask'))
      · exact hsame hold htask
      · exact absurd hlt (hnew ▸ Nat.lt_irrefl _)
  · -- it is asked for now
    have hnew : ((m.after env os).occur env (.event (.request .close))).task?
        (m.after env os).nextTask = _ := ho'.task?_request .close
    rw [hnew] at htask
    cases htask
    exact Or.inl rfl

/-- What concludes with a result has returned it if it has returned. -/
theorem Task.eq_of_concludes {result : Except StoreError Unit}
    (hc : task.phase.Concludes (v.map fun () => .unit)) (h : task.returned? = some result) :
    result = v := by
  unfold Task.returned? at h
  generalize task.phase = phase at hc h
  cases phase with
  | ended r =>
    cases hc
    cases v with
    | ok _ => exact (Option.some.inj h).symm
    | error e => exact (Option.some.inj h).symm
  | disconnected _ | closing _ _ => cases h
  | _ => cases hc

/-- What a task that closes the storage has returned is the verdict if it has taken the client
outside of the pool, and success otherwise. -/
theorem Closing.of_returned (h : Closing env m os) (ho : Orderly m) (hops : Machine.Operates os)
    {result : Except StoreError Unit} (hasked : m.Asked env os id .close)
    (htask : (m.after env os).task? id = some task) (hreturned : task.returned? = some result) :
    (m.after env os).direct = none ∧ (m.after env os).pool.closed = true ∧
      ∃ taker verdict, m.Asked env os taker .close ∧ m.TearsDown env os taker verdict ∧
        result = if id = taker then verdict else .ok () := by
  rcases h.stands id task hasked htask with hphase | hparted
  · rw [Task.returned?, hphase] at hreturned
    cases hreturned
  obtain ⟨taker, verdict, task', htears, htaker, htask', hc⟩ := h.taken hparted.direct
  refine ⟨hparted.direct, ?_, taker, verdict, htaker, htears, ?_⟩
  · rcases hparted.closed with ⟨r, hphase⟩ | hclosed
    · rw [Task.returned?, hphase] at hreturned
      cases hreturned
    · exact hclosed
  · by_cases hid : id = taker
    · subst hid
      rw [htask] at htask'
      cases htask'
      rw [if_pos rfl]
      exact Task.eq_of_concludes hc hreturned
    · rw [if_neg hid]
      rcases hparted.result with ⟨v, hv⟩ | hok
      · exact absurd (ho.tearsDown_unique hops hv htears).1 hid
      · exact Task.eq_of_concludes (v := .ok ()) hok hreturned

end Closing

/-! ## The end of a storage -/

section Store

variable {m : Machine (Recorded Memory) (Client × Memory.Writer)} {os : List Occurrence}
  {kind : String} {config : Config} {w : Memory} {setup : Setup}

theorem Balanced.closing (h : Balanced w m.pool m) (hm : ∀ id, m.task? id = none)
    (hdirect : m.direct = some directClient) (hops : Machine.Operates os)
    (hcancels : m.CancelsWaiting (.recorded setup) os) : Closing (.recorded setup) m os := by
  induction os using List.reverseRecOn with
  | nil =>
    constructor
    · intro hnone
      rw [Machine.after_nil, hdirect] at hnone
      cases hnone
    · intro id task _ htask
      rw [Machine.after_nil, hm id] at htask
      cases htask
  | append_singleton os x ih =>
    have hmore := List.prefix_append os [x]
    have hclosing := ih (hops.of_prefix hmore) (hcancels.of_prefix hmore)
    have hbalanced := h.after (hops.of_prefix hmore) (hcancels.of_prefix hmore)
    constructor
    · exact hclosing.concat_taken h.orderly hm hops fun id task hx htask =>
        (hbalanced.prompt id task htask).pauses (hcancels.last hx htask)
    · exact fun id task hasked htask => hclosing.concat_stands h.orderly hops hasked htask

/-- **No client outlives a closed storage.** Operations of any kind go on over a store in memory, in
any order of their steps; whoever waits may be cancelled, and calls may be ordered to fail, those
that create and destroy clients included. The client outside of the pool is destroyed at most once.
As soon as a request to close the storage has returned:

- the pool is closed, and the client outside of the pool was destroyed;
- one such request, and no other task, has taken that client to destroy it, and the result is the
  verdict of that if it is the one that has returned, and success if it is another one;
- when all tasks are over, those in the background included, the one that has taken the client has
  returned the verdict, no client is shown, and every client was destroyed, once: the store has
  counted as many since the beginning as it has created. -/
theorem close_leaves_no_client
    (hconnect : connect kind (recorded Memory.backend) config ⟨w, []⟩ = .ok m)
    (hops : Machine.Operates os)
    (hcancels : m.CancelsWaiting (.recorded (.ofConfig kind config)) os) :
    let env := Shared.recorded (.ofConfig kind config)
    let last := m.after env os
    last.world.calls.count (.destroy directClient) ≤ 1 ∧
    ∀ id result, m.Asked env os id .close → m.HasReturned env os id result →
      last.pool.closed = true ∧ last.world.calls.count (.destroy directClient) = 1 ∧
      ∃ taker verdict, m.Asked env os taker .close ∧ m.TearsDown env os taker verdict ∧
        (∀ id' verdict', m.TearsDown env os id' verdict' → id' = taker) ∧
        (result = if id = taker then verdict else .ok ()) ∧
        ((∀ id', last.Over id') →
          m.HasReturned env os taker verdict ∧ last.pool.live = 0 ∧
          (∀ c, directClient ≤ c → c < last.pool.nextClient →
            last.world.calls.count (.destroy c) = 1) ∧
          last.world.world.destroyed + w.created = last.world.world.created + w.destroyed) := by
  intro env last
  have hbegin := Balanced.of_connect hconnect
  have ho := hbegin.orderly
  have hm := task?_of_connect hconnect
  have hdirect := direct_of_connect hconnect
  obtain ⟨-, hnew, -⟩ := connect_eq_ok hconnect
  have hbalanced : Balanced w m.pool last := hbegin.after hops hcancels
  have hcount : last.world.calls.count (.destroy directClient) +
      last.direct.toList.count directClient = 1 := by
    obtain ⟨made, cs, hbooks⟩ := hbalanced.books
    exact hbooks.count_direct hnew
  refine ⟨by omega, ?_⟩
  rintro id result hasked ⟨first, hfirst, task, htask, hreturned⟩
  have hops' := hops.of_prefix hfirst
  have hasked' := ho.asked_of_task? hops hasked hfirst htask
  obtain ⟨hnone, hclosed, taker, verdict, htaker, htears, hresult⟩ :=
    (hbegin.closing hm hdirect hops' (hcancels.of_prefix hfirst)).of_returned ho hops' hasked' htask
      hreturned
  -- what was so then is so now
  have hnone' : last.direct = none :=
    ho.persists hops (fun _ x ho h => ho.direct_occur env x h) hfirst hnone
  have hclosed' : last.pool.closed = true :=
    ho.persists (P := fun m => m.pool.closed = true) hops
      (fun _ x ho h => ho.closed_occur env x h) hfirst hclosed
  have htears' : m.TearsDown env os taker verdict := htears.of_prefix hfirst
  rw [hnone'] at hcount
  refine ⟨hclosed', hcount, taker, verdict, htaker.of_prefix hfirst, htears',
    fun id' verdict' h => (ho.tearsDown_unique hops h htears').1, hresult, fun hover => ?_⟩
  refine ⟨?_, hbalanced.settled hnew hnone' hclosed' hover⟩
  -- the one that has taken the client is over too
  obtain ⟨taker', verdict', task', htears'', -, htask', hc⟩ :=
    (hbegin.closing hm hdirect hops hcancels).taken hnone'
  obtain ⟨rfl, rfl⟩ := ho.tearsDown_unique hops htears'' htears'
  obtain ⟨result', hreturned'⟩ := Option.isSome_iff_exists.1 (hover _ task' htask')
  obtain rfl := Task.eq_of_concludes hc hreturned'
  exact ⟨os, List.prefix_rfl, task', htask', hreturned'⟩

/-- Of two requests to close a storage, the later one takes the client outside of the pool, whose
destruction is ordered to fail; an upload is cancelled after both have returned. -/
theorem close_leaves_no_client_of_failure :
    ∃ (config : Config) (m : Machine (Recorded Memory) (Client × Memory.Writer))
      (os : List Occurrence) (e : StoreError),
      connect "memory" (recorded Memory.backend) config ⟨.new 1, []⟩ = .ok m ∧
      .deed (.failNext .destroy 1) ∈ os ∧ .event (.cancel 0) ∈ os ∧
      let env := Shared.recorded (.ofConfig "memory" config)
      let last := m.after env os
      Machine.Operates os ∧ m.CancelsWaiting env os ∧ m.TearsDown env os 2 (.error e) ∧
        last.pool.closed = true ∧ last.pool.live = 0 ∧
          last.world.world.destroyed = last.world.world.created := by
  obtain ⟨config, hconfig⟩ : ∃ config : Config,
      config = { Config.standard with bucket := "b", poolSize := 2 } := ⟨_, rfl⟩
  have hstandard : { Config.standard with bucket := "b" }.validate = .ok () :=
    Config.validate_standard (by decide)
  have hvalid : config.validate = .ok () := by
    rw [hconfig]
    exact Config.validate_resize hstandard (show (2 : Nat) ≠ 0 by decide) _
  obtain ⟨m, hconnect⟩ : ∃ m, connect "memory" (recorded Memory.backend) config ⟨.new 1, []⟩ =
      .ok m := exists_connect "memory" hvalid rfl
  obtain ⟨asked, hasked⟩ : ∃ asked : List Occurrence, asked =
    .event (.request (.put "a" [.data ⟨#[1]⟩, .pause 5])) :: List.replicate 8 (.event (.step 0)) ++
      [.deed (.failNext .destroy 1), .event (.request .close)] := ⟨_, rfl⟩
  obtain ⟨closing, hclosing⟩ : ∃ closing : List Occurrence, closing =
    .event (.step 2) :: List.replicate 3 (.event (.step 1)) ++ [.event (.step 2)] := ⟨_, rfl⟩
  obtain ⟨begun, hbegun⟩ : ∃ begun, begun = asked ++ [.event (.request .close)] ++ closing :=
    ⟨_, rfl⟩
  obtain ⟨settled, hsettled⟩ : ∃ settled : List Occurrence, settled =
    List.replicate 2 (.event (.step 3)) := ⟨_, rfl⟩
  obtain ⟨os, hos⟩ : ∃ os, os = begun ++ [.event (.cancel 0)] ++ settled := ⟨_, rfl⟩
  have hrun : (m.after (.recorded (.ofConfig "memory" config)) asked).nextTask = 2 ∧
      ((m.after (.recorded (.ofConfig "memory" config)) begun).task? 0).all (·.isSuspended) ∧
      (((m.after (.recorded (.ofConfig "memory" config)) begun).task? 2).bind (·.returned?)).any
        (·.toOption.isNone) ∧
      (m.after (.recorded (.ofConfig "memory" config)) os).tasks.all (·.2.returned?.isSome) := by
    -- the state is written out, for the run to be evaluated
    subst hconfig hos hbegun hasked hclosing hsettled
    unfold connect at hconnect
    rw [hvalid] at hconnect
    cases hconnect
    decide +kernel
  obtain ⟨hnext, hwaits, hfails, hall⟩ := hrun
  have hops : Machine.Operates os := by
    intro r hr
    simp [hos, hbegun, hasked, hclosing, hsettled] at hr
    rcases hr with rfl | rfl
    · rfl
    · rfl
  have hcancels : m.CancelsWaiting (.recorded (.ofConfig "memory" config)) os := by
    rw [hos]
    refine .append (.concat (.append (Machine.cancelsWaiting_nil _ _) ?_) ?_) ?_
    · simp [hbegun, hasked, hclosing]
    · intro task htask
      have htask' : (m.after (.recorded (.ofConfig "memory" config)) begun).task? 0 = some task :=
        htask
      rw [htask'] at hwaits
      exact hwaits
    · simp [hsettled]
  have hclose : m.Asked (.recorded (.ofConfig "memory" config)) os 2 .close := by
    refine ⟨asked, ?_, hnext⟩
    rw [hos, hbegun, List.append_assoc, List.append_assoc _ closing]
    exact List.prefix_append _ _
  obtain ⟨e, hreturned⟩ :
      ∃ e, m.HasReturned (.recorded (.ofConfig "memory" config)) os 2 (.error e) := by
    obtain ⟨result, hresult, hnone⟩ := (Option.any_eq_true _ _).1 hfails
    obtain ⟨task, htask, hreturned⟩ := Option.bind_eq_some_iff.1 hresult
    have hbefore : begun <+: os := by
      rw [hos, List.append_assoc]
      exact List.prefix_append _ _
    cases result with
    | ok _ => cases hnone
    | error e => exact ⟨e, begun, hbefore, task, htask, hreturned⟩
  obtain ⟨hclosed, -, taker, verdict, -, htears, -, hresult, hsettles⟩ :=
    (close_leaves_no_client hconnect hops hcancels).2 2 _ hclose hreturned
  obtain ⟨-, hlive, -, hcounts⟩ := hsettles fun id task htask =>
    List.all_eq_true.1 hall _ (Machine.mem_of_task? htask)
  -- who has returned an error has taken the client
  by_cases hid : 2 = taker
  · subst hid
    rw [if_pos rfl] at hresult
    subst hresult
    exact ⟨config, m, os, e, hconnect, by simp [hos, hbegun, hasked], by simp [hos], hops, hcancels,
      htears, hclosed, hlive, hcounts⟩
  · rw [if_neg hid] at hresult
    cases hresult

end Store

end Depot.Storage
