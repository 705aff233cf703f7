import Depot.Proofs.Storage.Effects
import Depot.Proofs.Storage.Gathering
import Depot.Proofs.Storage.Shared
import Depot.Proofs.Stream

/-!
# Where objects come from

An upload keeps what its source yields to itself until it completes the object, in one call
(`Turn.carries`), and a reader takes a copy of what is stored when it opens the object
(`Turn.reads`). So what is stored anywhere is what some task has stored there as a whole, which has
succeeded, and what is read is what was stored at one moment. The main statement is
`uploads_atomic_reads_snapshots`.
-/

set_option autoImplicit false

namespace Depot.Storage

open Machine (Operates CancelsWaiting)
open Memory (Location StoredObject)

variable {setup : Setup} {r : Request} {path : String} {source : Stream} {c : Client}

/-! ## Requests -/

/-- Only a request to copy has a goal to copy. -/
theorem Request.Wants.exists_copy {sourceBucket sourceKey key : String}
    (h : r.Wants setup (.copy sourceBucket sourceKey key)) :
    ∃ path, r = .copy sourceBucket sourceKey path ∧ setup.roots.diskKey path = .ok key := by
  cases r with
  | copy sourceBucket' sourceKey' path =>
    simp only [Wants, goal, Option.some.injEq] at h
    cases hkey : setup.roots.diskKey path with
    | error e =>
      rw [hkey] at h
      cases h
    | ok key' =>
      rw [hkey] at h
      cases h
      exact ⟨path, rfl, hkey⟩
  | deleteDisk path =>
    simp only [Wants, goal, Option.some.injEq] at h
    cases hkey : setup.roots.diskKey path <;> simp [hkey, Except.map] at h
  | _ => cases h

/-! ## Data on its way -/

/-- Where an upload of a source has its data: what was written and what is still to come are all
that the source yields. -/
def Phase.Carries (source : Stream) : Phase Memory.Writer → Prop
  | accepted _ source' reply => source' = source ∧ ∀ w, reply = .ok w → w.buffer = .empty
  | uploading u => u.total = source.content
  | wrote u reply => reply = .ok u.buffer.size ∧ { u with buffer := .empty }.total = source.content
  | flushed u reply => reply = .ok () ∧ source.content = .ok u.writer.buffer
  | _ => True

/-- Where a task that reads an object has the data of the object, which was like this when it was
opened. -/
def Phase.Reads (opened : StoredObject → Prop) : Phase Memory.Writer → Prop
  | .opened (.ok s) => ∃ o, opened o ∧ s.content = .ok o.data
  | draining rest data => ∃ o more, opened o ∧ rest.content = .ok more ∧ o.data = data ++ more
  | invalidated _ result => ∃ e, result = .error e
  | ended (.ok outcome) => ∃ o, opened o ∧ outcome = .data o.data
  | _ => True

/-- In memory, the data of an upload is where it is in any store whose writers gather it. -/
theorem Phase.carries_iff (source : Stream) (phase : Phase Memory.Writer) :
    phase.Carries source ↔ phase.Brings Memory.Writer.buffer source := by
  cases phase <;> exact Iff.rfl

/-- The writers of a store in memory gather what they take. -/
theorem gathers_memory (setup : Setup) : Gathers (storing setup) Memory.Writer.buffer where
  opened := by
    intro c key world writer h
    rw [Memory.eq_of_openWriter h]
  wrote _ _ _ := ⟨rfl, rfl⟩
  flushed _ _ := rfl

section Works

variable {w : Memory} {visited : List Entry} {phase : Phase Memory.Writer}
  {k : Work Memory Memory.Writer}

/-- What a request stores as an object, over a store in which it can be copied. -/
inductive Request.Makes (r : Request) (w : Memory) (o : StoredObject) : Prop where
  | put {path : String} {source : Stream} : r = .put path source → source.content = .ok o.data →
      Makes r w o
  | copy {sourceBucket sourceKey path : String} {o' : StoredObject} :
      r = .copy sourceBucket sourceKey path →
      w.objects.get? ⟨sourceBucket, sourceKey⟩ = some o' → o.data = o'.data → Makes r w o

/-- **Objects are stored as a whole.** What is stored after a call was stored before, or is what the
request makes. -/
theorem Works.makes (h : Works (storing setup) c w visited phase k) (hs : phase.Serves setup r)
    (hc : ∀ path source, r = .put path source → phase.Carries source) {l : Location}
    {o : StoredObject} (ho : k.world.objects.get? l = some o) :
    w.objects.get? l = some o ∨ r.Makes w o := by
  have hsame : ∀ {objects : Memory.Objects}, objects = w.objects → objects.get? l = some o →
      w.objects.get? l = some o := fun h ho => h ▸ ho
  cases h with
  | openReader ha | look ha | measure ha =>
    subst ha
    exact Or.inl (hsame (Memory.call_objects _ (Memory.look_fst _ _) c _ w) ho)
  | openWriter ha =>
    subst ha
    exact Or.inl (hsame (Memory.call_objects (fun m => (m, .ok _)) (fun _ => rfl) c _ w) ho)
  | ask _ ha =>
    subst ha
    exact Or.inl (hsame (Memory.call_objects _ (fun _ => rfl) c _ w) ho)
  | flush _ ha =>
    subst ha
    exact Or.inl ho
  | write _ ha =>
    cases ha
    exact Or.inl ho
  | @delete key a ha =>
    subst ha
    obtain ⟨m', hobjects, ⟨e, he⟩ | he⟩ :=
      Memory.call_cases c .delete (Memory.delete ⟨setup.bucket, key⟩) w
    · rw [show (storing setup).backend.delete c setup.bucket key w = _ from he] at ho
      exact Or.inl (hsame hobjects ho)
    · -- what is still there was there before
      rw [show (storing setup).backend.delete c setup.bucket key w = _ from he] at ho
      refine Or.inl (hsame hobjects ?_)
      unfold Memory.delete at ho
      split at ho
      · have herase := (Memory.Objects.get?_erase m'.objects ⟨setup.bucket, key⟩ l).symm.trans ho
        split at herase
        · cases herase
        · exact herase
      · exact ho
  | @finish u writer a ha =>
    obtain ⟨m', hobjects, ⟨e, he⟩ | he⟩ := Memory.finish_cases u.writer w
    · rw [show Memory.finish u.writer w = (writer, a) from ha] at he
      cases he
      exact Or.inl (hsame hobjects ho)
    · rw [show Memory.finish u.writer w = (writer, a) from ha] at he
      cases he
      have hinsert := (Memory.Objects.get?_insert m'.objects _ l _).symm.trans ho
      split at hinsert
      · -- the object is what the writer has gathered, which is all that the source yields
        cases hinsert
        obtain ⟨source, hwants⟩ := hs
        obtain ⟨path, rfl, -⟩ := hwants.exists_put
        exact Or.inr (.put rfl (hc path source rfl).2)
      · exact Or.inl (hsame hobjects hinsert)
  | @copy sourceBucket sourceKey key at' a ha =>
    subst ha
    obtain ⟨m', hobjects, ⟨e, he⟩ | he⟩ := Memory.call_cases c .copy
      (Memory.copy ⟨sourceBucket, sourceKey⟩ ⟨setup.bucket, key⟩) w
    · rw [show (storing setup).backend.copy c sourceBucket sourceKey setup.bucket key w = _ from he]
        at ho
      exact Or.inl (hsame hobjects ho)
    · rw [show (storing setup).backend.copy c sourceBucket sourceKey setup.bucket key w = _ from he]
        at ho
      simp only [Memory.copy, hobjects] at ho
      cases hsource : w.objects.get? ⟨sourceBucket, sourceKey⟩ with
      | none =>
        rw [hsource] at ho
        exact Or.inl (hsame hobjects ho)
      | some o' =>
        rw [hsource] at ho
        have hinsert := (Memory.Objects.get?_insert w.objects _ l _).symm.trans ho
        split at hinsert
        · -- the object has the data of the other one at this moment
          cases hinsert
          obtain ⟨path, rfl, -⟩ := Request.Wants.exists_copy hs
          exact Or.inr (.copy rfl hsource rfl)
        · exact Or.inl hinsert
  | _ => exact Or.inl ho

end Works

/-! ## Steps of a task -/

section Turn

variable {m : Machine Memory Memory.Writer} {task : Task Memory.Writer}
  {n : Next Memory Memory.Writer} {opened : StoredObject → Prop}

theorem Turn.carries (h : Turn (storing setup) m task n)
    (hs : task.phase.Serves setup (.put path source)) (hc : task.phase.Carries source) :
    n.task.phase.Carries source := by
  rw [Phase.carries_iff] at hc ⊢
  exact h.brings (gathers_memory setup) hs hc

/-- What a task makes of its work has its request stored, if anything new is stored. -/
theorem Turn.makes (h : Turn (storing setup) m task n) (hs : task.phase.Serves setup r)
    (hc : ∀ path source, r = .put path source → task.phase.Carries source) {l : Location}
    {o : StoredObject} (ho : n.world.objects.get? l = some o) :
    m.world.objects.get? l = some o ∨ r.Makes m.world o := by
  by_cases hstage : task.phase.stage = .holding
  · obtain ⟨t, c, k, -, -, -, hw, hn⟩ := h.of_holding hstage
    refine hw.makes hs hc ?_
    cases hn with
    | destroy _ ha _ =>
      subst ha
      exact (congrArg (·.get? l) (Memory.destroy_objects _)).symm.trans ho
    | _ => exact ho
  · rw [h.objects_of_stage hstage] at ho
    exact Or.inl ho

/-- Reading on leaves all that was to be read. -/
theorem Drains.reads {rest : Stream} {data : ByteArray} {phase : Phase Memory.Writer} {delay : Nat}
    (h : Drains rest data phase delay)
    (hr : (Phase.draining rest data : Phase Memory.Writer).Reads opened) : phase.Reads opened := by
  obtain ⟨o, more, ho, hcontent, hdata⟩ := hr
  rw [Stream.content_eq copyBufferSize rest] at hcontent
  cases h with
  | @read bytes rest' hpull =>
    rw [hpull] at hcontent
    cases hmore : rest'.content with
    | error e =>
      simp only [hmore] at hcontent
      cases hcontent
    | ok more' =>
      simp only [hmore] at hcontent
      cases hcontent
      exact ⟨o, more', ho, hmore, by rw [hdata, ByteArray.append_assoc]⟩
  | pause hpull =>
    rw [hpull] at hcontent
    exact ⟨o, more, ho, hcontent, hdata⟩
  | broken hpull =>
    -- what was opened has a content, so it does not break off
    rw [hpull] at hcontent
    cases hcontent
  | finished hpull =>
    rw [hpull] at hcontent
    cases hcontent
    rw [ByteArray.append_empty] at hdata
    exact ⟨o, ho, congrArg Outcome.data hdata.symm⟩

/-- A reader that is opened has what is stored. -/
theorem Works.reads {w : Memory} {visited : List Entry} {phase phase' : Phase Memory.Writer}
    {world : Memory} {delay : Nat} {visited' : List Entry}
    (h : Works (storing setup) c w visited phase (.keep phase' world delay visited'))
    (hs : phase.Serves setup (.read path))
    (hopen : phase = .lent (.read (setup.roots.primaryKey path)) → ∀ o s,
      w.objects.get? ⟨setup.bucket, setup.roots.primaryKey path⟩ = some o →
      phase' = .opened (.ok s) → opened o) : phase'.Reads opened := by
  cases h with
  | @openReader key a ha =>
    cases hs
    subst ha
    obtain ⟨m', hobjects, ⟨e, he⟩ | he⟩ := Memory.call_cases c .read
      (Memory.look ⟨setup.bucket, setup.roots.primaryKey path⟩ fun o => Stream.ofBytes o.data) w
    · rw [show ((storing setup).backend.openReader c setup.bucket _ w).result = _ from
        congrArg Answer.result he]
      trivial
    · have hresult : ((storing setup).backend.openReader c setup.bucket
          (setup.roots.primaryKey path) w).result = _ := congrArg Answer.result he
      -- the reader has all the data of the object from now on
      rw [hresult] at hopen ⊢
      simp only [Memory.look, hobjects] at hopen ⊢
      cases hget : w.objects.get? ⟨setup.bucket, setup.roots.primaryKey path⟩ with
      | none => trivial
      | some o =>
        rw [hget] at hopen
        exact ⟨o, hopen trivial o _ rfl rfl, Stream.content_ofBytes o.data⟩
  | _ => trivial

/-- **A reader keeps what was stored.** From the step on with which it is opened, what was read and
what is still to be read are the data of the object as it was then. -/
theorem Turn.reads (h : Turn (storing setup) m task n) (hs : task.phase.Serves setup (.read path))
    (hr : task.phase.Reads opened)
    (hopen : task.phase = .lent (.read (setup.roots.primaryKey path)) → ∀ o s,
      m.world.objects.get? ⟨setup.bucket, setup.roots.primaryKey path⟩ = some o →
      n.task.phase = .opened (.ok s) → opened o) : n.task.phase.Reads opened := by
  cases h with
  | acquire _ hn => cases hn <;> trivial
  | work _ _ _ hw hn =>
    cases hn with
    | keep _ => exact hw.reads hs hopen
    | giveBack _ _ | giveLate _ _ =>
      generalize task.phase = phase at hw hs hr
      cases hw with
      | opened =>
        obtain ⟨o, ho, hcontent⟩ := hr
        exact ⟨o, o.data, ho, hcontent, ByteArray.empty_append.symm⟩
      | missing _ => trivial
      | walked _ | completed | found =>
        -- a request to read has no other goal
        obtain ⟨_, hwants⟩ := hs
        cases hwants
      | deleted | copied => cases hs
    | destroy _ _ _ => exact ⟨_, rfl⟩
  | invalidated hphase _ =>
    rw [hphase] at hr
    obtain ⟨e, rfl⟩ := hr
    trivial
  | drain hphase hdrains _ =>
    rw [hphase] at hr
    exact hdrains.reads hr
  | shut hshuts _ =>
    generalize task.phase = phase at hshuts hs
    cases hshuts <;> cases hs
  | closeLast hphase _ _ =>
    rw [hphase] at hs
    rcases hs with hs | hs
    · cases hs
    · cases hs
  | destroyed hphase _ =>
    rw [hphase] at hs
    exact hs.elim
  | _ => trivial

/-- A task has returned with success, or has completed what it was to change, and goes on without
waiting. -/
def Task.Succeeded {Writer : Type} (task : Task Writer) : Prop :=
  (task.phase.isDone = true ∨ ∃ outcome, task.phase = .ended (.ok outcome)) ∧ task.alarm = none

theorem Task.Succeeded.isSuspended {Writer : Type} {task : Task Writer} (h : task.Succeeded) :
    task.isSuspended = false := by
  obtain ⟨hphase, halarm⟩ := h
  unfold Task.isSuspended
  split
  · rename_i heq
    rw [heq] at hphase
    simp [Phase.isDone] at hphase
  · rename_i heq
    rw [heq] at hphase
    simp [Phase.isDone] at hphase
  · rw [halarm]
    rfl

/-- Who has completed its change returns with its next step. -/
theorem Turn.ended_of_isDone {World Writer : Type} {env : Env World Writer}
    {m : Machine World Writer} {task : Task Writer} {n : Next World Writer} (h : Turn env m task n)
    (hd : task.phase.isDone = true) :
    ∃ outcome, n.task.phase = .ended (.ok outcome) ∧ n.task.alarm = none := by
  obtain ⟨t, c, k, -, -, -, hw, hn⟩ := h.of_holding (Phase.stage_of_isDone hd)
  obtain ⟨outcome, world, rfl⟩ := hw.of_isDone hd
  cases hn with
  | giveBack _ _ | giveLate _ _ => exact ⟨outcome, rfl, rfl⟩

theorem Turn.succeeded {World Writer : Type} {env : Env World Writer} {m : Machine World Writer}
    {task : Task Writer} {n : Next World Writer} (h : Turn env m task n) (hs : task.Succeeded) :
    n.task.Succeeded := by
  obtain ⟨hdone | ⟨outcome, hended⟩, -⟩ := hs
  · obtain ⟨outcome, hphase, halarm⟩ := h.ended_of_isDone hdone
    exact ⟨Or.inr ⟨outcome, hphase⟩, halarm⟩
  · exact absurd hended (h.phase_ne_ended _)

end Turn

/-! ## Runs -/

section Run

variable {m : Machine Memory Memory.Writer} {task : Task Memory.Writer} {id : TaskId}
  {os : List Occurrence} {x : Occurrence} {l : Location} {o : StoredObject}

/-- Who has succeeded stays so. -/
theorem Orderly.succeeded_occur {World Writer : Type} {env : Shared World Writer}
    {m : Machine World Writer} {task : Task Writer} (ho : Orderly m)
    (htask : m.task? id = some task) (hs : task.Succeeded)
    (hcancel : x = .event (.cancel id) → task.isSuspended = true) :
    ∃ task', (m.occur env x).task? id = some task' ∧ task'.Succeeded := by
  cases x with
  | deed d => exact ⟨task, htask, hs⟩
  | event e =>
    have hh := ho.happens env.toEnv e
    have hne : e ≠ .cancel id := by
      rintro rfl
      have hwaits := hcancel rfl
      rw [hs.isSuspended] at hwaits
      cases hwaits
    by_cases hstep : e = .step id
    · subst hstep
      show ∃ task', (m.happen env.toEnv (.step id)).task? id = some task' ∧ _
      generalize m.happen env.toEnv (.step id) = m' at hh
      cases hh with
      | still _ => exact ⟨task, htask, hs⟩
      | turn htask' hturn hm' =>
        rw [htask] at htask'
        cases htask'
        exact ⟨_, Machine.task?_of_follow hm' htask, hturn.succeeded hs⟩
    · exact ⟨task, (ho.untouched hh htask hstep hne).1, hs⟩

/-- Who has succeeded has returned, or returns with its next step. -/
theorem Orderly.succeeds {World Writer : Type} {m : Machine World Writer} {task : Task Writer}
    (ho : Orderly m) (env : Env World Writer) (htask : m.task? id = some task)
    (hs : task.Succeeded) : m.Succeeds env id := by
  refine ⟨task, htask, ?_⟩
  have hs' := hs
  obtain ⟨hdone | ⟨outcome, hended⟩, halarm⟩ := hs'
  · refine Or.inr ⟨hs.isSuspended, ?_⟩
    obtain ⟨n, hturn, hm'⟩ : ∃ n, Turn env m task n ∧
        (m.happen env (.step id)).bare = (m.follow id n).bare := by
      refine ho.exists_turn_of_step env htask ?_ ?_ ?_
      · intro result hphase
        rw [hphase] at hdone
        cases hdone
      · intro g hphase
        rw [hphase] at hdone
        cases hdone
      · intro a ha
        rw [halarm] at ha
        cases ha
    obtain ⟨outcome, hphase, -⟩ := hturn.ended_of_isDone hdone
    refine ⟨n.task, Machine.task?_of_follow hm' htask, ?_⟩
    unfold Task.returned?
    rw [hphase]
    rfl
  · refine Or.inl ?_
    unfold Task.returned?
    rw [hended]
    rfl

/-- What is known of a task since it was asked for: it is about its request, it has the writer that
was opened for it, and it has all the data that it needs. -/
structure Task.Keeps (setup : Setup) (m : Machine Memory Memory.Writer) (os : List Occurrence)
    (id : TaskId) (r : Request) (task : Task Memory.Writer) : Prop where
  serves : task.phase.Serves setup r
  bound : task.Bound (OpenedAt setup)
  carries : ∀ path source, r = .put path source → task.phase.Carries source
  reads : ∀ path, r = .read path → task.phase.Reads fun o =>
    m.Opens (.memory setup) os id ⟨setup.bucket, setup.roots.primaryKey path⟩ o

theorem Machine.Opens.concat {env : Shared Memory Memory.Writer} (h : m.Opens env os id l o)
    (x : Occurrence) : m.Opens env (os ++ [x]) id l o := by
  obtain ⟨before, task, task', s, hbefore, h⟩ := h
  exact ⟨before, task, task', s, hbefore.trans (List.prefix_append _ _), h⟩

theorem Phase.Reads.mono {phase : Phase Memory.Writer} {opened opened' : StoredObject → Prop}
    (h : phase.Reads opened) (hmono : ∀ o, opened o → opened' o) : phase.Reads opened' := by
  unfold Phase.Reads at h ⊢
  split at h
  · obtain ⟨o, ho, h⟩ := h
    exact ⟨o, hmono o ho, h⟩
  · obtain ⟨o, more, ho, h⟩ := h
    exact ⟨o, more, hmono o ho, h⟩
  · exact h
  · obtain ⟨o, ho, h⟩ := h
    exact ⟨o, hmono o ho, h⟩
  · trivial

/-- **Every task keeps to its data**, from its request on. -/
theorem Orderly.keeps (ho : Orderly m) (hops : Operates os) {r : Request}
    (hasked : m.Asked (.memory setup) os id r)
    (htask : (m.after (.memory setup) os).task? id = some task) : task.Keeps setup m os id r := by
  refine ho.forall_asked (P := fun os id r task => task.Keeps setup m os id r) hops ?_ ?_ ?_ hasked
    htask
  · intro os x id r task h
    exact ⟨h.serves, h.bound, h.carries, fun path hr => (h.reads path hr).mono fun o ho =>
      ho.concat x⟩
  · intro os id r _
    exact ⟨rfl, nofun, fun _ _ _ => trivial, fun _ _ => trivial⟩
  · intro os id r task n _ htask hn htask' h
    refine ⟨hn.serves h.serves, hn.bound (binds_memory setup) h.bound, ?_, ?_⟩
    · rintro path source rfl
      exact hn.carries h.serves (h.carries path source rfl)
    · rintro path rfl
      refine hn.reads h.serves ((h.reads path rfl).mono fun o ho => ho.concat _) ?_
      intro hlent o s hget hopened
      exact ⟨os, task, n.task, s, List.prefix_rfl, htask, hlent, hget, htask', hopened⟩

/-- An object that stays where it is keeps its origin. -/
theorem Machine.Origin.concat {env : Shared Memory Memory.Writer} {P : TaskId → Prop}
    (h : m.Origin env os P l o)
    (hstays : (m.after env (os ++ [x])).world.objects.get? l = some o) :
    m.Origin env (os ++ [x]) P l o := by
  have hmore : ∀ first, m.Stays env os first l o → m.Stays env (os ++ [x]) first l o := by
    intro first hfirst part hpart hos
    rcases List.prefix_concat_iff.1 hos with rfl | hos
    · exact hstays
    · exact hfirst part hpart hos
  have hlonger : ∀ part, part <+: os → part <+: os ++ [x] :=
    fun part hpart => hpart.trans (List.prefix_append _ _)
  cases h with
  | initial hst => exact .initial (hmore _ hst)
  | insert hbefore hst hdata => exact .insert (hlonger _ hbefore) (hmore _ hst) hdata
  | put hasked hbefore hst hl hdata hP =>
    exact .put hasked (hlonger _ hbefore) (hmore _ hst) hl hdata hP
  | copy hasked hbefore hst hkey hl hsource hdata hP =>
    exact .copy hasked (hlonger _ hbefore) (hmore _ hst) hkey hl hsource hdata hP

theorem Machine.Origin.imp {env : Shared Memory Memory.Writer} {P Q : TaskId → Prop}
    (h : m.Origin env os P l o) (hPQ : ∀ id, P id → Q id) : m.Origin env os Q l o := by
  cases h with
  | initial hst => exact .initial hst
  | insert hbefore hst hdata => exact .insert hbefore hst hdata
  | put hasked hbefore hst hl hdata hP => exact .put hasked hbefore hst hl hdata (hPQ _ hP)
  | copy hasked hbefore hst hkey hl hsource hdata hP =>
    exact .copy hasked hbefore hst hkey hl hsource hdata (hPQ _ hP)

/-- At the moment when it is stored, an object stays where it is. -/
theorem stays_self {env : Shared Memory Memory.Writer}
    (h : (m.after env os).world.objects.get? l = some o) : m.Stays env os os l o := by
  intro part hpart hos
  obtain rfl := hpart.eq_of_length (Nat.le_antisymm hpart.length_le hos.length_le)
  exact h

/-- An object that a task has stored has its origin in the request of the task. -/
theorem Orderly.origin_of_step (ho : Orderly m) (hm : ∀ id, m.task? id = none)
    (hops : Operates (os ++ [.event (.step id)]))
    (h : (m.after (.memory setup) (os ++ [.event (.step id)])).world.objects.get? l = some o)
    (hnew : (m.after (.memory setup) os).world.objects.get? l ≠ some o) :
    m.Origin (.memory setup) (os ++ [.event (.step id)])
      (fun id' => ∃ task, (m.after (.memory setup) (os ++ [.event (.step id)])).task? id' =
        some task ∧ task.Succeeded) l o := by
  have hops' := hops.of_prefix (List.prefix_append os _)
  have ho' : Orderly (m.after (.memory setup) os) := ho.after hops'
  have h' : ((m.after (.memory setup) os).happen (storing setup) (.step id)).world.objects.get? l =
      some o := by
    rwa [Machine.after_concat] at h
  rcases (ho'.happens (storing setup) (.step id)).objects with
    hsame | ⟨_, task, n, hid, htask, hstage, hturn, hm'⟩
  · rw [hsame] at h'
    exact absurd h' hnew
  cases hid
  rw [Machine.world_of_follow hm'] at h'
  -- who has a client was asked for
  rcases ho.exists_asked hm hops' htask with ⟨r, hasked⟩ | hlate
  · have hkeeps := ho.keeps hops' hasked htask
    rcases hturn.objects hkeeps.serves hkeeps.bound with
      hsame | ⟨-, hdone, halarm, l', htarget, hframe⟩
    · rw [hsame] at h'
      exact absurd h' hnew
    obtain rfl : l = l' := by
      by_contra hl
      exact hnew ((hframe l hl).symm.trans h')
    have hsucceeded : ∃ task,
        (m.after (.memory setup) (os ++ [.event (.step id)])).task? id = some task ∧
          task.Succeeded := by
      refine ⟨n.task, ?_, Or.inl hdone, halarm⟩
      rw [Machine.after_concat]
      exact Machine.task?_of_follow hm' htask
    rcases hturn.makes hkeeps.serves hkeeps.carries h' with hold | hmakes
    · exact absurd hold hnew
    · cases hmakes with
      | put hr hdata =>
        subst hr
        cases htarget
        exact .put hasked List.prefix_rfl (stays_self h) rfl hdata hsucceeded
      | @copy sourceBucket sourceKey path o' hr hsource hdata =>
        subst hr
        simp only [Request.target] at htarget
        cases hkey : setup.roots.diskKey path with
        | error e =>
          rw [hkey] at htarget
          cases htarget
        | ok key =>
          rw [hkey] at htarget
          cases htarget
          exact .copy hasked List.prefix_rfl (stays_self h) hkey rfl hsource hdata hsucceeded
  · generalize task.phase = phase at hstage hlate
    cases phase <;> simp [Phase.isLate, Phase.stage] at hstage hlate

/-- Every object has an origin, at every moment. -/
theorem Orderly.origin (ho : Orderly m) (hm : ∀ id, m.task? id = none) (hops : Operates os)
    (hcancels : CancelsWaiting (.memory setup) m os)
    (h : (m.after (.memory setup) os).world.objects.get? l = some o) :
    m.Origin (.memory setup) os
      (fun id => ∃ task, (m.after (.memory setup) os).task? id = some task ∧ task.Succeeded) l o := by
  induction os using List.reverseRecOn generalizing l o with
  | nil => exact .initial (stays_self h)
  | append_singleton os x ih =>
    have hops' := hops.of_prefix (List.prefix_append os [x])
    have ho' : Orderly (m.after (.memory setup) os) := ho.after hops'
    by_cases hold : (m.after (.memory setup) os).world.objects.get? l = some o
    · refine ((ih hops' (hcancels.of_prefix (List.prefix_append os [x])) hold).concat h).imp ?_
      rintro id ⟨task, htask, hs⟩
      rw [Machine.after_concat]
      exact ho'.succeeded_occur htask hs fun hx => hcancels.last hx htask
    · -- it was stored last, by somebody from outside or by a task
      cases x with
      | deed d =>
        have h' := h
        rw [Machine.after_concat] at h'
        cases d with
        | failNext call times => exact absurd h' hold
        | clock time => exact absurd h' hold
        | insert l' data =>
          have hinsert := (Memory.Objects.get?_insert _ l' l _).symm.trans h'
          split at hinsert
          · rename_i hl
            subst hl
            cases hinsert
            exact .insert List.prefix_rfl (stays_self h) rfl
          · exact absurd hinsert hold
      | event e =>
        rcases (ho'.happens (storing setup) e).objects with hsame | ⟨id, -, -, rfl, -⟩
        · refine absurd ?_ hold
          rw [Machine.after_concat] at h
          exact (congrArg (·.get? l) hsame).symm.trans h
        · exact ho.origin_of_step hm hops h hold

/-- **Uploads are atomic, and reads are snapshots.** Operations of any kind go on over a store in
memory, in any order of their steps; whoever waits may be cancelled, objects may be stored directly,
and calls may be ordered to fail. At every moment:

- every object that is stored has been stored as a whole, and has stayed where it is since then: it
  was there at the beginning, it was stored directly, it is all that the source of an upload
  yields, which has succeeded, or it has the data of an object at the moment when that was copied,
  by an operation that has succeeded;
- whoever reads an object has read the front of the data that the object had when it was opened, and
  is yet to read what follows it;
- whoever has read an object to its end without an error has read just these data. -/
theorem uploads_atomic_reads_snapshots {kind : String} {config : Config} {w : Memory}
    (hconnect : connect kind Memory.backend config w = .ok m) (hops : Operates os)
    (hcancels : CancelsWaiting (.memory (.ofConfig kind config)) m os) :
    let env := Shared.memory (.ofConfig kind config)
    let last := m.after env os
    (∀ l o, last.world.objects.get? l = some o →
      m.Origin env os (last.Succeeds env.toEnv) l o) ∧
    ∀ id path task, m.Asked env os id (.read path) → last.task? id = some task →
      let l : Location := ⟨config.bucket, config.roots.primaryKey path⟩
      (∀ rest data, task.phase = .draining rest data →
        ∃ o more, m.Opens env os id l o ∧ rest.content = .ok more ∧ o.data = data ++ more) ∧
      ∀ outcome, task.phase = .ended (.ok outcome) →
        ∃ o, m.Opens env os id l o ∧ outcome = .data o.data := by
  intro env last
  have ho := Orderly.of_connect hconnect
  have hm := task?_of_connect hconnect
  refine ⟨fun l o h => ?_, fun id path task hasked htask => ?_⟩
  · refine (ho.origin hm hops hcancels h).imp ?_
    rintro id ⟨task, htask, hs⟩
    exact (ho.after hops).succeeds env.toEnv htask hs
  · have hreads := (ho.keeps hops hasked htask).reads path rfl
    refine ⟨fun rest data hphase => ?_, fun outcome hphase => ?_⟩
    · rw [hphase] at hreads
      exact hreads
    · rw [hphase] at hreads
      exact hreads

/-- The data that a read has come to. -/
def Task.data? (task : Task Memory.Writer) : Option ByteArray :=
  match task.phase with
  | .ended (.ok (.data bytes)) => some bytes
  | _ => none

theorem Task.ended_of_data {task : Task Memory.Writer} {bytes : ByteArray}
    (h : task.data? = some bytes) : task.phase = .ended (.ok (.data bytes)) := by
  unfold Task.data? at h
  split at h
  · next hphase =>
    cases h
    exact hphase
  · cases h

/-- Of two uploads under one key, the one that was asked for first is cancelled in a pause of its
source, after it has written something and the other one has succeeded. What that one has stored is
then read as a whole, although it is replaced after it was opened. -/
theorem uploads_atomic_reads_snapshots_of_cancelled :
    ∃ (config : Config) (m : Machine Memory Memory.Writer) (os reading : List Occurrence)
      (o : StoredObject),
      let env := Shared.memory (.ofConfig "memory" config)
      let l : Location := ⟨"b", "a"⟩
      let last := m.after env (os ++ reading)
      connect "memory" Memory.backend config (.new 1) = .ok m ∧
      .event (.request (.put "a" [.data ⟨#[1]⟩, .pause 5])) ∈ os ∧ .event (.cancel 0) ∈ os ∧
      (m.after env os).world.objects.get? l = some o ∧ o.data = ⟨#[3]⟩ ∧
      m.Origin env os ((m.after env os).Succeeds env.toEnv) l o ∧
      m.Asked env (os ++ reading) 3 (.read "a") ∧
      (last.world.objects.get? l).map (·.data) = some ⟨#[7]⟩ ∧
      ∃ task read, last.task? 3 = some task ∧ task.phase = .ended (.ok (.data read.data)) ∧
        read.data = ⟨#[3]⟩ ∧ m.Opens env (os ++ reading) 3 l read := by
  obtain ⟨config, hconfig⟩ : ∃ config : Config,
      config = { Config.standard with bucket := "b", poolSize := 2 } := ⟨_, rfl⟩
  have hstandard : { Config.standard with bucket := "b" }.validate = .ok () :=
    Config.validate_standard (by decide)
  have hvalid : config.validate = .ok () := by
    rw [hconfig]
    exact Config.validate_resize hstandard (show (2 : Nat) ≠ 0 by decide) _
  obtain ⟨m, hconnect⟩ : ∃ m, connect "memory" Memory.backend config (.new 1) = .ok m :=
    exists_connect "memory" hvalid rfl
  obtain ⟨begun, hbegun⟩ : ∃ begun : List Occurrence, begun =
    .event (.request (.put "a" [.data ⟨#[1]⟩, .pause 5])) :: List.replicate 8 (.event (.step 0)) ++
      .event (.request (.put "a" [.data ⟨#[3]⟩])) :: List.replicate 10 (.event (.step 1)) :=
    ⟨_, rfl⟩
  obtain ⟨opened, hopened⟩ : ∃ opened : List Occurrence, opened =
    List.replicate 3 (.event (.step 3)) ++ .deed (.insert ⟨"b", "a"⟩ ⟨#[7]⟩) ::
      List.replicate 2 (.event (.step 3)) := ⟨_, rfl⟩
  let env := Shared.memory (.ofConfig "memory" config)
  let os := begun ++ [.event (.cancel 0)]
  let reading := .event (.request (.read "a")) :: opened
  -- the state is written out, for the run to be evaluated
  have hrun : ((m.after env begun).task? 0).all (·.isSuspended) = true ∧
      ((m.after env os).world.objects.get? ⟨"b", "a"⟩).map (·.data) = some ⟨#[3]⟩ ∧
      (m.after env os).nextTask = 3 ∧
      ((m.after env (os ++ reading)).world.objects.get? ⟨"b", "a"⟩).map (·.data) = some ⟨#[7]⟩ ∧
      ((m.after env (os ++ reading)).task? 3).bind (·.data?) = some ⟨#[3]⟩ ∧
      Location.mk config.bucket (config.roots.primaryKey "a") = ⟨"b", "a"⟩ := by
    subst hconfig hbegun hopened
    unfold connect at hconnect
    rw [hvalid] at hconnect
    cases hconnect
    decide +kernel
  obtain ⟨hsuspended, hstored, hid, hreplaced, hread, hlocation⟩ := hrun
  have hops : Operates (os ++ reading) := by
    intro r hr
    simp [os, reading, hbegun, hopened] at hr
    rcases hr with rfl | rfl | rfl <;> rfl
  have hcancels : CancelsWaiting env m (os ++ reading) := by
    have hnobody : CancelsWaiting env m ([] ++ begun) :=
      .append (Machine.cancelsWaiting_nil _ _) (by simp [hbegun])
    have hwaits : CancelsWaiting env m os := by
      refine hnobody.concat fun task htask => ?_
      rw [List.nil_append] at htask
      rw [htask] at hsuspended
      exact hsuspended
    exact hwaits.append (by simp [reading, hopened])
  have hearlier : os <+: os ++ reading := List.prefix_append os reading
  obtain ⟨o, ho, hdata⟩ := Option.map_eq_some_iff.1 hstored
  have horigin := (uploads_atomic_reads_snapshots hconnect (hops.of_prefix hearlier)
    (hcancels.of_prefix hearlier)).1 _ o ho
  have hasked : m.Asked env (os ++ reading) 3 (.read "a") :=
    ⟨os, ⟨opened, by simp [reading]⟩, hid⟩
  obtain ⟨task, htask, hbytes⟩ := Option.bind_eq_some_iff.1 hread
  have hended := Task.ended_of_data hbytes
  obtain ⟨read, hopens, heq⟩ := ((uploads_atomic_reads_snapshots hconnect hops hcancels).2 3 "a"
    task hasked htask).2 _ hended
  have hsame : read.data = ⟨#[3]⟩ := (Outcome.data.inj heq).symm
  rw [heq] at hended
  rw [hlocation] at hopens
  exact ⟨config, m, os, reading, o, hconnect, by simp [os, hbegun], by simp [os], ho, hdata,
    horigin, hasked, hreplaced, task, read, htask, hended, hsame, hopens⟩

end Run

end Depot.Storage
