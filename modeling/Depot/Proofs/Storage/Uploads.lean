import Depot.Proofs.Storage.Ends
import Depot.Proofs.Storage.Gathering
import Depot.Storage.Uploads

/-!
# What comes of an upload

Over a store whose writers gather what they take, an upload that has got a client ends in one of
four ways (`UploadEnds`): no writer was opened for it, its source failed, its object was not
completed, or it succeeded. As a task asks only once for a writer, and completes its object only
once (`Orderly.opening_unique`, `Orderly.completion_unique`), what it was answered decides in which
of these ways it ends. The object is completed with all that the source yields (`Completion`).
-/

set_option autoImplicit false

namespace Depot.Storage

open Machine (Operates)

variable {World Writer : Type} {env : Shared World Writer} {m : Machine World Writer}
  {os os' : List Occurrence} {x : Occurrence} {id : TaskId} {task : Task Writer}
  {answer answer' : Except StoreError Unit}

/-! ## What a task has come through -/

namespace Machine

variable {P : Task Writer → Prop}

theorem Reached.of_prefix (h : m.Reached env os' id P) (hos : os' <+: os) :
    m.Reached env os id P := by
  obtain ⟨first, hfirst, h⟩ := h
  exact ⟨first, hfirst.trans hos, h⟩

theorem Reached.concat (h : m.Reached env os id P) (x : Occurrence) :
    m.Reached env (os ++ [x]) id P :=
  h.of_prefix (List.prefix_append os [x])

/-- What a task is like now it has come to. -/
theorem Reached.now (htask : (m.after env os).task? id = some task) (h : P task) :
    m.Reached env os id P :=
  ⟨os, List.prefix_rfl, task, htask, h⟩

/-- A task has come to something before, or comes to it with the last occurrence. -/
theorem Reached.of_concat (h : m.Reached env (os ++ [x]) id P) :
    m.Reached env os id P ∨
      ∃ task, (m.after env (os ++ [x])).task? id = some task ∧ P task := by
  obtain ⟨first, hfirst, task, htask, h⟩ := h
  rcases List.prefix_concat_iff.1 hfirst with rfl | hfirst
  · exact Or.inr ⟨task, htask, h⟩
  · exact Or.inl ⟨first, hfirst, task, htask, h⟩

end Machine

/-- What is answered at a part of the way with nothing to do but one call is answered once. -/
theorem Orderly.answer_unique {α : Type} {f : Phase Writer → Option α} {a a' : α} (part : Nat)
    (ho : Orderly m) (hops : Operates os)
    (hf : ∀ phase a, f phase = some a →
      phase.isUnderWay = true ∧ phase.part = part ∧ phase.toDo = 0)
    (h : m.Reached env os id fun task => f task.phase = some a)
    (h' : m.Reached env os id fun task => f task.phase = some a') : a = a' := by
  obtain ⟨first, hfirst, task, htask, ha⟩ := h
  obtain ⟨first', hfirst', task', htask', ha'⟩ := h'
  obtain ⟨hway, hpart, hdone⟩ := hf _ _ ha
  obtain ⟨hway', hpart', hdone'⟩ := hf _ _ ha'
  have hsame : task' = task := ho.eq_of_part hops hfirst hfirst' htask htask' hway hway'
    (hpart.trans hpart'.symm) hdone hdone'
  rw [hsame, ha] at ha'
  exact Option.some.inj ha'

/-- A task asks for a writer once, so that there is one answer. -/
theorem Orderly.opening_unique (ho : Orderly m) (hops : Operates os)
    (h : m.OpeningIs env os id answer) (h' : m.OpeningIs env os id answer') :
    answer = answer' := by
  refine ho.answer_unique 5 hops (fun phase a ha => ?_) h h'
  cases phase with
  | accepted _ _ _ => exact ⟨rfl, rfl, rfl⟩
  | _ => cases ha

theorem Phase.exists_of_completion? {phase : Phase Writer} (h : phase.completion? = some answer) :
    ∃ u, phase = .completed u answer := by
  cases phase with
  | completed u reply =>
    cases h
    exact ⟨u, rfl⟩
  | _ => cases h

/-- A task completes its object once, so that there is one answer. -/
theorem Orderly.completion_unique (ho : Orderly m) (hops : Operates os)
    (h : m.CompletionIs env os id answer) (h' : m.CompletionIs env os id answer') :
    answer = answer' := by
  refine ho.answer_unique 2 hops (fun phase a ha => ?_) h h'
  cases phase with
  | completed _ _ => exact ⟨rfl, rfl, rfl⟩
  | _ => cases ha

/-- A task that has completed its object does not come to that point again. -/
theorem Orderly.phase_ne_flushed (ho : Orderly m) (hops : Operates os)
    (h : m.CompletionIs env os id answer) (htask : (m.after env os).task? id = some task)
    (u : Upload Writer) (reply : Except IoError Unit) : task.phase ≠ .flushed u reply := by
  intro hphase
  obtain ⟨first, hfirst, task₀, htask₀, hanswer⟩ := h
  obtain ⟨u', hphase₀⟩ := Phase.exists_of_completion? hanswer
  rcases ho.eq_or_nearer hops hfirst htask₀ (by rw [hphase₀]; rfl) htask with rfl | ⟨-, hahead⟩
  · rw [hphase₀] at hphase
    cases hphase
  · rw [hphase₀, hphase] at hahead
    rcases Prod.lex_def.1 hahead with hlt | ⟨heq, -⟩
    · exact absurd hlt (show ¬ 3 < 2 by decide)
    · cases heq

/-- A task that has a client, to store or to read an object, is under way. -/
theorem Orderly.isUnderWay_of_client (ho : Orderly m) {setup : Setup} {r : Request}
    (hr : (∃ path source, r = .put path source) ∨ ∃ path, r = .read path)
    (htask : m.task? id = some task) (hserves : task.phase.Serves setup r)
    (hclient : task.client.isSome = true) : task.phase.isUnderWay = true := by
  have hstage : task.phase.stage = .holding := by
    by_contra hne
    rw [(ho.sound _ _ htask).client_eq_none hne] at hclient
    cases hclient
  rcases hr with ⟨path, source, rfl⟩ | ⟨path, rfl⟩
  · exact hserves.isUnderWay hstage nofun nofun
  · exact hserves.isUnderWay hstage nofun nofun

/-- A task that has got a client, to store or to read an object, is under way from then on. -/
theorem Orderly.isUnderWay_of_obtained (ho : Orderly m) (hops : Operates os) {r : Request}
    (hr : (∃ path source, r = .put path source) ∨ ∃ path, r = .read path)
    (hasked : m.Asked env os id r) (h : m.Obtained env os id)
    (htask : (m.after env os).task? id = some task) : task.phase.isUnderWay = true := by
  obtain ⟨first, hfirst, task₀, htask₀, hclient⟩ := h
  have hops' := hops.of_prefix hfirst
  have hasked' := ho.asked_of_task? hops hasked hfirst htask₀
  have hway₀ := (ho.after hops').isUnderWay_of_client hr htask₀
    (ho.serves_of_asked hops' hasked' htask₀) hclient
  rcases ho.eq_or_nearer hops hfirst htask₀ hway₀ htask with rfl | ⟨hway, -⟩
  · exact hway₀
  · exact hway

/-! ## Who gets no client -/

/-- Who looks for a client no longer does not begin to look for one again. -/
theorem Turn.seeks_eq_false {env : Env World Writer} {n : Next World Writer}
    (h : Turn env m task n) (hs : task.phase.seeks = false) : n.task.phase.seeks = false := by
  have hseeks : task.phase.seeks ≠ true := by
    rw [hs]
    nofun
  cases h with
  | acquire hasks _ => exact absurd hasks.seeks hseeks
  | shut hshuts _ | drainPool hshuts _ _ _ => exact absurd hshuts.seeks hseeks
  | work _ _ _ hw hn =>
    cases hn with
    | keep _ | giveBack _ _ | giveLate _ _ =>
      generalize task.phase = phase at hw
      cases hw <;> rfl
    | destroy _ _ _ => rfl
  | drain _ hdrains _ => cases hdrains <;> rfl
  | disconnect hphase _ _ _ | apart hphase _ | closeNext hphase _ _ _ _ =>
    rw [hphase] at hs
    cases hs
  | _ => rfl

/-- Who has got a client does not look for one any more. -/
theorem Orderly.seeks_of_obtained (ho : Orderly m) (hops : Operates os)
    (h : m.Obtained env os id) (htask : (m.after env os).task? id = some task) :
    task.phase.seeks = false := by
  obtain ⟨first, hfirst, task₀, htask₀, hclient⟩ := h
  have hops' := hops.of_prefix hfirst
  have hstage : task₀.phase.stage = .holding := by
    by_contra hne
    rw [((ho.after hops').sound _ _ htask₀).client_eq_none hne] at hclient
    cases hclient
  have hseeks₀ : task₀.phase.seeks = false := by
    generalize task₀.phase = phase at hstage
    cases phase <;> first | rfl | cases hstage
  exact ho.forall_later hops (P := fun task => task.phase.seeks = false)
    (fun _ _ _ hn hs => hn.seeks_eq_false hs) hfirst htask₀ hseeks₀ htask

/-- A task has ended before it got a client. -/
def Unserved (env : Shared World Writer) (m : Machine World Writer) (os : List Occurrence)
    (id : TaskId) : Prop :=
  ∃ first, first <+: os ∧ ¬ m.Obtained env first id ∧
    ∃ task result, (m.after env first).task? id = some task ∧ task.phase = .ended result

/-- A task that has ended before it got a client stays so. -/
theorem Unserved.concat (h : Unserved env m os id) (x : Occurrence) :
    Unserved env m (os ++ [x]) id := by
  obtain ⟨first, hfirst, h⟩ := h
  exact ⟨first, hfirst.trans (List.prefix_append os [x]), h⟩

/-- A task that looks for a client, and ends now, has never got one. -/
theorem Orderly.unserved (ho : Orderly m) (hops : Operates (os ++ [x]))
    (htask : (m.after env os).task? id = some task) (hseeks : task.phase.seeks = true)
    {task' : Task Writer} (htask' : (m.after env (os ++ [x])).task? id = some task')
    {result : Except StoreError Outcome} (hended : task'.phase = .ended result) :
    Unserved env m (os ++ [x]) id := by
  refine ⟨os ++ [x], List.prefix_rfl, fun h => ?_, task', result, htask', hended⟩
  have hops' := hops.of_prefix (List.prefix_append os [x])
  rcases h.of_concat with h | ⟨task₁, htask₁, hclient⟩
  · rw [ho.seeks_of_obtained hops' h htask] at hseeks
    cases hseeks
  · rw [htask'] at htask₁
    cases htask₁
    rw [((ho.after hops).sound _ _ htask').client_eq_none (by rw [hended]; nofun)] at hclient
    cases hclient

/-- A task that has ended before it got a client has never got one. -/
theorem Orderly.not_obtained (ho : Orderly m) (hops : Operates os) (h : Unserved env m os id) :
    ¬ m.Obtained env os id := by
  obtain ⟨first, hfirst, hnever, task, result, htask, hended⟩ := h
  rintro ⟨first', hfirst', task', htask', hclient⟩
  rcases List.prefix_or_prefix_of_prefix hfirst hfirst' with hlater | hearlier
  · -- it has stayed where it was
    have hops' := hops.of_prefix hfirst'
    rcases ho.eq_or_nearer hops' hlater htask (by rw [hended]; rfl) htask' with
      rfl | ⟨-, hahead⟩
    · rw [((ho.after hops').sound _ _ htask').client_eq_none (by rw [hended]; nofun)] at hclient
      cases hclient
    · rw [hended] at hahead
      rcases Prod.lex_def.1 hahead with hlt | ⟨-, hlt⟩
      · exact absurd hlt (Nat.not_lt_zero _)
      · exact absurd hlt (Nat.not_lt_zero _)
  · exact hnever ⟨first', hearlier, task', htask', hclient⟩

/-! ## The ways in which an upload ends -/

/-- How an upload of a source under a key has ended that had got a client. -/
inductive UploadEnds (env : Shared World Writer) (m : Machine World Writer) (os : List Occurrence)
    (id : TaskId) (key : String) (source : Stream) : Except StoreError Outcome → Prop where
  /-- No writer was opened. -/
  | refused {e : StoreError} : m.OpeningIs env os id (.error e) →
      UploadEnds env m os id key source (.error e)
  /-- The source has failed. -/
  | broken {e : IoError} : m.OpeningIs env os id (.ok ()) → source.content = .error e →
      UploadEnds env m os id key source (.error (.io e))
  /-- The object was not completed. -/
  | incomplete {data : ByteArray} {e : StoreError} : m.OpeningIs env os id (.ok ()) →
      source.content = .ok data → m.CompletionIs env os id (.error e) →
      UploadEnds env m os id key source (.error (e.toWriteFinalization key))
  | stored {data : ByteArray} : m.OpeningIs env os id (.ok ()) → source.content = .ok data →
      m.CompletionIs env os id (.ok ()) → UploadEnds env m os id key source (.ok .unit)

/-- A task has completed its object with a step: the writer, which is as `W` says, had gathered
these data, and the completion has got this answer. -/
def Completion (W : Client → String → Writer → Prop) (gathered : Writer → ByteArray)
    (env : Shared World Writer) (m : Machine World Writer) (os : List Occurrence) (id : TaskId)
    (key : String) (data : ByteArray) (answer : Except StoreError Unit) : Prop :=
  ∃ before c writer, before ++ [.event (.step id)] <+: os ∧ W c key writer ∧
    gathered writer = data ∧
    let a := (env.backend.finish writer (m.after env before).world).2
    let next := m.after env (before ++ [.event (.step id)])
    next.world = a.world ∧ a.result = answer ∧ ∃ task u, next.task? id = some task ∧
      task.phase = .completed u answer ∧ Rings task.alarm a.delay

/-- What is known of an upload of a source under a key that has come to a phase. -/
def Phase.Tells (W : Client → String → Writer → Prop) (gathered : Writer → ByteArray)
    (env : Shared World Writer) (m : Machine World Writer) (os : List Occurrence) (id : TaskId)
    (key : String) (source : Stream) : Phase Writer → Prop
  | uploading _ => m.OpeningIs env os id (.ok ())
  | wrote u _ => m.OpeningIs env os id (.ok ()) ∧ u.buffer.size ≠ 0
  | flushed _ _ => m.OpeningIs env os id (.ok ())
  | completed _ answer => m.OpeningIs env os id (.ok ()) ∧
    ∃ data, source.content = .ok data ∧ Completion W gathered env m os id key data answer
  | invalidated _ result => Unserved env m os id ∨ UploadEnds env m os id key source result
  | ended result => Unserved env m os id ∨ UploadEnds env m os id key source result
  | _ => True

section Concat

variable {W : Client → String → Writer → Prop} {gathered : Writer → ByteArray} {key : String}
  {source : Stream} {data : ByteArray} {result : Except StoreError Outcome} {phase : Phase Writer}

theorem UploadEnds.concat (h : UploadEnds env m os id key source result) (x : Occurrence) :
    UploadEnds env m (os ++ [x]) id key source result := by
  cases h with
  | refused hopen => exact .refused (hopen.concat x)
  | broken hopen hcontent => exact .broken (hopen.concat x) hcontent
  | incomplete hopen hcontent hend => exact .incomplete (hopen.concat x) hcontent (hend.concat x)
  | stored hopen hcontent hend => exact .stored (hopen.concat x) hcontent (hend.concat x)

theorem Completion.of_prefix (h : Completion W gathered env m os' id key data answer)
    (hos : os' <+: os) : Completion W gathered env m os id key data answer := by
  obtain ⟨before, c, writer, hbefore, h⟩ := h
  exact ⟨before, c, writer, hbefore.trans hos, h⟩

theorem Phase.Tells.concat (h : phase.Tells W gathered env m os id key source) (x : Occurrence) :
    phase.Tells W gathered env m (os ++ [x]) id key source := by
  cases phase with
  | uploading u => exact Machine.Reached.concat h x
  | flushed u reply => exact Machine.Reached.concat h x
  | wrote u reply => exact ⟨h.1.concat x, h.2⟩
  | completed u reply =>
    obtain ⟨hopen, data, hcontent, hcompletion⟩ := h
    exact ⟨hopen.concat x, data, hcontent, hcompletion.of_prefix (List.prefix_append os [x])⟩
  | invalidated reply result => exact h.imp (·.concat x) (·.concat x)
  | ended result => exact h.imp (·.concat x) (·.concat x)
  | _ => trivial

end Concat

/-! ## One step of an upload -/

section Step

variable {W : Client → String → Writer → Prop} {gathered : Writer → ByteArray} {path : String}
  {source : Stream} {n : Next World Writer}

/-- What is known of a task that stores what a source yields: it is about its request, it has the
writer that was opened for it, all data is on its way, and it has come through what leads to its
phase. -/
structure Task.Told (W : Client → String → Writer → Prop) (gathered : Writer → ByteArray)
    (env : Shared World Writer) (m : Machine World Writer) (os : List Occurrence) (id : TaskId)
    (path : String) (source : Stream) (task : Task Writer) : Prop where
  serves : task.phase.Serves env.setup (.put path source)
  bound : task.Bound W
  brings : task.phase.Brings gathered source
  tells : task.phase.Tells W gathered env m os id (env.setup.roots.primaryKey path) source

/-- What a task that goes on with its client has come through. -/
theorem Task.Told.of_keep (h : task.Told W gathered env m os id path source)
    (htask : (m.after env os).task? id = some task) {c : Client} (hc : task.client = some c)
    {phase : Phase Writer} {world : World} {delay : Nat} {visited : List Entry}
    {alarm : Option Alarm}
    (hw : Works env.toEnv c (m.after env os).world task.visited task.phase
      (.keep phase world delay visited)) (hrings : Rings alarm delay)
    (hworld : (m.after env (os ++ [.event (.step id)])).world = world)
    (hnext : (m.after env (os ++ [.event (.step id)])).task? id =
      some { task with phase, alarm, visited }) :
    phase.Tells W gathered env m (os ++ [.event (.step id)]) id
      (env.setup.roots.primaryKey path) source := by
  obtain ⟨hserves, hbound, hbrings, htells⟩ := h
  have hmore := htells.concat (.event (.step id))
  have hbound := hbound.of_client hc
  generalize hphase : task.phase = before at hw hserves hbound hbrings htells hmore
  cases hw with
  | @accepted key source' writer =>
    have hopen : m.OpeningIs env os id (.ok ()) := .now htask (by rw [hphase]; rfl)
    exact hopen.concat _
  | write hstep _ => exact ⟨hmore, (Upload.eq_of_step_write hstep).2⟩
  | read _ | pause _ | flush _ _ => exact hmore
  | wrote _ => exact hmore.1
  | @finish u writer a ha =>
    obtain ⟨-, hcontent⟩ := hbrings
    -- the object is completed with all that was gathered
    have ha' : (env.backend.finish u.writer (m.after env os).world).2 = a := by rw [ha]
    obtain ⟨source', hwants⟩ := hserves
    obtain ⟨path', hput, hkey⟩ := hwants.exists_put
    cases hput
    refine ⟨hmore, _, hcontent, os, c, u.writer, List.prefix_rfl, hkey ▸ hbound u.key u.writer rfl,
      rfl, ?_⟩
    rw [ha']
    exact ⟨hworld, rfl, _, _, hnext, rfl, hrings⟩
  | _ => trivial

/-- The work of a step has an end with a result for which `P` holds, if it has an end. -/
def Work.EndsAs (P : Except StoreError Outcome → Prop) : Work World Writer → Prop
  | keep _ _ _ _ => True
  | giveBack phase _ _ => ∃ result, phase = .ended result ∧ P result
  | destroy e _ _ => P (.error e)

/-- How an upload is to end that gives its client back or has it destroyed. -/
theorem Task.Told.endsAs (h : task.Told W gathered env m os id path source)
    (htask : (m.after env os).task? id = some task) {c : Client} {k : Work World Writer}
    (hw : Works env.toEnv c (m.after env os).world task.visited task.phase k) :
    k.EndsAs (UploadEnds env m os id (env.setup.roots.primaryKey path) source) := by
  obtain ⟨hserves, -, hbrings, htells⟩ := h
  generalize hphase : task.phase = phase at hw hserves hbrings htells
  cases hw with
  | @unaccepted key source' e =>
    exact .refused (.now htask (by rw [hphase]; rfl))
  | broken hstep =>
    exact .broken htells (hbrings.symm.trans (Upload.whole_of_step_fail gathered hstep))
  | unwritten hreply =>
    -- a writer that gathers takes all that it is given
    obtain ⟨rfl, -⟩ := hbrings
    simp only [Except.bind, Upload.wrote, if_neg htells.2] at hreply
    cases hreply
  | unflushed =>
    obtain ⟨hreply, -⟩ := hbrings
    cases hreply
  | @incomplete u e =>
    obtain ⟨source', hwants⟩ := hserves
    obtain ⟨path', hput, hkey⟩ := hwants.exists_put
    cases hput
    obtain ⟨hopen, data, hcontent, -⟩ := htells
    rw [hkey]
    exact .incomplete hopen hcontent (.now htask (by rw [hphase]; rfl))
  | @completed u =>
    obtain ⟨hopen, data, hcontent, -⟩ := htells
    exact ⟨_, rfl, .stored hopen hcontent (.now htask (by rw [hphase]; rfl))⟩
  | walked _ | stopped _ | unlisted | opened | unopened | found | missing _ | unfound _ =>
    -- a request to store has no other goal
    obtain ⟨_, hwants⟩ := hserves
    cases hwants
  | deleted | undeleted | unmeasured | copied | uncopied => cases hserves
  | _ => trivial

/-- **What is known of an upload is known after its next step.** -/
theorem Task.Told.turn (ho : Orderly m) (hg : Gathers env.toEnv gathered) (hb : Binds env.toEnv W)
    (hops : Operates (os ++ [.event (.step id)])) (htask : (m.after env os).task? id = some task)
    (hn : Turn env.toEnv (m.after env os) task n)
    (hm' : (m.after env (os ++ [.event (.step id)])).bare = ((m.after env os).follow id n).bare)
    (h : task.Told W gathered env m os id path source) :
    n.task.Told W gathered env m (os ++ [.event (.step id)]) id path source := by
  refine ⟨hn.serves h.serves, hn.bound hb h.bound, hn.brings hg h.serves h.brings, ?_⟩
  have hserves := h.serves
  have hnext := Machine.task?_of_follow hm' htask
  have hworld := Machine.world_of_follow hm'
  rcases hn.of_endsSettled hserves rfl with
    ⟨e, hphase, -, rfl⟩ | ⟨g, t, p, progress, hasks, hn⟩ | ⟨t, c, k, hc, hw, hn⟩ |
    ⟨t, reply, result, hphase, rfl⟩
  · exact Or.inl (ho.unserved hops htask (by rw [hphase]; rfl) hnext rfl)
  · cases hn with
    | refuse => exact Or.inl (ho.unserved hops htask hasks.seeks hnext rfl)
    | _ => trivial
  · have hends := h.endsAs htask hw
    cases hn with
    | keep hrings => exact h.of_keep htask hc hw hrings hworld hnext
    | giveBack _ _ | giveLate _ _ =>
      obtain ⟨result, rfl, hend⟩ := hends
      exact Or.inr (hend.concat _)
    | destroy _ _ _ => exact Or.inr (hends.concat _)
  · have htells := h.tells.concat (.event (.step id))
    rw [hphase] at htells
    exact htells

/-- **At every moment of an upload** all this is known of it. -/
theorem Orderly.told (ho : Orderly m) (hg : Gathers env.toEnv gathered) (hb : Binds env.toEnv W)
    (hops : Operates os) (hasked : m.Asked env os id (.put path source))
    (htask : (m.after env os).task? id = some task) :
    task.Told W gathered env m os id path source := by
  refine ho.forall_asked_of_follow (P := fun os id r task => ∀ path source, r = .put path source →
    task.Told W gathered env m os id path source) hops ?_ ?_ ?_ hasked htask path source rfl
  · intro os x id r task h path source hr
    obtain ⟨hserves, hbound, hbrings, htells⟩ := h path source hr
    exact ⟨hserves, hbound, hbrings, htells.concat x⟩
  · rintro os id _ _ path source rfl
    exact ⟨rfl, nofun, trivial, trivial⟩
  · rintro os id _ task n hops - htask hn hm' h path source rfl
    exact (h path source rfl).turn ho hg hb hops htask hn hm'

/-- **The end of an upload.** An upload that has got a client ends as the writer was opened, the
source was read and the object was completed. -/
theorem Orderly.uploadEnds (ho : Orderly m) (hg : Gathers env.toEnv gathered)
    (hb : Binds env.toEnv W) (hops : Operates os) (hasked : m.Asked env os id (.put path source))
    (hobtained : m.Obtained env os id) (htask : (m.after env os).task? id = some task)
    {result : Except StoreError Outcome} (hended : task.phase = .ended result) :
    UploadEnds env m os id (env.setup.roots.primaryKey path) source result := by
  have htells := (ho.told hg hb hops hasked htask).tells
  rw [hended] at htells
  rcases htells with hunserved | hends
  · exact absurd hobtained (ho.not_obtained hops hunserved)
  · exact hends

/-- An upload ends with success exactly when nothing has failed. -/
theorem Orderly.eq_unit_iff (ho : Orderly m) (hops : Operates os) {key : String}
    {result : Except StoreError Outcome} (h : UploadEnds env m os id key source result) :
    result = .ok .unit ↔ m.OpeningIs env os id (.ok ()) ∧ (∃ data, source.content = .ok data) ∧
      m.CompletionIs env os id (.ok ()) := by
  constructor
  · rintro rfl
    cases h with
    | stored hopen hcontent hend => exact ⟨hopen, ⟨_, hcontent⟩, hend⟩
  · rintro ⟨hopen, ⟨data, hcontent⟩, hend⟩
    cases h with
    | refused hrefused => cases ho.opening_unique hops hopen hrefused
    | broken _ hbroken =>
      rw [hcontent] at hbroken
      cases hbroken
    | incomplete _ _ hincomplete => cases ho.completion_unique hops hend hincomplete
    | stored _ _ _ => rfl

/-- The object of an upload is completed with all that its source yields, after a writer was opened
for it. -/
theorem Orderly.completion (ho : Orderly m) (hg : Gathers env.toEnv gathered)
    (hb : Binds env.toEnv W) (hops : Operates os) (hasked : m.Asked env os id (.put path source))
    (h : m.CompletionIs env os id answer) :
    m.OpeningIs env os id (.ok ()) ∧ ∃ data, source.content = .ok data ∧
      Completion W gathered env m os id (env.setup.roots.primaryKey path) data answer := by
  obtain ⟨first, hfirst, task, htask, hanswer⟩ := h
  obtain ⟨u, hphase⟩ := Phase.exists_of_completion? hanswer
  have hasked' := ho.asked_of_task? hops hasked hfirst htask
  have htells := (ho.told hg hb (hops.of_prefix hfirst) hasked' htask).tells
  rw [hphase] at htells
  obtain ⟨hopen, data, hcontent, hcompletion⟩ := htells
  exact ⟨hopen.of_prefix hfirst, data, hcontent, hcompletion.of_prefix hfirst⟩

end Step

end Depot.Storage
