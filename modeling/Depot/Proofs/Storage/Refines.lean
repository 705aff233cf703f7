import Depot.Proofs.Reference
import Depot.Proofs.Storage.Course
import Depot.Proofs.Stream

/-!
# A storage is a map

A single operation at a time, over a store in memory in which nothing is ordered to fail: what is to
come of the operation is settled when it is asked for, whether the pool has a client for it or not
(`Leads`). Every step of its work keeps that (`Works.leads`), which makes it the course of the
operation (`toResult`), so that each operation ends with what the map answers. The main statement
is `storage_refines_map`.
-/

set_option autoImplicit false

namespace Depot.Storage

open Reference (Items Reply Stores Answers)

variable {setup : Setup} {out : Reference.Result} {items : Items} {c : Client}

/-! ## What is to come -/

/-- What comes of a goal on a map. -/
def Goal.result (setup : Setup) (items : Items) : Goal → Option Reference.Result
  | put key source => some (items.put ⟨setup.bucket, key⟩ setup.options source.content)
  | read key => some (items.look ⟨setup.bucket, key⟩ fun item => .data item.data)
  | stat key => some (items.look ⟨setup.bucket, key⟩ fun item => .size item.data.size)
  | delete key => some (items.delete ⟨setup.bucket, key⟩)
  | copy sourceBucket sourceKey key =>
    some (items.copy ⟨sourceBucket, sourceKey⟩ ⟨setup.bucket, key⟩)
  | keep => none
  | walk _ => none

/-- The error that a task in a phase has got, and ends with. -/
def Phase.failure? {Writer : Type} : Phase Writer → Option StoreError
  | opened (.error e) => some e
  | found (.error e) => some e
  | deleted _ (.error e) => some e
  | measured _ _ _ (.error e) => some e
  | invalidated _ (.error e) => some e
  | _ => none

/-- A task in a phase, with these items in the store, leads to a result. -/
inductive Leads (setup : Setup) (out : Reference.Result) (items : Items) :
    Phase Memory.Writer → Prop where
  | start {r : Request} {g : Goal} : r.goal setup = some (.ok g) →
      g.result setup items = some out → Leads setup out items (.start r)
  | denied {r : Request} {e : StoreError} : r.goal setup = some (.error e) →
      out = (.error e.kind, items) → Leads setup out items (.start r)
  | created {g : Goal} : g.result setup items = some out →
      Leads setup out items (.created g (.ok ()))
  | lent {g : Goal} : g.result setup items = some out → Leads setup out items (.lent g)
  | opened {s : Stream} {data : ByteArray} : s.content = .ok data →
      out = (.ok (.data data), items) → Leads setup out items (.opened (.ok s))
  | draining {rest : Stream} {data more : ByteArray} : rest.content = .ok more →
      out = (.ok (.data (data ++ more)), items) → Leads setup out items (.draining rest data)
  | accepted {key : String} {source : Stream} {w : Memory.Writer} : w.buffer = .empty →
      out = items.put w.location w.options source.content →
      Leads setup out items (.accepted key source (.ok w))
  | uploading {u : Upload Memory.Writer} :
      out = items.put u.writer.location u.writer.options
        (u.source.content.map (u.writer.buffer ++ u.buffer ++ ·)) →
      Leads setup out items (.uploading u)
  | wrote {u : Upload Memory.Writer} : u.buffer.size ≠ 0 →
      out = items.put u.writer.location u.writer.options
        (u.source.content.map (u.writer.buffer ++ ·)) →
      Leads setup out items (.wrote u (.ok u.buffer.size))
  | flushed {u : Upload Memory.Writer} :
      out = items.put u.writer.location u.writer.options (.ok u.writer.buffer) →
      Leads setup out items (.flushed u (.ok ()))
  | completed {u : Upload Memory.Writer} : out = (.ok .done, items) →
      Leads setup out items (.completed u (.ok ()))
  | found {a : Attributes} : out = (.ok (.size a.size), items) →
      Leads setup out items (.found (.ok a))
  | deleted {key : String} : out = (.ok .done, items) →
      Leads setup out items (.deleted key (.ok ()))
  | measured {sourceBucket sourceKey key : String} {a : Attributes} {item : Reference.Item} :
      items ⟨sourceBucket, sourceKey⟩ = some item → a.size = item.data.size →
      out = items.copy ⟨sourceBucket, sourceKey⟩ ⟨setup.bucket, key⟩ →
      Leads setup out items (.measured sourceBucket sourceKey key (.ok a))
  | copied {sourceBucket sourceKey key : String} {size : Nat} :
      out = (.ok (.size size), items) →
      Leads setup out items (.copied sourceBucket sourceKey key size (.ok ()))
  | failed {phase : Phase Memory.Writer} {e : StoreError} : phase.failure? = some e →
      out = (.error e.kind, items) → Leads setup out items phase
  | ended {result : Except StoreError Outcome} : Answers result out.1 → out.2 = items →
      Leads setup out items (.ended result)

/-- A request with a goal leads to what comes of the goal. -/
theorem Leads.goal_result {r : Request} {g : Goal} (h : Leads setup out items (.start r))
    (hgoal : r.goal setup = some (.ok g)) : g.result setup items = some out := by
  cases h with
  | failed hf _ => cases hf
  | start hgoal' hout =>
    rw [hgoal] at hgoal'
    cases hgoal'
    exact hout
  | denied hgoal' _ =>
    rw [hgoal] at hgoal'
    cases hgoal'

/-- An operation leads to what the map answers. -/
theorem Leads.of_operation (kind : String) (c : Config) (op : Reference.Operation) (items : Items) :
    Leads (.ofConfig kind c) (op.run c items) items (.start op.request) := by
  have hplace : ∀ path, (⟨c.bucket, c.roots.primaryKey path⟩ : Memory.Location) =
      Reference.place c path := by
    intro path
    rw [Reference.primaryKey_eq]
    rfl
  -- an object of a disk needs a root of its own
  have hdisk : ∀ (r : Request) (path : String) (goal : String → Goal)
      (next : Memory.Location → Reference.Result),
      r.goal (.ofConfig kind c) = some ((c.roots.diskKey path).map goal) →
      (∀ key, (goal key).result (.ofConfig kind c) items = some (next ⟨c.bucket, key⟩)) →
      Leads (.ofConfig kind c) ((Reference.diskPlace c path).elim (.error .config, items) next)
        items (.start r) := by
    intro r path goal next hgoal hresult
    rw [Reference.diskKey_eq] at hgoal
    unfold Reference.diskPlace at hgoal ⊢
    cases hroot : c.diskPath with
    | none =>
      rw [hroot] at hgoal
      exact .denied hgoal rfl
    | some root =>
      rw [hroot] at hgoal
      exact .start hgoal (hresult _)
  cases op with
  | put path source => exact .start rfl (congrArg some (congrArg (items.put · _ _) (hplace path)))
  | read path => exact .start rfl (congrArg some (congrArg (items.look · _) (hplace path)))
  | stat path => exact .start rfl (congrArg some (congrArg (items.look · _) (hplace path)))
  | delete path => exact .start rfl (congrArg some (congrArg items.delete (hplace path)))
  | deleteDisk path =>
    rw [Reference.run_deleteDisk]
    exact hdisk (.deleteDisk path) path .delete items.delete rfl fun _ => rfl
  | copy sourceBucket sourceKey path =>
    rw [Reference.run_copy]
    exact hdisk (.copy sourceBucket sourceKey path) path (.copy sourceBucket sourceKey)
      (items.copy ⟨sourceBucket, sourceKey⟩) rfl fun _ => rfl

/-! ## How far it is to the end -/

/-- What is still to be read in a phase. An upload reads a piece, writes it and takes note of it, so
one piece counts for three steps. -/
def Phase.unread {Writer : Type} : Phase Writer → Nat
  | uploading u => 3 * u.source.weight + if u.buffer.size = 0 then 0 else 2
  | wrote u _ => 3 * u.source.weight + 1
  | draining rest _ => rest.weight
  | _ => 0

/-! ## One step -/

/-- A task in a phase leads to a result, over this store. -/
def Heads (setup : Setup) (out : Reference.Result) : Where Memory Memory.Writer :=
  fun w _ phase => ∃ items, Stores w items ∧ Leads setup out items phase

/-- The work of a step, by a task in a phase, leads to a result, and is nearer to the end. -/
abbrev Work.Leads (setup : Setup) (out : Reference.Result) (phase : Phase Memory.Writer)
    (k : Work Memory Memory.Writer) : Prop :=
  k.Reaches (storing setup) (Heads setup out) (fun _ => Phase.unread) Phase.unread phase

/-- A call leads where its answer leads. -/
theorem Work.Leads.of_answer {α : Type} {phase : Phase Memory.Writer} {a : Answer Memory α}
    {next : α → Phase Memory.Writer} {result : α} {visited : List Entry}
    (hw : Stores a.world items) (hresult : a.result = result)
    (hl : Storage.Leads setup out items (next result))
    (hn : (next result).Nearer Phase.unread Phase.unread phase) :
    Work.Leads setup out phase (.ofAnswer a next visited) := by
  subst hresult
  exact ⟨⟨items, hw, hl⟩, hn⟩

/-- After an error, the client is destroyed, and the task ends with the error. -/
theorem Work.Leads.of_error {phase : Phase Memory.Writer} {w : Memory} {e : StoreError}
    {visited : List Entry} (hw : Stores w items) (hout : out = (.error e.kind, items)) :
    Work.Leads setup out phase (.destroy e w visited) :=
  fun _ => ⟨items, hw.destroy, .failed rfl hout⟩

section Works

variable {w : Memory} {visited : List Entry} {k : Work Memory Memory.Writer}

/-- The first call of a goal finds what is stored, or the goal comes to an error. -/
theorem Works.leads_of_lent {g : Goal} (h : Works (storing setup) c w visited (.lent g) k)
    (hw : Stores w items) (hout : g.result setup items = some out) :
    k.Leads setup out (.lent g) := by
  cases h with
  | walk => cases hout
  | @openReader key a ha =>
    subst ha
    cases hout
    obtain ⟨hstores, ⟨o, hitem, hresult⟩ | ⟨hnone, hresult⟩⟩ :=
      hw.look ⟨setup.bucket, key⟩ (fun o => Stream.ofBytes o.data) c .read
    · refine .of_answer hstores hresult (.opened (Stream.content_ofBytes o.data) ?_)
        (Phase.nearer_of_lt (by simp [Phase.part]))
      rw [Items.look, hitem]
    · refine .of_answer hstores hresult (.failed rfl ?_)
        (Phase.nearer_of_lt (by simp [Phase.part]))
      rw [Items.look, hnone]
      rfl
  | @openWriter key source a ha =>
    subst ha
    cases hout
    obtain ⟨hstores, hresult⟩ := hw.openWriter setup.options c setup.bucket key
    exact .of_answer hstores hresult (.accepted rfl rfl)
      (Phase.nearer_of_lt (by simp [Phase.part]))
  | @look key a ha =>
    subst ha
    cases hout
    obtain ⟨hstores, ⟨o, hitem, hresult⟩ | ⟨hnone, hresult⟩⟩ :=
      hw.look ⟨setup.bucket, key⟩ (·.attributes key) c .attributes
    · refine .of_answer hstores hresult (.found ?_) (Phase.nearer_of_lt (by simp [Phase.part]))
      rw [Items.look, hitem]
      rfl
    · refine .of_answer hstores hresult (.failed rfl ?_)
        (Phase.nearer_of_lt (by simp [Phase.part]))
      rw [Items.look, hnone]
      rfl
  | @delete key a ha =>
    subst ha
    cases hout
    rcases hw.delete ⟨setup.bucket, key⟩ c with
      ⟨item, hitem, hstores, hresult⟩ | ⟨hnone, hstores, hresult⟩
    · refine .of_answer hstores hresult (.deleted ?_) (Phase.nearer_of_lt (by simp [Phase.part]))
      rw [Items.delete, hitem]
    · refine .of_answer hstores hresult (.failed rfl ?_)
        (Phase.nearer_of_lt (by simp [Phase.part]))
      rw [Items.delete, hnone]
      rfl
  | @measure sourceBucket sourceKey key a ha =>
    subst ha
    cases hout
    obtain ⟨hstores, ⟨o, hitem, hresult⟩ | ⟨hnone, hresult⟩⟩ :=
      hw.look ⟨sourceBucket, sourceKey⟩ (·.attributes sourceKey) c .attributes
    · exact .of_answer hstores hresult (.measured hitem rfl rfl)
        (Phase.nearer_of_lt (by simp [Phase.part]))
    · refine .of_answer hstores hresult (.failed rfl ?_)
        (Phase.nearer_of_lt (by simp [Phase.part]))
      rw [Items.copy, hnone]
      rfl

/-- An upload stores what was written, what is to be written and what is still to be read. -/
theorem Works.leads_of_uploading {u : Upload Memory.Writer}
    (h : Works (storing setup) c w visited (.uploading u) k) (hw : Stores w items)
    (hout : out = items.put u.writer.location u.writer.options u.total) :
    k.Leads setup out (.uploading u) := by
  cases h with
  | @write _ bytes writer a hstep ha =>
    obtain ⟨rfl, hsize⟩ := Upload.eq_of_step_write hstep
    cases ha
    refine .of_answer hw rfl (.wrote hsize hout) (Phase.nearer_of_eq rfl ?_)
    simp [Phase.unread, hsize]
  | @read _ u' hstep =>
    have htotal := Upload.total_of_step_read hstep
    obtain ⟨hsize, bytes, rest, hpull, rfl⟩ := Upload.pull_of_step_read hstep
    have hless := Stream.weight_lt_of_pull (by decide) (congrArg Stream.Pull.rest? hpull)
    refine ⟨⟨items, hw, .uploading ?_⟩, Phase.nearer_of_eq rfl ?_⟩
    · rw [hout, ← htotal]
      rfl
    · simp only [Phase.unread, hsize]
      split
      · omega
      · omega
  | @pause _ u' ms hstep =>
    have htotal := Upload.total_of_step_pause hstep
    obtain ⟨hsize, rest, hpull, rfl⟩ := Upload.pull_of_step_pause hstep
    have hless := Stream.weight_lt_of_pull (by decide) (congrArg Stream.Pull.rest? hpull)
    refine ⟨⟨items, hw, .uploading ?_⟩, Phase.nearer_of_eq rfl ?_⟩
    · rw [hout, ← htotal]
      rfl
    · simp only [Phase.unread, hsize]
      omega
  | @flush _ a hstep ha =>
    subst ha
    refine .of_answer hw rfl (.flushed ?_) (Phase.nearer_of_lt (by simp [Phase.part]))
    rw [hout, Upload.total_of_step_complete hstep]
  | @broken _ e hstep =>
    rw [Upload.total_of_step_fail hstep] at hout
    exact .of_error hw hout

/-- The store takes all that it is given, and the upload goes on. -/
theorem Works.leads_of_wrote {u : Upload Memory.Writer}
    (h : Works (storing setup) c w visited (.wrote u (.ok u.buffer.size)) k) (hw : Stores w items)
    (hsize : u.buffer.size ≠ 0)
    (hout : out = items.put u.writer.location u.writer.options
      (u.source.content.map (u.writer.buffer ++ ·))) :
    k.Leads setup out (.wrote u (.ok u.buffer.size)) := by
  cases h with
  | @wrote _ u' n hwrote =>
    obtain ⟨-, rfl⟩ := Upload.eq_of_wrote hwrote
    refine ⟨⟨items, hw, .uploading ?_⟩, Phase.nearer_of_eq rfl ?_⟩
    · rw [hout, ByteArray.extract_same]
      simp only [ByteArray.append_empty]
    · simp [Phase.unread, ByteArray.extract_same]
  | unwritten hreply =>
    -- only a piece without bytes is refused
    simp only [Except.bind, Upload.wrote, if_neg hsize] at hreply
    cases hreply

/-- An error ends the work. Only after a look-up that finds nothing is the client given back. -/
theorem Works.leads_of_failure {phase : Phase Memory.Writer} {e : StoreError}
    (h : Works (storing setup) c w visited phase k) (hw : Stores w items)
    (hf : phase.failure? = some e) : k.Leads setup (.error e.kind, items) phase := by
  cases h with
  | missing _ =>
    cases hf
    exact ⟨⟨items, hw, .ended (.error e) rfl⟩, Phase.nearer_of_lt (by simp [Phase.part])⟩
  | unfound _ | unopened | undeleted | unmeasured =>
    cases hf
    exact .of_error hw rfl
  | _ => cases hf

/-- **The work of a step leads where the phase led.** -/
theorem Works.leads {phase : Phase Memory.Writer}
    (h : Works (storing setup) c w visited phase k) (hw : Stores w items)
    (hl : Leads setup out items phase) : k.Leads setup out phase := by
  cases hl with
  | lent hout => exact h.leads_of_lent hw hout
  | uploading hout => exact h.leads_of_uploading hw hout
  | wrote hsize hout => exact h.leads_of_wrote hw hsize hout
  | failed hf hout =>
    subst hout
    exact h.leads_of_failure hw hf
  | opened hcontent hout =>
    cases h with
    | opened =>
      refine ⟨⟨items, hw, .draining hcontent ?_⟩, Phase.nearer_of_lt (by simp [Phase.part])⟩
      rw [hout, ByteArray.empty_append]
  | accepted hbuffer hout =>
    cases h with
    | accepted =>
      refine ⟨⟨items, hw, .uploading ?_⟩, Phase.nearer_of_lt (by simp [Phase.part])⟩
      rw [hout, ← Upload.total_start _ _ hbuffer]
      rfl
  | @flushed u hout =>
    cases h with
    | @finish _ writer a ha =>
      obtain ⟨hstores, hresult⟩ := hw.finish u.writer
      rw [show Memory.finish u.writer w = (writer, a) from ha] at hstores hresult
      subst hout
      exact .of_answer hstores hresult (.completed rfl) (Phase.nearer_of_lt (by simp [Phase.part]))
  | @measured sourceBucket sourceKey key at' item hitem hsize hout =>
    cases h with
    | copy ha =>
      subst ha
      -- the source is still there, as nobody else is at work
      rcases hw.copy ⟨sourceBucket, sourceKey⟩ ⟨setup.bucket, key⟩ c with
        ⟨_, hitem', hstores, hresult⟩ | ⟨hnone, -, -⟩
      · rw [hitem] at hitem'
        cases hitem'
        refine .of_answer hstores hresult (.copied ?_) (Phase.nearer_of_lt (by simp [Phase.part]))
        rw [hout, Items.copy, hitem, hsize]
      · rw [hitem] at hnone
        cases hnone
  | completed hout | deleted hout =>
    subst hout
    cases h
    exact ⟨⟨items, hw, .ended .done rfl⟩, Phase.nearer_of_lt (by simp [Phase.part])⟩
  | found hout =>
    subst hout
    cases h
    exact ⟨⟨items, hw, .ended (.entry _ _ _) rfl⟩, Phase.nearer_of_lt (by simp [Phase.part])⟩
  | copied hout =>
    subst hout
    cases h
    exact ⟨⟨items, hw, .ended (.count _) rfl⟩, Phase.nearer_of_lt (by simp [Phase.part])⟩
  | start _ _ | denied _ _ | created _ | draining _ _ | ended _ _ =>
    -- no client is at work here
    cases h

end Works

/-- Reading on comes to all that was to be read. -/
theorem Drains.leads {rest : Stream} {data more : ByteArray} {phase : Phase Memory.Writer}
    {delay : Nat} (h : Drains rest data phase delay) (hcontent : rest.content = .ok more)
    (hout : out = (.ok (.data (data ++ more)), items)) :
    Leads setup out items phase ∧ phase.Nearer Phase.unread Phase.unread (.draining rest data) := by
  rw [Stream.content_eq copyBufferSize rest] at hcontent
  cases h with
  | @read bytes rest' hpull =>
    rw [hpull] at hcontent
    simp only at hcontent
    cases hmore : rest'.content with
    | error e =>
      rw [hmore] at hcontent
      cases hcontent
    | ok more' =>
      rw [hmore] at hcontent
      cases hcontent
      rw [← ByteArray.append_assoc] at hout
      refine ⟨.draining hmore hout, Phase.nearer_of_eq rfl ?_⟩
      exact Stream.weight_lt_of_pull (by decide) (congrArg Stream.Pull.rest? hpull)
  | @pause ms rest' hpull =>
    rw [hpull] at hcontent
    refine ⟨.draining hcontent hout, Phase.nearer_of_eq rfl ?_⟩
    exact Stream.weight_lt_of_pull (by decide) (congrArg Stream.Pull.rest? hpull)
  | broken hpull =>
    rw [hpull] at hcontent
    cases hcontent
  | finished hpull =>
    rw [hpull] at hcontent
    cases hcontent
    rw [ByteArray.append_empty] at hout
    subst hout
    exact ⟨.ended (.data data) rfl, Phase.nearer_of_lt (by simp [Phase.part])⟩

/-- The course of an operation that leads to a result. -/
def toResult (setup : Setup) (out : Reference.Result) : Course (storing setup) where
  On := Heads setup out
  left := fun _ => Phase.unread
  valid := storing_isValid setup
  alone := by
    rintro w visited phase ⟨items, -, hleads⟩
    cases hleads with
    | start hgoal _ | denied hgoal _ => exact Option.isSome_of_eq_some hgoal
    | failed hf _ => cases phase <;> trivial
    | _ => trivial
  deny := by
    rintro w visited r e ⟨items, hstores, hleads⟩ hgoal
    cases hleads with
    | failed hf _ => cases hf
    | start hgoal' _ =>
      rw [hgoal] at hgoal'
      cases hgoal'
    | denied hgoal' hout =>
      rw [hgoal] at hgoal'
      cases hgoal'
      subst hout
      exact ⟨items, hstores, .ended (.error e) rfl⟩
  create := by
    rintro w visited r g ⟨items, hstores, hleads⟩ hgoal
    obtain ⟨hcreated, hresult⟩ := hstores.create
    show Heads setup out w.create.world visited (.created g w.create.result)
    rw [hresult]
    exact ⟨items, hcreated, .created (hleads.goal_result hgoal)⟩
  lend := by
    rintro w visited r g ⟨items, hstores, hleads⟩ hgoal
    exact ⟨items, hstores, .lent (hleads.goal_result hgoal)⟩
  created := by
    rintro w visited g reply ⟨items, hstores, hleads⟩
    cases hleads with
    | failed hf _ => cases hf
    | created hout => exact ⟨rfl, items, hstores, .lent hout⟩
  work := by
    rintro c w visited phase k ⟨items, hstores, hleads⟩ hw
    exact hw.leads hstores hleads
  invalidated := by
    rintro w visited reply result ⟨items, hstores, hleads⟩
    cases hleads with
    | failed hf hout =>
      cases result with
      | ok _ => cases hf
      | error e =>
        cases hf
        subst hout
        exact ⟨items, hstores, .ended (.error _) rfl⟩
  drain := by
    rintro w visited rest data phase delay ⟨items, hstores, hleads⟩ hdrains
    cases hleads with
    | failed hf _ => cases hf
    | draining hcontent hout =>
      obtain ⟨hleads, hnearer⟩ := hdrains.leads hcontent hout
      exact ⟨⟨items, hstores, hleads⟩, hnearer⟩

/-! ## One operation -/

section Operation

variable {m m' : Machine Memory Memory.Writer} {id : TaskId} {task : Task Memory.Writer}
  {e : Event}

/-- A storage in which nothing goes on, over a store with these items. -/
structure Quiet (items : Items) (m : Machine Memory Memory.Writer) : Prop where
  orderly : Orderly m
  stores : Stores m.world items
  serving : m.pool.Serving none
  ended : ∀ id task, m.task? id = some task → ∃ result, task.phase = .ended result

theorem Quiet.resting (h : Quiet items m) : Resting m := ⟨h.orderly, h.serving, h.ended⟩

/-- An operation that is asked for leads to what the map answers. -/
theorem Quiet.request (h : Quiet items m) (kind : String) (c : Config) (op : Reference.Operation) :
    Busy (toResult (.ofConfig kind c) (op.run c items)) m.nextTask
      (m.run (storing (.ofConfig kind c)) [.request op.request]) := by
  refine h.resting.request ?_ ⟨items, h.stores, .of_operation kind c op items⟩
  cases op <;> rfl

/-- An operation that has ended has come to its result, and nothing goes on any more. -/
theorem Busy.quiet (h : Busy (toResult setup out) id m) (htask : m.task? id = some task)
    {result : Except StoreError Outcome} (hended : task.phase = .ended result) :
    Answers result out.1 ∧ Quiet out.2 m := by
  obtain ⟨⟨items, hstores, hleads⟩, hresting⟩ := h.resting htask hended
  cases hleads with
  | failed hf _ => cases hf
  | ended hanswers hitems =>
    subst hitems
    exact ⟨hanswers, hresting.orderly, hstores, hresting.serving, hresting.ended⟩

end Operation

/-! ## One operation after the other -/

section Sequence

variable {kind : String} {config : Config} {m m' : Machine Memory Memory.Writer}
  {ops : List Reference.Operation} {results : List (Except StoreError Outcome)}

/-- **A whole run.** Operations that are carried out one after the other come to what the map
answers. -/
theorem Quiet.of_completes (h : Quiet items m)
    (hrun : m.Completes (storing (.ofConfig kind config)) ops results m') :
    List.Forall₂ Answers results (Reference.runAll config ops items).1 ∧
      Quiet (Reference.runAll config ops items).2 m' := by
  -- between two operations, the storage is quiet again
  induction hrun generalizing items with
  | nil => exact ⟨.nil, h⟩
  | @cons m m' op ops steps task result results hsteps htask hended _ ih =>
    obtain ⟨hanswers, hquiet⟩ := ((h.request kind config op).run hsteps).quiet htask hended
    obtain ⟨hrest, hlast⟩ := ih hquiet
    exact ⟨.cons hanswers hrest, hlast⟩

theorem Quiet.exists_completes (h : Quiet items m) (ops : List Reference.Operation) :
    ∃ results m', m.Completes (storing (.ofConfig kind config)) ops results m' := by
  induction ops generalizing m items with
  | nil => exact ⟨[], m, .nil⟩
  | cons op ops ih =>
    obtain ⟨steps, hsteps, task, result, htask, hended⟩ :=
      (h.request kind config op).exists_end
    have hquiet := (((h.request kind config op).run hsteps).quiet htask hended).2
    obtain ⟨results, m', hrun⟩ := ih hquiet
    exact ⟨result :: results, m', .cons hsteps htask hended hrun⟩

/-- **A storage over a store in memory is a map.** -/
theorem storage_refines_map {kind : String} {config : Config} (hvalid : config.validate = .ok ())
    {w : Memory} (hw : w.Unfailing) (ops : List Reference.Operation) {size : Nat} (hsize : 1 ≤ size)
    (wait : Option Nat) :
    let config' := { config with poolSize := size, waitSeconds := wait }
    let env : Env Memory Memory.Writer := ⟨.ofConfig kind config', Memory.backend⟩
    ∃ m, connect kind Memory.backend config' w = .ok m ∧
      (∃ results m', m.Completes env ops results m') ∧
      ∀ results m', m.Completes env ops results m' →
        List.Forall₂ Answers results (Reference.runAll config ops (Reference.items w)).1 ∧
          Reference.items m'.world = (Reference.runAll config ops (Reference.items w)).2 := by
  intro config' env
  have hstores : Stores w (Reference.items w) := ⟨hw, rfl⟩
  obtain ⟨hcreated, hresult⟩ := hstores.create
  obtain ⟨m, hconnect⟩ : ∃ m, connect kind Memory.backend config' w = .ok m :=
    exists_connect kind (Config.validate_resize hvalid (Nat.ne_of_gt hsize) wait) hresult
  obtain ⟨-, hpool, -, hworld, -⟩ := connect_eq_ok hconnect
  have hquiet : Quiet (Reference.items w) m := by
    refine ⟨.of_connect hconnect, ?_, .of_new hpool, ?_⟩
    · rw [hworld]
      exact hcreated
    · intro id task htask
      rw [task?_of_connect hconnect] at htask
      cases htask
  refine ⟨m, hconnect, hquiet.exists_completes ops, ?_⟩
  intro results m' hrun
  -- tasks see neither the number of clients nor the time to wait: both are the pool's
  have hrun' : m.Completes (storing (.ofConfig kind config)) ops results m' := hrun
  obtain ⟨hanswers, hlast⟩ := hquiet.of_completes hrun'
  exact ⟨hanswers, hlast.stores.eq⟩

/-- With a single client that is lost by a reading that finds nothing, the next operation finds what
the first one has stored. -/
theorem storage_refines_map_of_missing :
    ∃ (config : Config) (m m' : Machine Memory Memory.Writer)
      (results : List (Except StoreError Outcome)),
      config.poolSize = 1 ∧
      connect "memory" Memory.backend config (.new 1) = .ok m ∧
      m.Completes ⟨.ofConfig "memory" config, Memory.backend⟩
        [.put "x/../a" [.data ⟨#[7]⟩, .pause 5, .data ⟨#[8]⟩], .read "x/a", .read "\\a"]
        results m' ∧
      List.Forall₂ Answers results [.ok .done, .error .notFound, .ok (.data ⟨#[7, 8]⟩)] := by
  let config : Config := { Config.standard with bucket := "b" }
  have hvalid : config.validate = .ok () := Config.validate_standard (by decide)
  have hw : (Memory.new 1).Unfailing := by
    intro call n h
    cases h
  have hreplies : (Reference.runAll config
      [.put "x/../a" [.data ⟨#[7]⟩, .pause 5, .data ⟨#[8]⟩], .read "x/a", .read "\\a"]
      (Reference.items (.new 1))).1 = [.ok .done, .error .notFound, .ok (.data ⟨#[7, 8]⟩)] := by
    rfl
  obtain ⟨m, hconnect, ⟨results, m', hrun⟩, hall⟩ := storage_refines_map hvalid hw
    [.put "x/../a" [.data ⟨#[7]⟩, .pause 5, .data ⟨#[8]⟩], .read "x/a", .read "\\a"]
    (Nat.le_refl 1) (some 0)
  refine ⟨_, m, m', results, rfl, hconnect, hrun, ?_⟩
  rw [← hreplies]
  exact (hall results m' hrun).1

end Sequence

end Depot.Storage
