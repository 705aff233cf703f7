import Depot.Entry.Json
import Depot.Proofs.S3.Errors
import Depot.Proofs.Storage.Schedule

/-!
# Sizes and numbers of entries

A task holds only what its backend has told: no size in it is beyond a limit that holds for the
answers of the backend, and it has visited at most as many entries as it has made steps
(`Turn.bounded`). So neither is there anything beyond in the result that a schedule comes to
(`Schedule.bounded_of_perform`). The sizes that an S3 endpoint tells have 63 bits
(`S3.backend_tellsWithin`).
-/

set_option autoImplicit false

namespace Depot

/-- No object among some items is larger than a limit. -/
def SizesWithin (limit : Nat) (items : List Listed) : Prop :=
  ∀ a, Listed.object a ∈ items → a.size ≤ limit

/-- A backend tells of no object that is larger than a limit. -/
structure Backend.TellsWithin {World Writer : Type} (limit : Nat) (b : Backend World Writer) :
    Prop where
  list : ∀ c q w page, (b.list c q w).result = .ok page → SizesWithin limit page.items
  attributes : ∀ c bucket key w a, (b.attributes c bucket key w).result = .ok a → a.size ≤ limit

/-- Some entries are not larger than a limit each, and there are not more of them than a number. -/
structure EntriesBounded (limit k : Nat) (entries : List Entry) : Prop where
  size : ∀ e ∈ entries, e.size ≤ limit
  length : entries.length ≤ k

section Walk

variable {limit k : Nat} {w w' : Walk}

theorem EntriesBounded.succ {entries : List Entry} (h : EntriesBounded limit k entries) :
    EntriesBounded limit (k + 1) entries :=
  ⟨h.size, Nat.le_succ_of_le h.length⟩

/-- What a walk was told and has visited is bounded. -/
structure Walk.Bounded (limit k : Nat) (w : Walk) : Prop where
  buffered : SizesWithin limit w.cursor.buffered
  visited : EntriesBounded limit k w.visited

theorem Walk.Bounded.succ (h : w.Bounded limit k) : w.Bounded limit (k + 1) :=
  ⟨h.buffered, h.visited.succ⟩

theorem Walk.bounded_ofQuery (q : Query) (visitor : Visitor) :
    (Walk.ofQuery q visitor).Bounded limit k where
  buffered _ h := absurd h List.not_mem_nil
  visited := ⟨fun _ h => absurd h List.not_mem_nil, Nat.zero_le k⟩

/-- The entry of an item is as large as the item. -/
theorem Listed.size_entry_le {lead : String} {i : Listed} {items : List Listed}
    (h : SizesWithin limit items) (hi : i ∈ items) : (i.entry lead).size ≤ limit := by
  cases i with
  | group key => exact Nat.zero_le limit
  | object a => exact h a hi

/-- An item is taken from those that were received, and its entry is visited. -/
theorem Walk.Bounded.take {i : Listed} {rest : Cursor} (h : w.Bounded limit k)
    (hnext : w.cursor.next = .item i rest) :
    Walk.Bounded limit (k + 1)
      { w with cursor := rest, visited := i.entry w.lead :: w.visited } := by
  obtain ⟨items, hbuffered, rfl⟩ := Cursor.next_eq_item_iff.1 hnext
  have hsizes := h.buffered
  rw [hbuffered] at hsizes
  refine ⟨fun a ha => hsizes a (List.mem_cons_of_mem i ha), ?_, Nat.succ_le_succ h.visited.length⟩
  intro e he
  rcases List.mem_cons.1 he with rfl | hold
  · exact Listed.size_entry_le hsizes List.mem_cons_self
  · exact h.visited.size e hold

/-- A walk visits at most one entry with a step. -/
theorem Walk.Bounded.visit (h : w.Bounded limit k) (hstep : w.step = .visited w') :
    w'.Bounded limit (k + 1) := by
  unfold Walk.step at hstep
  split at hstep
  · cases hstep
  · cases hstep
  · rename_i i rest hnext
    dsimp only at hstep
    split at hstep
    · cases hstep
      exact h.take hnext
    · cases hstep

theorem Walk.Bounded.finish {result : Except StoreError Unit} (h : w.Bounded limit k)
    (hstep : w.step = .finished w' result) : EntriesBounded limit (k + 1) w'.visited := by
  unfold Walk.step at hstep
  split at hstep
  · cases hstep
  · cases hstep
    exact h.visited.succ
  · rename_i i rest hnext
    dsimp only at hstep
    split at hstep
    · cases hstep
    · cases hstep
      exact (h.take hnext).visited

theorem Walk.Bounded.receive {page : Page} (h : w.Bounded limit k)
    (hpage : SizesWithin limit page.items) : (w.receive page).Bounded limit k := by
  refine ⟨?_, h.visited⟩
  intro a ha
  rcases List.mem_append.1 ha with hold | hnew
  · exact h.buffered a hold
  · exact hpage a hnew

end Walk

namespace Storage

variable {World Writer : Type} {env : Env World Writer} {m m' : Machine World Writer}
  {task : Task Writer} {n : Next World Writer} {limit k : Nat}

/-! ## Tasks -/

/-- What a request came to tells of no size beyond a limit. -/
def Outcome.Bounded (limit : Nat) : Outcome → Prop
  | entry e => e.size ≤ limit
  | count n => n ≤ limit
  | _ => True

/-- A request has failed, or has come to something that is bounded. -/
def ResultBounded (limit : Nat) (result : Except StoreError Outcome) : Prop :=
  ∀ o, result = .ok o → o.Bounded limit

/-- A walk to be made has visited nothing beyond a bound so far. -/
def Goal.Bounded (limit k : Nat) : Goal → Prop
  | walk w => w.Bounded limit k
  | _ => True

/-- What a task in a phase was told is bounded. -/
def Phase.Bounded (limit k : Nat) : Phase Writer → Prop
  | line g => g.Bounded limit k
  | rejected g _ => g.Bounded limit k
  | created g _ => g.Bounded limit k
  | lent g => g.Bounded limit k
  | walking w => w.Bounded limit k
  | listed w reply => w.Bounded limit k ∧ ∀ page, reply = .ok page → SizesWithin limit page.items
  | found reply => ∀ a, reply = .ok a → a.size ≤ limit
  | measured _ _ _ reply => ∀ a, reply = .ok a → a.size ≤ limit
  | copied _ _ _ size _ => size ≤ limit
  | invalidated _ result => ResultBounded limit result
  | disconnected result => ResultBounded limit result
  | closing _ result => ResultBounded limit result
  | ended result => ResultBounded limit result
  | _ => True

/-- All that a task was told is bounded, and so is the number of entries that it has visited. -/
structure Task.Bounded (limit k : Nat) (task : Task Writer) : Prop where
  phase : task.phase.Bounded limit k
  visited : EntriesBounded limit k task.visited

/-- The work of a step comes to something that is bounded. -/
def Work.Bounded (limit k : Nat) : Work World Writer → Prop
  | keep phase _ _ visited => phase.Bounded limit k ∧ EntriesBounded limit k visited
  | giveBack phase _ visited => phase.Bounded limit k ∧ EntriesBounded limit k visited
  | destroy _ _ visited => EntriesBounded limit k visited

theorem resultBounded_error (e : StoreError) : ResultBounded limit (.error e) := by
  intro o h
  cases h

theorem resultBounded_ok {o : Outcome} (h : o.Bounded limit) : ResultBounded limit (.ok o) := by
  rintro _ ⟨⟩
  exact h

theorem Goal.Bounded.succ {g : Goal} (h : g.Bounded limit k) : g.Bounded limit (k + 1) := by
  cases g with
  | walk w => exact Walk.Bounded.succ h
  | _ => trivial

theorem Phase.Bounded.succ {phase : Phase Writer} (h : phase.Bounded limit k) :
    phase.Bounded limit (k + 1) := by
  cases phase with
  | line g | rejected g _ | created g _ | lent g => exact Goal.Bounded.succ h
  | walking w => exact Walk.Bounded.succ h
  | listed w reply => exact ⟨h.1.succ, h.2⟩
  | _ => exact h

theorem Task.Bounded.succ (h : task.Bounded limit k) : task.Bounded limit (k + 1) :=
  ⟨h.phase.succ, h.visited.succ⟩

/-! ## Steps -/

/-- What a client is borrowed for begins with nothing visited. -/
theorem Request.bounded_of_goal {setup : Setup} {r : Request} {g : Goal}
    (h : r.goal setup = some (.ok g)) : g.Bounded limit k := by
  cases r with
  | walk path recursive visitor =>
    cases h
    exact Walk.bounded_ofQuery _ _
  | deleteDisk path | copy _ _ path =>
    simp only [goal] at h
    cases hkey : setup.roots.diskKey path with
    | error e => simp [hkey, Except.map] at h
    | ok key =>
      rw [hkey] at h
      cases h
      trivial
  | invalidate | closePool | close => cases h
  | _ =>
    cases h
    trivial

theorem Asks.bounded {g : Goal} {t : Ticket} {p : Pool} {progress : Pool.Progress}
    (hask : Asks env m task g t p progress) (h : task.phase.Bounded limit k) :
    g.Bounded limit k := by
  cases hask with
  | request _ hgoal _ => exact Request.bounded_of_goal hgoal
  | proceed hphase _ _ _ | rejected hphase _ _ | created hphase _ _ =>
    rw [hphase] at h
    exact h

theorem Acquires.bounded {g : Goal} {t : Ticket} {p : Pool} {progress : Pool.Progress}
    (hacq : Acquires env m task g t p progress n) (hg : g.Bounded limit k)
    (hv : EntriesBounded limit k task.visited) : n.task.Bounded limit k := by
  cases hacq with
  | refuse => exact ⟨resultBounded_error _, hv⟩
  | _ => exact ⟨hg, hv⟩

/-- What a task works out with its client is bounded if what it has, and what the backend tells it,
is. -/
theorem Works.bounded {c : Client} {w : World} {visited : List Entry} {phase : Phase Writer}
    {work : Work World Writer} (hworks : Works env c w visited phase work)
    (hb : env.backend.TellsWithin limit) (hphase : phase.Bounded limit k)
    (hv : EntriesBounded limit k visited) : work.Bounded limit (k + 1) := by
  have hv' := hv.succ
  -- walks carry what was told, answers come from the backend, and failures keep the visited entries
  cases hworks with
  | walk => exact ⟨Walk.Bounded.succ hphase, hv'⟩
  | look ha =>
    exact ⟨fun a e => hb.attributes _ _ _ _ a (ha ▸ e), hv'⟩
  | measure ha =>
    exact ⟨fun a e => hb.attributes _ _ _ _ a (ha ▸ e), hv'⟩
  | ask _ ha =>
    have hwalk := Walk.Bounded.succ hphase
    exact ⟨⟨hwalk, fun page e => hb.list _ _ _ page (ha ▸ e)⟩, hwalk.visited⟩
  | visit hstep =>
    have hwalk := Walk.Bounded.visit hphase hstep
    exact ⟨hwalk, hwalk.visited⟩
  | walked hstep => exact ⟨resultBounded_ok trivial, Walk.Bounded.finish hphase hstep⟩
  | stopped hstep => exact Walk.Bounded.finish hphase hstep
  | listed => exact ⟨hphase.1.succ.receive (hphase.2 _ rfl), hv'⟩
  | found => exact ⟨resultBounded_ok (hphase _ rfl), hv'⟩
  | missing _ => exact ⟨resultBounded_error _, hv'⟩
  | copy _ => exact ⟨hphase _ rfl, hv'⟩
  | copied => exact ⟨resultBounded_ok hphase, hv'⟩
  | completed | deleted => exact ⟨resultBounded_ok trivial, hv'⟩
  | unlisted | unopened | unaccepted | broken _ | unwritten _ | unflushed | incomplete | unfound _
    | undeleted | unmeasured | uncopied => exact hv'
  | _ => exact ⟨trivial, hv'⟩

theorem Settles.bounded {t : Ticket} {c : Client} {work : Work World Writer}
    (hs : Settles env m task t c work n) (h : work.Bounded limit k) :
    n.task.Bounded limit k := by
  cases hs with
  | keep _ | giveBack _ _ | giveLate _ _ => exact ⟨h.1, h.2⟩
  | destroy _ _ _ => exact ⟨resultBounded_error _, h⟩

theorem Drains.bounded {rest : Stream} {data : ByteArray} {phase : Phase Writer} {delay : Nat}
    (h : Drains rest data phase delay) : phase.Bounded limit k := by
  cases h with
  | read _ | pause _ => trivial
  | broken _ | finished _ => exact resultBounded_ok trivial

theorem Shuts.bounded {phase : Phase Writer} {result : Except StoreError Outcome}
    (hs : Shuts phase result) (h : phase.Bounded limit k) : ResultBounded limit result := by
  cases hs with
  | closePool => exact resultBounded_ok trivial
  | disconnected => exact h

/-- **One step.** A task that has made a step has visited at most one more entry, and no size in it
is beyond what the backend tells. -/
theorem Turn.bounded (hturn : Turn env m task n) (hb : env.backend.TellsWithin limit)
    (h : task.Bounded limit k) : n.task.Bounded limit (k + 1) := by
  have hv' := h.visited.succ
  cases hturn with
  | deny _ _ => exact ⟨resultBounded_error _, hv'⟩
  | acquire hask hacq => exact hacq.bounded (hask.bounded h.phase).succ hv'
  | work _ _ _ hworks hs => exact hs.bounded (hworks.bounded hb h.phase h.visited)
  | drain _ hdrains _ => exact ⟨hdrains.bounded, hv'⟩
  | shut hs _ | drainPool hs _ _ _ => exact ⟨hs.bounded h.phase, hv'⟩
  | invalidated hphase _ | closeNext hphase _ _ _ _ | closeLast hphase _ _ =>
    have hresult := h.phase
    rw [hphase] at hresult
    exact ⟨hresult, hv'⟩
  | @disconnect c a alarm _ _ _ _ =>
    refine ⟨?_, hv'⟩
    dsimp only
    cases a.result with
    | ok _ => exact resultBounded_ok trivial
    | error e => exact resultBounded_error e
  | apart _ _ | destroyed _ _ => exact ⟨resultBounded_ok trivial, hv'⟩
  | startDestroy _ _ _ _ _ _ => exact ⟨trivial, hv'⟩

/-- **What a schedule comes to.** With so many rounds, a request that has a storage to itself visits
at most as many entries as it can make steps, and nothing that it comes to tells of a size beyond
what the backend tells. -/
theorem Schedule.bounded_of_perform (ho : Orderly m) {r : Request} (hr : r.isOperation = true)
    (hb : env.backend.TellsWithin limit) {fuel : Nat} {time : Option Nat}
    {s' : Schedule World Writer} {result : Except StoreError Outcome} {visited : List Entry}
    (h : (ofMachine m).perform env fuel r time = (s', some (.done result visited))) :
    ResultBounded limit result ∧ EntriesBounded limit (fuel * fuel) visited := by
  obtain ⟨m', task, hmoves, htask, hphase, rfl⟩ := ends_of_perform h
  have ho' : Orderly (m.happen env (.request r)) := by
    apply ho.happen
    rintro _ ⟨⟩
    exact hr
  have hnew : ∀ task, (m.add (.ofRequest Writer r)).task? m.nextTask = some task →
      task.Bounded limit 0 := by
    intro task htask
    rw [ho.task?_request r] at htask
    cases htask
    exact ⟨trivial, fun _ h => absurd h List.not_mem_nil, Nat.le_refl 0⟩
  -- what is kept is a bound that grows with the number of steps
  obtain ⟨-, -, hbounded⟩ := ho'.moves (P := fun k task => task.Bounded limit k)
    (Nat.lt_succ_self m.nextTask) (fun _ _ h => h.succ) (fun _ _ _ _ hturn h => hturn.bounded hb h)
    hnew hmoves
  have hend := hbounded task htask
  have hresult := hend.phase
  rw [hphase] at hresult
  refine ⟨hresult, ?_, ?_⟩
  · intro e he
    exact hend.visited.size e (List.mem_reverse.1 he)
  · rw [List.length_reverse]
    exact hend.visited.length

end Storage

/-! ## A store behind an endpoint -/

namespace S3

variable {State α : Type}

/-- What was told of a number that has a sign is within 64 bits. -/
theorem toNatClampNeg_le (n : Int64) : n.toNatClampNeg ≤ Entry.maxSize :=
  Nat.le_trans (Nat.le_of_lt n.toNatClampNeg_lt) (by decide)

theorem sizesWithin_page {r : Response} {page : Page} (h : r.page = .ok page) :
    SizesWithin Entry.maxSize page.items := by
  unfold Response.page at h
  split at h
  · cases h
    intro a ha
    simp only [Response.pageOf, Response.merge, List.mem_mergeSort, List.mem_append, List.mem_map,
      List.mem_filterMap, Response.object?, Option.map_eq_some_iff] at ha
    rcases ha with ⟨_, -, hgroup⟩ | ⟨_, ⟨o, -, key, -, rfl⟩, hobject⟩
    · cases hgroup
    · cases hobject
      exact toNatClampNeg_le _
  · cases h

/-- An endpoint tells of no size of more than 64 bits. -/
theorem backend_tellsWithin (network : Network State) (access : Access) :
    (backend network access).TellsWithin Entry.maxSize where
  list c q w page h := by
    obtain ⟨-, response, -, huse⟩ := exists_response_of_ok h
    cases hreceived : response.received with
    | error f => simp [hreceived, Except.bind] at huse
    | ok received =>
      rw [hreceived] at huse
      exact sizesWithin_page huse
  attributes c bucket key w a h := by
    obtain ⟨-, response, -, huse⟩ := exists_response_of_ok h
    cases hreceived : response.receivedHead with
    | error f => simp [hreceived, Except.map] at huse
    | ok received =>
      rw [hreceived] at huse
      cases huse
      exact toNatClampNeg_le _

end S3

end Depot
