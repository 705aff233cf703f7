import Depot.Memory.Writing
import Depot.Proofs.Memory

/-!
# Objects are stored by completing them

A writer has gathered the chunks that were written since it last stored an object, through any
number of failures, and through whatever happens to the store meanwhile (`Holds.run`). It fails to
complete the object as often as that was ordered, and loses nothing by it (`finish_of_ordered`).
The main statement is `stored_by_finish`.
-/

set_option autoImplicit false

namespace Depot.Memory

variable {m : Memory} {c : Client} {call : Call} {n : Nat} {w : Writer}

/-! ## Ordered failures -/

theorem takeFailure_of_none (h : m.ordered call = 0) : m.takeFailure call = (m, false) := by
  unfold ordered at h
  unfold takeFailure
  cases hlookup : m.failures.lookup call with
  | none => rfl
  | some k =>
    rw [hlookup] at h
    obtain rfl : k = 0 := h
    rfl

theorem takeFailure_of_ordered (h : m.ordered call = n + 1) :
    m.takeFailure call =
      ({ m with failures := (call, n) :: m.failures.filter (·.1 ≠ call) }, true) := by
  unfold ordered at h
  unfold takeFailure
  cases hlookup : m.failures.lookup call with
  | none =>
    rw [hlookup] at h
    cases h
  | some k =>
    rw [hlookup] at h
    obtain rfl : k = n + 1 := h
    rfl

/-- A completion for which no failure is ordered stores what was gathered. -/
theorem finish_of_none (h : m.ordered .finish = 0) :
    finish w m = ({ w with buffer := .empty },
      .now { m with
        served := w.client :: m.served
        objects := m.objects.insert w.location ⟨w.buffer, m.clock, w.options⟩ } (.ok ())) := by
  have htake : takeFailure { m with served := w.client :: m.served } .finish =
      ({ m with served := w.client :: m.served }, false) := takeFailure_of_none h
  simp only [finish, enter, htake]
  rfl

/-- A completion that was ordered to fail takes one of the failures, and nothing else changes that
an object could depend on. -/
theorem finish_of_ordered (w : Writer) (h : m.ordered .finish = n + 1) :
    ∃ m', finish w m = (w, .now m' (.error (Writing.refusal w.location.key))) ∧
      m'.objects = m.objects ∧ m'.clock = m.clock ∧ m'.ordered .finish = n := by
  have htake := takeFailure_of_ordered (m := { m with served := w.client :: m.served }) h
  refine ⟨{ m with
    served := w.client :: m.served
    failures := (.finish, n) :: m.failures.filter (·.1 ≠ .finish) }, ?_, rfl, rfl, ?_⟩
  · simp only [finish, enter, htake]
    rfl
  · rw [ordered, List.lookup_cons]
    rfl

namespace Writing

variable {d : Writing} {k : Nat}

/-! ## Chunks that are not stored yet -/

theorem joined_concat (chunks : List ByteArray) (chunk : ByteArray) :
    joined (chunks ++ [chunk]) = joined chunks ++ chunk := by
  simp only [joined, List.foldl_append, List.foldl_cons, List.foldl_nil]

theorem unstored_wrote (events : List Event) (chunk : ByteArray) (reply : Except IoError Nat) :
    unstored (events ++ [.wrote chunk reply]) = unstored events ++ [chunk] := by
  simp [unstored, Event.isStored, Event.chunk?]

theorem unstored_failed (events : List Event) (e : StoreError) :
    unstored (events ++ [.finished (.error e)]) = unstored events := by
  simp [unstored, Event.isStored, Event.chunk?]

theorem unstored_stored (events : List Event) :
    unstored (events ++ [.finished (.ok ())]) = [] := by
  simp [unstored, Event.isStored]

/-! ## One move -/

theorem run_append (d : Writing) (moves more : List Move) :
    d.run (moves ++ more) = (d.run moves).run more :=
  List.foldl_append

theorem move_finish_of_none (h : d.store.ordered .finish = 0) :
    d.move .finish = ⟨{ d.writer with buffer := .empty },
      { d.store with
        served := d.writer.client :: d.store.served
        objects := d.store.objects.insert d.writer.location
          ⟨d.writer.buffer, d.store.clock, d.writer.options⟩ },
      d.events ++ [.finished (.ok ())]⟩ := by
  have hfinish := finish_of_none (w := d.writer) h
  simp only [move, backend, hfinish]
  rfl

theorem move_finish_of_ordered (h : d.store.ordered .finish = n + 1) :
    ∃ m', d.move .finish = ⟨d.writer, m',
        d.events ++ [.finished (.error (refusal d.writer.location.key))]⟩ ∧
      m'.objects = d.store.objects ∧ m'.clock = d.store.clock ∧ m'.ordered .finish = n := by
  obtain ⟨m', hfinish, hm'⟩ := finish_of_ordered d.writer h
  refine ⟨m', ?_, hm'⟩
  simp only [move, backend, hfinish]
  rfl

/-- A writer of a client at a location has gathered what is not stored yet. -/
def Holds (c : Client) (l : Location) (options : WriteOptions) (d : Writing) : Prop :=
  d.writer = ⟨c, l, options, joined (unstored d.events)⟩

variable {l : Location} {options : WriteOptions}

/-- **Every move** leaves with a writer what is not stored yet, a failure and the end of an upload
included. -/
theorem Holds.move (h : d.Holds c l options) (x : Move) : (d.move x).Holds c l options := by
  cases x with
  | write chunk =>
    have hchunks : unstored (d.move (.write chunk)).events = unstored d.events ++ [chunk] :=
      unstored_wrote d.events chunk _
    rw [Holds, hchunks, joined_concat]
    exact congrArg (fun w : Writer => { w with buffer := w.buffer ++ chunk }) h
  | finish =>
    cases hordered : d.store.ordered .finish with
    | zero =>
      rw [move_finish_of_none hordered, Holds, unstored_stored, h]
      rfl
    | succ n =>
      obtain ⟨m', hmove, -⟩ := move_finish_of_ordered hordered
      rw [hmove, Holds, unstored_failed]
      exact h
  | order call times => exact h
  | change change => exact h

/-- What a writer holds in the course of any moves. -/
theorem Holds.run (h : d.Holds c l options) (moves : List Move) :
    (d.run moves).Holds c l options := by
  induction moves generalizing d with
  | nil => exact h
  | cons x moves ih => exact ih (h.move x)

/-- Of the moves of a writer, those that store an object change the objects, and no others. -/
theorem eq_finish_of_changes {x : Move} (hx : ∀ change, x ≠ .change change)
    (h : (d.move x).store.objects ≠ d.store.objects) :
    x = .finish ∧ (d.move x).events = d.events ++ [.finished (.ok ())] := by
  cases x with
  | write chunk => exact absurd rfl h
  | order call times => exact absurd rfl h
  | change change => exact absurd rfl (hx change)
  | finish =>
    refine ⟨rfl, ?_⟩
    cases hordered : d.store.ordered .finish with
    | zero => rw [move_finish_of_none hordered]
    | succ n =>
      obtain ⟨m', hmove, hobjects, -⟩ := move_finish_of_ordered hordered
      rw [hmove] at h
      exact absurd hobjects h

/-- The object is completed again and again until no failure is left. -/
theorem run_finish (h : d.store.ordered .finish = k) :
    ∃ m', d.run (List.replicate k .finish) = ⟨d.writer, m',
        d.events ++ List.replicate k (.finished (.error (refusal d.writer.location.key)))⟩ ∧
      m'.objects = d.store.objects ∧ m'.clock = d.store.clock ∧ m'.ordered .finish = 0 := by
  -- each try takes one failure, so the writer is the same before the next one with one less
  induction k generalizing d with
  | zero =>
    refine ⟨d.store, ?_, rfl, rfl, h⟩
    rw [List.replicate_zero, List.replicate_zero, List.append_nil]
    rfl
  | succ k ih =>
    obtain ⟨m₁, hmove, hobjects, hclock, hordered⟩ := move_finish_of_ordered h
    have hleft : (d.move .finish).store.ordered .finish = k := by
      rw [hmove]
      exact hordered
    obtain ⟨m', hrun, hobjects', hclock', hnone⟩ := ih hleft
    rw [hmove] at hrun hobjects' hclock'
    refine ⟨m', ?_, hobjects'.trans hobjects, hclock'.trans hclock, hnone⟩
    rw [List.replicate_succ, List.replicate_succ, run, List.foldl_cons, hmove]
    refine hrun.trans ?_
    rw [List.append_assoc]
    rfl

/-! ## From the opening of a writer -/

/-- **A writer stores by completing its object.** It is opened at a location, and then any moves are
made. What it has gathered are the chunks that are not stored yet. Of its moves only a completion
that succeeds changes the objects: it stores these chunks where the writer was opened, with the
options that it was opened with. A completion fails as long as failures are ordered, with an error
that names the key, and leaves the writer as it was. So once it was tried often enough, all is
stored. -/
theorem stored_by_finish {bucket key : String}
    (hopen : (backend.openWriter c bucket key options m).result = .ok w) (moves : List Move)
    (hd : (start w (backend.openWriter c bucket key options m).world).run moves = d) :
    d.writer = ⟨c, ⟨bucket, key⟩, options, joined (unstored d.events)⟩ ∧
    (∀ chunk, (d.move (.write chunk)).events = d.events ++ [.wrote chunk (.ok chunk.size)]) ∧
    (∀ x, (∀ change, x ≠ .change change) → (d.move x).store.objects ≠ d.store.objects →
      x = .finish ∧ (d.move x).events = d.events ++ [.finished (.ok ())]) ∧
    (0 < d.store.ordered .finish →
      (d.move .finish).events = d.events ++ [.finished (.error (refusal key))] ∧
      (d.move .finish).writer = d.writer ∧
      (d.move .finish).store.ordered .finish + 1 = d.store.ordered .finish) ∧
    (d.store.ordered .finish = 0 →
      (d.move .finish).events = d.events ++ [.finished (.ok ())] ∧
      (d.move .finish).store.objects = d.store.objects.insert ⟨bucket, key⟩
        ⟨joined (unstored d.events), d.store.clock, options⟩) ∧
    ∀ retried, d.run (List.replicate (d.store.ordered .finish + 1) .finish) = retried →
      retried.events = d.events ++
        (List.replicate (d.store.ordered .finish) (.finished (.error (refusal key))) ++
          [.finished (.ok ())]) ∧
      retried.store.objects = d.store.objects.insert ⟨bucket, key⟩
        ⟨joined (unstored d.events), d.store.clock, options⟩ := by
  have hstart : (start w (backend.openWriter c bucket key options m).world).Holds c ⟨bucket, key⟩
      options := eq_of_openWriter hopen
  have hwriter : d.writer = ⟨c, ⟨bucket, key⟩, options, joined (unstored d.events)⟩ := by
    rw [← hd]
    exact hstart.run moves
  have hkey : d.writer.location.key = key := by rw [hwriter]
  refine ⟨hwriter, fun _ => rfl, fun _ => eq_finish_of_changes, ?_, ?_, ?_⟩
  · intro hordered
    obtain ⟨n, hn⟩ := Nat.exists_eq_add_one_of_ne_zero (Nat.ne_of_gt hordered)
    obtain ⟨m', hmove, -, -, hleft⟩ := move_finish_of_ordered hn
    rw [hmove, hkey]
    refine ⟨rfl, rfl, ?_⟩
    rw [hn]
    exact congrArg (· + 1) hleft
  · intro hordered
    rw [move_finish_of_none hordered, hwriter]
    exact ⟨rfl, rfl⟩
  · -- the last completion comes behind all failures, and finds the objects and the clock unchanged
    rintro retried rfl
    obtain ⟨m', hrun, hobjects, hclock, hnone⟩ := run_finish (d := d) rfl
    have hlast : d.run (List.replicate (d.store.ordered .finish + 1) .finish) =
        (d.run (List.replicate (d.store.ordered .finish) .finish)).move .finish := by
      rw [List.replicate_succ', run_append]
      rfl
    rw [hlast, hrun, move_finish_of_none hnone, hkey, hwriter]
    refine ⟨List.append_assoc _ _ _, ?_⟩
    show m'.objects.insert _ ⟨_, m'.clock, _⟩ = _
    rw [hobjects, hclock]

/-- Two failures are ordered behind the first chunk, and the object is completed in vain before the
second chunk is written. Completing it twice more stores both. -/
theorem stored_by_finish_of_refusals :
    ∃ (m : Memory) (w : Writer) (options : WriteOptions) (moves : List Move) (d : Writing),
      options ≠ ⟨none, []⟩ ∧ (backend.openWriter 1 "b" "k" options m).result = .ok w ∧
      moves = [.write "a".toUTF8, .order .finish 2, .finish, .write "b".toUTF8] ∧
      (start w (backend.openWriter 1 "b" "k" options m).world).run moves = d ∧
      d.store.ordered .finish = 1 ∧ d.store.objects.get? ⟨"b", "k"⟩ = none ∧
      (d.run [.finish, .finish]).store.objects.get? ⟨"b", "k"⟩ =
        some ⟨"ab".toUTF8, d.store.clock, options⟩ := by
  let options : WriteOptions := ⟨some "COLD", [("owner", "db")]⟩
  let m : Memory := .new 1
  let w : Writer := ⟨1, ⟨"b", "k"⟩, options, .empty⟩
  let moves : List Move := [.write "a".toUTF8, .order .finish 2, .finish, .write "b".toUTF8]
  let d := (start w (backend.openWriter 1 "b" "k" options m).world).run moves
  have hopen : (backend.openWriter 1 "b" "k" options m).result = .ok w := rfl
  have hordered : d.store.ordered .finish = 1 := rfl
  obtain ⟨-, -, -, -, -, hretried⟩ := stored_by_finish (d := d) hopen moves rfl
  obtain ⟨-, hstored⟩ := hretried (d.run [.finish, .finish]) (by rw [hordered]; rfl)
  refine ⟨m, w, options, moves, d, by decide, hopen, rfl, rfl, hordered, rfl, ?_⟩
  rw [hstored]
  rfl

end Writing

end Depot.Memory
