import Depot.Proofs.Storage.Course
import Depot.Proofs.Storage.Shared
import Depot.Proofs.Stream

/-!
# Whoever has a client comes to an end

A task that has borrowed a client for a single object is nearer to its end with every step that it
makes, whatever the store answers and whatever others do meanwhile (`Turn.nearer`). So its own steps
bring it to its end (`Orderly.endsAlone`), and where it has been it does not come again
(`Orderly.eq_or_nearer`). Walks are left out: how long they go on is up to the store.
-/

set_option autoImplicit false

namespace Depot

/-- What is read is taken off what is still to be read. -/
theorem Stream.weight_add_size_le_of_pull {limit : Nat} {s rest : Stream} {bytes : ByteArray}
    (h : pull limit s = .data bytes rest) : rest.weight + bytes.size ≤ s.weight := by
  induction s with
  | nil => cases h
  | cons chunk tail ih =>
    cases chunk with
    | pause ms => cases h
    | fail e =>
      rw [pull] at h
      split at h
      · have hle := ih h
        simp only [weight]
        omega
      · cases h
    | data piece =>
      rw [pull] at h
      split at h
      · cases h
      · split at h
        · cases h
          simp only [weight]
          omega
        · cases h
          simp only [weight, ByteArray.size_extract]
          omega

/-- A read that yields data yields some. -/
theorem Stream.size_ne_zero_of_pull {limit : Nat} {s rest : Stream} {bytes : ByteArray}
    (hlimit : 0 < limit) (h : pull limit s = .data bytes rest) : bytes.size ≠ 0 := by
  induction s with
  | nil => cases h
  | cons chunk tail ih =>
    cases chunk with
    | pause ms => cases h
    | fail e =>
      rw [pull] at h
      split at h
      · exact ih h
      · cases h
    | data piece =>
      rw [pull] at h
      split at h
      · cases h
      · rename_i hsize
        split at h
        · cases h
          exact hsize
        · cases h
          rw [ByteArray.size_extract]
          omega

namespace Storage

variable {World Writer : Type}

/-! ## What is left to be done -/

/-- Whether a task in a phase has borrowed a client for a single object, or has done so before. -/
def Phase.isUnderWay : Phase Writer → Bool
  | lent .keep => false
  | lent (.walk _) => false
  | lent _ => true
  | opened _ => true
  | draining _ _ => true
  | accepted _ _ _ => true
  | uploading _ => true
  | wrote _ _ => true
  | flushed _ _ => true
  | completed _ _ => true
  | found _ => true
  | deleted _ _ => true
  | measured _ _ _ _ => true
  | copied _ _ _ _ _ => true
  | invalidated _ _ => true
  | ended _ => true
  | _ => false

/-- How much there is to be done in a phase. A piece of an upload is read, written and taken note
of, maybe a byte at a time. -/
def Phase.toDo : Phase Writer → Nat
  | uploading u => 5 * u.source.weight + if u.buffer.size = 0 then 0 else 2 * u.buffer.size + 2
  | wrote u _ => 5 * u.source.weight + 2 * u.buffer.size + 1
  | draining rest _ => rest.weight
  | _ => 0

/-- A phase is nearer to the end of a task than another one. -/
abbrev Phase.Ahead (phase phase' : Phase Writer) : Prop :=
  phase.Nearer Phase.toDo Phase.toDo phase'

theorem Phase.Ahead.trans {phase phase' phase'' : Phase Writer} (h : phase.Ahead phase')
    (h' : phase'.Ahead phase'') : phase.Ahead phase'' := by
  rcases Prod.lex_def.1 h with hlt | ⟨heq, hlt⟩
  · rcases Prod.lex_def.1 h' with hlt' | ⟨heq', -⟩
    · exact Phase.nearer_of_lt (Nat.lt_trans hlt hlt')
    · exact Phase.nearer_of_lt (Nat.lt_of_lt_of_eq hlt heq')
  · rcases Prod.lex_def.1 h' with hlt' | ⟨heq', hlt'⟩
    · exact Phase.nearer_of_lt (Nat.lt_of_le_of_lt (Nat.le_of_eq heq) hlt')
    · exact Phase.nearer_of_eq (heq.trans heq') (Nat.lt_trans hlt hlt')

/-- Of two phases in the same part, in which there is nothing to do, none is ahead. -/
theorem Phase.not_ahead {phase phase' : Phase Writer} (hpart : phase.part = phase'.part)
    (hdone : phase'.toDo = 0) : ¬ phase.Ahead phase' := by
  intro h
  rcases Prod.lex_def.1 h with hlt | ⟨-, hlt⟩
  · exact absurd hpart (Nat.ne_of_lt hlt)
  · exact absurd hdone (Nat.ne_of_gt (Nat.zero_lt_of_lt hlt))

/-! ## One step -/

section Works

variable {env : Env World Writer} {c : Client} {w : World} {visited : List Entry}
  {k : Work World Writer}

/-- The places where a task is under way. -/
abbrev UnderWay : Where World Writer := fun _ _ phase => phase.isUnderWay = true

/-- The work of a step, by a task that is under way, is nearer to the end. -/
abbrev Work.IsAhead (env : Env World Writer) (phase : Phase Writer) (k : Work World Writer) :
    Prop :=
  k.Reaches env UnderWay (fun _ => Phase.toDo) Phase.toDo phase

/-- An upload reads a piece only when the last one is written. -/
theorem Works.ahead_of_uploading {u : Upload Writer} (h : Works env c w visited (.uploading u) k) :
    k.IsAhead env (.uploading u) := by
  cases h with
  | write hstep _ =>
    obtain ⟨-, hsize⟩ := Upload.eq_of_step_write hstep
    refine ⟨rfl, Phase.nearer_of_eq rfl ?_⟩
    simp only [Phase.toDo, if_neg hsize]
    omega
  | read hstep =>
    obtain ⟨hsize, bytes, rest, hpull, rfl⟩ := Upload.pull_of_step_read hstep
    have hless := Stream.weight_add_size_le_of_pull hpull
    have hsome := Stream.size_ne_zero_of_pull (by decide) hpull
    refine ⟨rfl, Phase.nearer_of_eq rfl ?_⟩
    simp only [Phase.toDo, if_pos hsize, if_neg hsome]
    omega
  | pause hstep =>
    obtain ⟨hsize, rest, hpull, rfl⟩ := Upload.pull_of_step_pause hstep
    have hless := Stream.weight_lt_of_pull (by decide) (congrArg Stream.Pull.rest? hpull)
    refine ⟨rfl, Phase.nearer_of_eq rfl ?_⟩
    simp only [Phase.toDo, if_pos hsize]
    omega
  | flush _ _ => exact ⟨rfl, Phase.nearer_of_lt (by simp [Phase.part])⟩
  | broken _ => exact fun _ => rfl

/-- A writer that takes something leaves less to be written. -/
theorem Works.ahead_of_wrote {u : Upload Writer} {reply : Except IoError Nat}
    (h : Works env c w visited (.wrote u reply) k) : k.IsAhead env (.wrote u reply) := by
  cases h with
  | wrote hwrote =>
    obtain ⟨hn, rfl⟩ := Upload.eq_of_wrote hwrote
    refine ⟨rfl, Phase.nearer_of_eq rfl ?_⟩
    simp only [Phase.toDo, ByteArray.size_extract]
    split <;> omega
  | unwritten _ => exact fun _ => rfl

/-- **The work of a step brings a task nearer to its end.** -/
theorem Works.ahead {phase : Phase Writer} (h : Works env c w visited phase k)
    (hway : phase.isUnderWay = true) : k.IsAhead env phase := by
  cases h with
  | write hstep ha => exact Works.ahead_of_uploading (.write (c := c) hstep ha)
  | read hstep => exact Works.ahead_of_uploading (.read (c := c) hstep)
  | pause hstep => exact Works.ahead_of_uploading (.pause (c := c) hstep)
  | wrote hwrote => exact Works.ahead_of_wrote (.wrote (c := c) hwrote)
  | walk | ask _ _ | visit _ | walked _ | stopped _ | listed | unlisted => cases hway
  | broken _ | unwritten _ | unopened | unaccepted | unflushed | incomplete | unfound _ | undeleted
  | unmeasured | uncopied => exact fun _ => rfl
  | _ => exact ⟨rfl, Phase.nearer_of_lt (by simp [Phase.part])⟩

end Works

section Turn

variable {env : Env World Writer} {m : Machine World Writer} {task : Task Writer}
  {n : Next World Writer} {setup : Setup} {r : Request} {phase : Phase Writer}

/-- Who has a client and does neither walk nor keep it is under way. -/
theorem Phase.Serves.isUnderWay (h : phase.Serves setup r) (hstage : phase.stage = .holding)
    (hwalk : ∀ w, ¬ r.Wants setup (.walk w)) (hkeep : ¬ r.Wants setup .keep) :
    phase.isUnderWay = true := by
  cases phase with
  | lent g =>
    cases g with
    | keep => exact absurd h hkeep
    | walk w => exact absurd h (hwalk w)
    | _ => rfl
  | walking _ | listed _ _ =>
    obtain ⟨w, hw⟩ := h
    exact absurd hw (hwalk w)
  | _ => first | rfl | cases hstage

/-- **With every step, a task that is under way is nearer to its end.** -/
theorem Turn.nearer (h : Turn env m task n) (hway : task.phase.isUnderWay = true) :
    n.task.phase.isUnderWay = true ∧ n.task.phase.Ahead task.phase := by
  have hseeks : task.phase.seeks ≠ true := by
    intro hseeks
    generalize task.phase = phase at hway hseeks
    cases phase <;> simp [Phase.isUnderWay, Phase.seeks] at hway hseeks
  cases h with
  | acquire hasks _ => exact absurd hasks.seeks hseeks
  | shut hshuts _ | drainPool hshuts _ _ _ => exact absurd hshuts.seeks hseeks
  | work _ _ _ hw hn =>
    have hahead := hw.ahead hway
    have hholding := hw.stage_eq
    cases hn with
    | keep _ => exact hahead
    | giveBack _ _ | giveLate _ _ => exact hahead
    | destroy _ _ _ => exact ⟨rfl, Phase.nearer_of_lt (Phase.one_lt_part hholding)⟩
  | invalidated hphase _ =>
    rw [hphase]
    exact ⟨rfl, Phase.nearer_of_lt (by simp [Phase.part])⟩
  | drain hphase hdrains _ =>
    rw [hphase]
    cases hdrains with
    | read hpull | pause hpull =>
      exact ⟨rfl, Phase.nearer_of_eq rfl
        (Stream.weight_lt_of_pull (by decide) (congrArg Stream.Pull.rest? hpull))⟩
    | broken _ | finished _ => exact ⟨rfl, Phase.nearer_of_lt (by simp [Phase.part])⟩
  | deny hphase _ | disconnect hphase _ _ _ | apart hphase _ | closeNext hphase _ _ _ _
  | closeLast hphase _ _ | startDestroy hphase _ _ _ _ _ | destroyed hphase _ =>
    rw [hphase] at hway
    cases hway

end Turn

/-! ## To the end -/

section End

variable {env : Env World Writer} {m : Machine World Writer} {id : TaskId} {task : Task Writer}

/-- **Whoever is under way comes to an end** by its own steps, as time passes. -/
theorem Orderly.endsAlone (ho : Orderly m) (env : Env World Writer)
    (htask : m.task? id = some task) (hway : task.phase.isUnderWay = true) :
    m.EndsAlone env id := by
  have hwf : WellFounded (Prod.Lex (fun a b : Nat => a < b) fun a b : Nat => a < b) :=
    (Prod.lex Nat.lt_wfRel Nat.lt_wfRel).wf
  -- on how far it is to the end
  generalize hrank : (task.phase.part, task.phase.toDo) = rank
  induction rank using hwf.induction generalizing m task with
  | h rank ih =>
    by_cases hended : ∃ result, task.phase = .ended result
    · obtain ⟨result, hended⟩ := hended
      exact ⟨[], by simp, task, result, htask, hended⟩
    · have hline : ∀ g, task.phase ≠ .line g := by
        intro g hphase
        rw [hphase] at hway
        cases hway
      obtain ⟨wait, n, hturn, hm'⟩ :=
        ho.exists_turn env htask (fun result hr => hended ⟨result, hr⟩) hline
      have htask' := Machine.task?_of_follow hm' htask
      obtain ⟨hway', hahead⟩ := hturn.nearer hway
      have ho' : Orderly (m.run env [.pass wait, .step id]) := ho.run (by simp)
      obtain ⟨more, hmore, hend⟩ := ih _ (hrank ▸ hahead) ho' htask' hway' rfl
      refine ⟨.pass wait :: .step id :: more, ?_, hend⟩
      simpa [Event.isOwn] using hmore

end End

/-! ## Among other occurrences -/

section Occurrences

variable {env : Shared World Writer} {m : Machine World Writer} {first os : List Occurrence}
  {id : TaskId} {task task' : Task Writer}

open Machine (Operates)

/-- **Nobody goes back.** A task that was under way is still where it was, or nearer to its end. -/
theorem Orderly.eq_or_nearer (ho : Orderly m) (hops : Operates os) (hfirst : first <+: os)
    (htask : (m.after env first).task? id = some task) (hway : task.phase.isUnderWay = true)
    (htask' : (m.after env os).task? id = some task') :
    task' = task ∨ task'.phase.isUnderWay = true ∧ task'.phase.Ahead task.phase := by
  refine ho.forall_later hops (P := fun task' => task' = task ∨
    task'.phase.isUnderWay = true ∧ task'.phase.Ahead task.phase) ?_ hfirst htask (Or.inl rfl)
    htask'
  rintro m' task₀ n hn (rfl | ⟨hway₀, hahead⟩)
  · exact Or.inr (hn.nearer hway)
  · obtain ⟨hway', hahead'⟩ := hn.nearer hway₀
    exact Or.inr ⟨hway', hahead'.trans hahead⟩

/-- A task comes once only to a part of its way in which there is nothing to do but one call. -/
theorem Orderly.eq_of_part (ho : Orderly m) (hops : Operates os) {first' : List Occurrence}
    (hfirst : first <+: os) (hfirst' : first' <+: os)
    (htask : (m.after env first).task? id = some task)
    (htask' : (m.after env first').task? id = some task')
    (hway : task.phase.isUnderWay = true) (hway' : task'.phase.isUnderWay = true)
    (hpart : task.phase.part = task'.phase.part) (hdone : task.phase.toDo = 0)
    (hdone' : task'.phase.toDo = 0) : task' = task := by
  rcases List.prefix_or_prefix_of_prefix hfirst hfirst' with h | h
  · rcases ho.eq_or_nearer (hops.of_prefix hfirst') h htask hway htask' with heq | ⟨-, hahead⟩
    · exact heq
    · exact absurd hahead (Phase.not_ahead hpart.symm hdone)
  · rcases ho.eq_or_nearer (hops.of_prefix hfirst) h htask' hway' htask with heq | ⟨-, hahead⟩
    · exact heq.symm
    · exact absurd hahead (Phase.not_ahead hpart hdone')

end Occurrences

end Storage

end Depot
