import Depot.Proofs.Storage.Serves

/-!
# Writers that gather

A store may keep back what is written until the object is completed: a writer takes all that it is
given, and answers at the end for what it has gathered (`Gathers`). Over such a store an upload has
all that its source yields at any moment, wherever it is on its way: with the writer, in the buffer,
or still to be read (`Turn.brings`). What an upload completes is thus the whole content of its
source.
-/

set_option autoImplicit false

namespace Depot.Storage

variable {World Writer : Type} {env : Env World Writer} {gathered : Writer → ByteArray}
  {path : String} {source : Stream}

/-- The writers of a store gather what they take, and they take all that is written. -/
structure Gathers (env : Env World Writer) (gathered : Writer → ByteArray) : Prop where
  opened : ∀ c key world writer,
    (env.backend.openWriter c env.setup.bucket key env.setup.options world).result = .ok writer →
      gathered writer = .empty
  wrote : ∀ writer bytes world,
    (env.backend.write writer bytes world).2.result = .ok bytes.size ∧
      gathered (env.backend.write writer bytes world).1 = gathered writer ++ bytes
  flushed : ∀ writer world, (env.backend.flush writer world).result = .ok ()

/-- Where an upload of a source has its data: what was gathered and what is still to come are all
that the source yields. -/
def Phase.Brings (gathered : Writer → ByteArray) (source : Stream) : Phase Writer → Prop
  | accepted _ source' reply => source' = source ∧ ∀ w, reply = .ok w → gathered w = .empty
  | uploading u => u.whole gathered = source.content
  | wrote u reply =>
    reply = .ok u.buffer.size ∧ { u with buffer := .empty }.whole gathered = source.content
  | flushed u reply => reply = .ok () ∧ source.content = .ok (gathered u.writer)
  | _ => True

/-- While a task works on an upload, no data is lost and none is added. -/
theorem Works.brings (hg : Gathers env gathered) {c : Client} {w world : World}
    {visited visited' : List Entry} {phase phase' : Phase Writer} {delay : Nat}
    (h : Works env c w visited phase (.keep phase' world delay visited'))
    (hs : phase.Serves env.setup (.put path source)) (hb : phase.Brings gathered source) :
    phase'.Brings gathered source := by
  cases h with
  | @openWriter key source' a ha =>
    obtain ⟨path', hput, rfl⟩ := Request.Wants.exists_put hs
    cases hput
    subst ha
    exact ⟨rfl, hg.opened c _ w⟩
  | @accepted key source' writer =>
    obtain ⟨rfl, hempty⟩ := hb
    exact Upload.whole_start key source' (hempty writer rfl)
  | @write u bytes writer a hstep ha =>
    obtain ⟨rfl, -⟩ := Upload.eq_of_step_write hstep
    obtain ⟨htaken, hmore⟩ := hg.wrote u.writer u.buffer w
    rw [ha] at htaken hmore
    exact ⟨htaken, (Upload.whole_of_write hmore).trans hb⟩
  | read hstep => exact (Upload.whole_of_step_read gathered hstep).trans hb
  | pause hstep => exact (Upload.whole_of_step_pause gathered hstep).trans hb
  | @flush u a hstep ha =>
    subst ha
    exact ⟨hg.flushed u.writer w, hb.symm.trans (Upload.whole_of_step_complete gathered hstep)⟩
  | @wrote u u' n hwrote =>
    obtain ⟨hn, hb⟩ := hb
    cases hn
    obtain ⟨-, rfl⟩ := Upload.eq_of_wrote hwrote
    rw [ByteArray.extract_same]
    exact hb
  | _ => trivial

/-- **An upload has all its data with every step.** -/
theorem Turn.brings (hg : Gathers env gathered) {m : Machine World Writer} {task : Task Writer}
    {n : Next World Writer} (h : Turn env m task n)
    (hs : task.phase.Serves env.setup (.put path source)) (hb : task.phase.Brings gathered source) :
    n.task.phase.Brings gathered source := by
  cases h with
  | acquire _ hn => cases hn <;> trivial
  | work _ _ _ hw hn =>
    cases hn with
    | keep _ => exact hw.brings hg hs hb
    | giveBack _ _ | giveLate _ _ =>
      generalize task.phase = phase at hw
      cases hw <;> trivial
    | destroy _ _ _ => trivial
  | drain _ hdrains _ => cases hdrains <;> trivial
  | _ => trivial

end Depot.Storage
