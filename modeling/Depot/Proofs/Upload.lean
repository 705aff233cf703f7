import Depot.Memory.Basic
import Depot.Proofs.Stream

/-!
# The steps of an upload

What an upload does next says what it has and what it read: the inversion of `Upload.step` and of
`Upload.wrote`. Its key and its writer stay the same, as far as it goes on without a call. Where
writers gather what they take, what an upload is to store in the end (`Upload.whole`, in memory
`Upload.total`) stays the same, too, wherever the data is on its way.
-/

set_option autoImplicit false

namespace Depot.Upload

variable {Writer : Type} {u u' : Upload Writer} {bytes : ByteArray} {ms n : Nat} {e : IoError}

theorem step_of_empty (h : u.buffer.size = 0) :
    u.step = match Stream.pull copyBufferSize u.source with
      | .data bytes rest => .read { u with source := rest, buffer := bytes }
      | .pause ms rest => .pause ms { u with source := rest }
      | .fail e => .fail e
      | .finished => .complete := by
  unfold step
  exact if_neg (by simp [h])

/-- What was read is written first. -/
theorem eq_of_step_write (h : u.step = .write bytes) :
    bytes = u.buffer ∧ u.buffer.size ≠ 0 := by
  by_cases hsize : u.buffer.size = 0
  · rw [step_of_empty hsize] at h
    split at h <;> cases h
  · rw [step, if_pos hsize] at h
    cases h
    exact ⟨rfl, hsize⟩

/-- Whatever else there is to do, all that was read is written. -/
theorem size_eq_zero_of_step (h : ∀ bytes, u.step ≠ .write bytes) : u.buffer.size = 0 := by
  by_cases hsize : u.buffer.size = 0
  · exact hsize
  · refine absurd ?_ (h u.buffer)
    rw [step, if_pos hsize]

theorem pull_of_step_read (h : u.step = .read u') :
    u.buffer.size = 0 ∧ ∃ bytes rest, Stream.pull copyBufferSize u.source = .data bytes rest ∧
      u' = { u with source := rest, buffer := bytes } := by
  have hsize := size_eq_zero_of_step (u := u) (by rw [h]; nofun)
  rw [step_of_empty hsize] at h
  split at h
  · rename_i bytes rest hpull
    cases h
    exact ⟨hsize, bytes, rest, hpull, rfl⟩
  all_goals cases h

theorem pull_of_step_pause (h : u.step = .pause ms u') :
    u.buffer.size = 0 ∧ ∃ rest, Stream.pull copyBufferSize u.source = .pause ms rest ∧
      u' = { u with source := rest } := by
  have hsize := size_eq_zero_of_step (u := u) (by rw [h]; nofun)
  rw [step_of_empty hsize] at h
  split at h
  · cases h
  · rename_i ms' rest hpull
    cases h
    exact ⟨hsize, rest, hpull, rfl⟩
  all_goals cases h

theorem pull_of_step_fail (h : u.step = .fail e) :
    u.buffer.size = 0 ∧ Stream.pull copyBufferSize u.source = .fail e := by
  have hsize := size_eq_zero_of_step (u := u) (by rw [h]; nofun)
  rw [step_of_empty hsize] at h
  split at h
  · cases h
  · cases h
  · rename_i hpull
    cases h
    exact ⟨hsize, hpull⟩
  · cases h

theorem pull_of_step_complete (h : u.step = .complete) :
    u.buffer.size = 0 ∧ Stream.pull copyBufferSize u.source = .finished := by
  have hsize := size_eq_zero_of_step (u := u) (by rw [h]; nofun)
  rw [step_of_empty hsize] at h
  split at h
  · cases h
  · cases h
  · cases h
  · rename_i hpull
    exact ⟨hsize, hpull⟩

/-- A writer that took something took it from the front of what was read. -/
theorem eq_of_wrote (h : u.wrote n = .ok u') :
    n ≠ 0 ∧ u' = { u with
      buffer := u.buffer.extract n u.buffer.size, amount := u.amount + n } := by
  unfold wrote at h
  split at h
  · cases h
  · rename_i hn
    cases h
    exact ⟨hn, rfl⟩

/-! ## What is to be stored -/

section Whole

variable {gathered : Writer → ByteArray}

/-- All that an upload is to store, where `gathered` is what a writer has taken so far: what was
written, what is to be written, and what is still to be read. -/
def whole (gathered : Writer → ByteArray) (u : Upload Writer) : Except IoError ByteArray :=
  u.source.content.map (gathered u.writer ++ u.buffer ++ ·)

theorem whole_start (key : String) (source : Stream) {w : Writer} (hw : gathered w = .empty) :
    (start key source w).whole gathered = source.content := by
  simp only [whole, start, hw, ByteArray.empty_append]
  exact congrFun Except.map_id _

/-- A piece goes from the source to the buffer, which was empty. -/
theorem whole_of_step_read (gathered : Writer → ByteArray) (h : u.step = .read u') :
    u'.whole gathered = u.whole gathered := by
  obtain ⟨hsize, bytes, rest, hpull, rfl⟩ := pull_of_step_read h
  rw [whole, whole, Stream.content_eq copyBufferSize u.source, hpull,
    ByteArray.size_eq_zero_iff.1 hsize]
  simp only
  cases rest.content with
  | ok data => simp only [Except.map, ByteArray.append_empty, ByteArray.append_assoc]
  | error e => rfl

theorem whole_of_step_pause (gathered : Writer → ByteArray) (h : u.step = .pause ms u') :
    u'.whole gathered = u.whole gathered := by
  obtain ⟨-, rest, hpull, rfl⟩ := pull_of_step_pause h
  rw [whole, whole, Stream.content_eq copyBufferSize u.source, hpull]

theorem whole_of_step_fail (gathered : Writer → ByteArray) (h : u.step = .fail e) :
    u.whole gathered = .error e := by
  obtain ⟨-, hpull⟩ := pull_of_step_fail h
  rw [whole, Stream.content_eq copyBufferSize u.source, hpull]
  rfl

/-- All was written when the source has come to its end. -/
theorem whole_of_step_complete (gathered : Writer → ByteArray) (h : u.step = .complete) :
    u.whole gathered = .ok (gathered u.writer) := by
  obtain ⟨hsize, hpull⟩ := pull_of_step_complete h
  rw [whole, Stream.content_eq copyBufferSize u.source, hpull, ByteArray.size_eq_zero_iff.1 hsize]
  simp only [Except.map, ByteArray.append_empty]

/-- What is written goes from the buffer to the writer. -/
theorem whole_of_write {writer : Writer} (hw : gathered writer = gathered u.writer ++ u.buffer) :
    { u with writer, buffer := .empty }.whole gathered = u.whole gathered := by
  simp only [whole, hw, ByteArray.append_empty]

end Whole

/-! ## What is to be stored in memory -/

section Total

variable {v v' : Upload Memory.Writer}

/-- All that an upload to a store in memory is to store: what was written, what is to be written,
and what is still to be read. -/
def total (v : Upload Memory.Writer) : Except IoError ByteArray :=
  v.source.content.map (v.writer.buffer ++ v.buffer ++ ·)

theorem total_start (key : String) (source : Stream) {w : Memory.Writer}
    (hw : w.buffer = .empty) : (start key source w).total = source.content :=
  whole_start key source hw

theorem total_of_step_read (h : v.step = .read v') : v'.total = v.total :=
  whole_of_step_read Memory.Writer.buffer h

theorem total_of_step_pause (h : v.step = .pause ms v') : v'.total = v.total :=
  whole_of_step_pause Memory.Writer.buffer h

theorem total_of_step_fail (h : v.step = .fail e) : v.total = .error e :=
  whole_of_step_fail Memory.Writer.buffer h

theorem total_of_step_complete (h : v.step = .complete) : v.total = .ok v.writer.buffer :=
  whole_of_step_complete Memory.Writer.buffer h

end Total

end Depot.Upload
