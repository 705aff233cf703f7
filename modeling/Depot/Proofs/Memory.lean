import Depot.Memory.Basic
import Depot.Proofs.Lookup

/-!
# A store in memory, call by call

What a change of the objects does to a look-up, and what each call does to the objects. A call
either fails, and changes no object, or it does what it is for (`call_cases`, `finish_cases`). The
answers arrive at once.
-/

set_option autoImplicit false

namespace Depot.Memory

/-! ## Objects -/

namespace Objects

variable (objects : Objects) (l l' : Location) (o : StoredObject)

theorem lookup_cons_eq (es : List (Location × StoredObject)) :
    ((l, o) :: es).lookup l' = if l' = l then some o else es.lookup l' := by
  rw [List.lookup_cons]
  by_cases h : l' = l
  · rw [if_pos h, beq_iff_eq.2 h]
  · rw [if_neg h, beq_false_of_ne h]

theorem lookup_insertEntry (es : List (Location × StoredObject)) :
    (insertEntry l o es).lookup l' = if l' = l then some o else es.lookup l' := by
  induction es with
  | nil => exact lookup_cons_eq l l' o []
  | cons e es ih =>
    obtain ⟨l₁, o₁⟩ := e
    rw [insertEntry]
    split
    · -- the entry of the location is replaced
      rename_i heq
      subst heq
      rw [lookup_cons_eq, lookup_cons_eq]
      split
      · rfl
      · rfl
    · split
      · rw [lookup_cons_eq]
      · -- its place is further back
        rename_i hne _
        rw [lookup_cons_eq, ih, lookup_cons_eq]
        by_cases h : l' = l₁
        · rw [if_pos h, if_pos h, if_neg (fun hl => hne (hl.symm.trans h))]
        · rw [if_neg h, if_neg h]

theorem get?_insert :
    (objects.insert l o).get? l' = if l' = l then some o else objects.get? l' :=
  lookup_insertEntry l l' o objects.entries

theorem get?_erase :
    (objects.erase l).get? l' = if l' = l then none else objects.get? l' :=
  lookup_remove l l' objects.entries

end Objects

/-! ## Calls -/

section Calls

variable {α : Type} {c : Client} {kind : Call} {m : Memory} {w w' : Writer}

@[simp] theorem takeFailure_objects (m : Memory) (kind : Call) :
    (m.takeFailure kind).1.objects = m.objects := by
  unfold takeFailure
  split
  · rfl
  · rfl

@[simp] theorem enter_objects (m : Memory) (c : Client) (kind : Call) :
    (m.enter c kind).1.objects = m.objects :=
  takeFailure_objects _ kind

@[simp] theorem create_objects (m : Memory) : m.create.world.objects = m.objects := by
  have h := takeFailure_objects m .create
  unfold create
  split
  · rename_i heq
    rw [heq] at h
    exact h
  · rename_i heq
    rw [heq] at h
    exact h

@[simp] theorem destroy_objects (m : Memory) : m.destroy.world.objects = m.objects :=
  takeFailure_objects _ .destroy

/-- A call fails, or does what it is for on a store with the same objects. -/
theorem call_cases (c : Client) (kind : Call) (act : Memory → Memory × Except StoreError α)
    (m : Memory) : ∃ m', m'.objects = m.objects ∧
      ((∃ e, call c kind act m = .now m' (.error e)) ∨
        call c kind act m = .now (act m').1 (act m').2) := by
  obtain ⟨m', failed, he⟩ : ∃ m' result, m.enter c kind = (m', result) := ⟨_, _, rfl⟩
  have hobjects := enter_objects m c kind
  rw [he] at hobjects
  refine ⟨m', hobjects, ?_⟩
  cases failed with
  | error e =>
    refine Or.inl ⟨e, ?_⟩
    simp only [call, he]
  | ok _ =>
    refine Or.inr ?_
    simp only [call, he]

/-- A completion fails, or stores what was written. -/
theorem finish_cases (w : Writer) (m : Memory) : ∃ m', m'.objects = m.objects ∧
    ((∃ e, finish w m = (w, .now m' (.error e))) ∨
      finish w m = ({ w with buffer := .empty },
        .now { m' with objects := m'.objects.insert w.location ⟨w.buffer, m'.clock, w.options⟩ }
          (.ok ()))) := by
  obtain ⟨m', failed, he⟩ : ∃ m' result, m.enter w.client .finish = (m', result) := ⟨_, _, rfl⟩
  have hobjects := enter_objects m w.client .finish
  rw [he] at hobjects
  refine ⟨m', hobjects, ?_⟩
  cases failed with
  | error e =>
    refine Or.inl ⟨.writeFinalization w.location.key e.message, ?_⟩
    simp only [finish, he]
  | ok _ =>
    refine Or.inr ?_
    simp only [finish, he]

/-- A writer that is opened stores where it is opened, and has gathered nothing. -/
theorem eq_of_openWriter {bucket key : String} {options : WriteOptions}
    (h : (backend.openWriter c bucket key options m).result = .ok w) :
    w = ⟨c, ⟨bucket, key⟩, options, .empty⟩ := by
  obtain ⟨m', -, ⟨e, he⟩ | he⟩ := call_cases c .write
    (fun m => (m, .ok (⟨c, ⟨bucket, key⟩, options, .empty⟩ : Writer))) m
  · cases (congrArg Answer.result he).symm.trans h
  · cases (congrArg Answer.result he).symm.trans h
    rfl

/-- A completion leaves of a writer all but what it has gathered. -/
theorem finish_writer (w : Writer) (m : Memory) :
    (finish w m).1.location = w.location ∧ (finish w m).1.options = w.options := by
  obtain ⟨m', -, ⟨e, he⟩ | he⟩ := finish_cases w m
  · rw [he]
    exact ⟨rfl, rfl⟩
  · rw [he]
    exact ⟨rfl, rfl⟩

/-- A completion that fails names the key. -/
theorem eq_of_finish_error {e : StoreError} (h : (finish w m).2.result = .error e) :
    ∃ text, e = .writeFinalization w.location.key text := by
  unfold finish at h
  split at h
  · cases h
    exact ⟨_, rfl⟩
  · cases h

/-- A completion that succeeds has stored what was gathered. -/
theorem get?_of_finish (h : (finish w m).2.result = .ok ()) :
    ∃ o, (finish w m).2.world.objects.get? w.location = some o ∧ o.data = w.buffer ∧
      o.options = w.options := by
  obtain ⟨m', -, ⟨e, he⟩ | he⟩ := finish_cases w m
  · rw [he] at h
    cases h
  · rw [he]
    exact ⟨_, (Objects.get?_insert _ _ _ _).trans (if_pos rfl), rfl, rfl⟩

/-- A call that looks and changes nothing leaves the objects as they are. -/
theorem call_objects (act : Memory → Memory × Except StoreError α)
    (hact : ∀ m, (act m).1 = m) (c : Client) (kind : Call) (m : Memory) :
    (call c kind act m).world.objects = m.objects := by
  obtain ⟨m', hobjects, ⟨e, h⟩ | h⟩ := call_cases c kind act m
  · rw [h]
    exact hobjects
  · rw [h]
    exact (congrArg objects (hact m')).trans hobjects

theorem look_fst (l : Location) (f : StoredObject → α) (m : Memory) : (look l f m).1 = m := by
  unfold look
  split
  · rfl
  · rfl

/-- An answer that arrives at once: the call failed and changed no object, or it changed at most the
one at a location. -/
structure Alters (l : Location) (m : Memory) (a : Answer Memory (Except StoreError Unit)) :
    Prop where
  delay : a.delay = 0
  result : (a.world.objects = m.objects ∧ ∃ e, a.result = .error e) ∨
    (a.result = .ok () ∧ ∀ l', l' ≠ l → a.world.objects.get? l' = m.objects.get? l')

/-- A call of an action alters what the action alters. -/
theorem Alters.of_call {act : Memory → Memory × Except StoreError Unit} {l : Location}
    (hact : ∀ m, Alters l m (.now (act m).1 (act m).2)) (c : Client) (kind : Call) (m : Memory) :
    Alters l m (call c kind act m) := by
  obtain ⟨m', hobjects, ⟨e, h⟩ | h⟩ := call_cases c kind act m
  · rw [h]
    exact ⟨rfl, Or.inl ⟨hobjects, e, rfl⟩⟩
  · rw [h]
    obtain ⟨hdelay, hresult⟩ := hact m'
    rw [hobjects] at hresult
    exact ⟨hdelay, hresult⟩

theorem alters_delete (l : Location) (c : Client) (m : Memory) :
    Alters l m (call c .delete (delete l) m) := by
  refine .of_call (fun m => ⟨rfl, ?_⟩) c .delete m
  unfold delete
  split
  · refine Or.inr ⟨rfl, fun l' hl' => ?_⟩
    exact (Objects.get?_erase m.objects l l').trans (if_neg hl')
  · exact Or.inl ⟨rfl, _, rfl⟩

theorem alters_copy (source l : Location) (c : Client) (m : Memory) :
    Alters l m (call c .copy (copy source l) m) := by
  refine .of_call (fun m => ⟨rfl, ?_⟩) c .copy m
  unfold copy
  split
  · refine Or.inr ⟨rfl, fun l' hl' => ?_⟩
    exact (Objects.get?_insert m.objects l l' _).trans (if_neg hl')
  · exact Or.inl ⟨rfl, _, rfl⟩

theorem alters_finish (w : Writer) (m : Memory) : Alters w.location m (finish w m).2 := by
  obtain ⟨m', hobjects, ⟨e, h⟩ | h⟩ := finish_cases w m
  · rw [h]
    exact ⟨rfl, Or.inl ⟨hobjects, e, rfl⟩⟩
  · rw [h]
    refine ⟨rfl, Or.inr ⟨rfl, fun l' hl' => ?_⟩⟩
    rw [← hobjects]
    exact (Objects.get?_insert m'.objects w.location l' _).trans (if_neg hl')

end Calls

end Depot.Memory
