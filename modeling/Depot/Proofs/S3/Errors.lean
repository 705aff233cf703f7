import Depot.Memory.Basic
import Depot.S3.Endpoint

/-!
# Errors of a store behind an endpoint

Whether a call fails because an object is missing, or with an error of the transport, is told by the
reply, and not to every call in the same way. A read goes by the code of the refusal
(`isMissing_iff`), a look-up by its status (`isMissingHead_iff`), and both tell it in the same way
once they know (`Tells.notFound_iff`). A copy does not tell a missing source from any other failure
(`kind_copyError`). All this together is `errors_of_replies`.
-/

set_option autoImplicit false

namespace Depot.S3

/-- A reply refuses a request because there is no such object. -/
def Reply.IsMissing : Reply → Prop
  | .lost => False
  | .response r => r.isSuccess = false ∧ r.complete = true ∧
    ∃ text, r.document = .failure (some noSuchKey) text

/-- A reply to a look-up, which has no document, says that there is no such object. -/
def Reply.IsMissingHead : Reply → Prop
  | .lost => False
  | .response r => r.status = 404

/-- A reply is what its response is, if there is one. -/
theorem Reply.exists_response_iff {P : Response → Prop} {Q : Reply → Prop} (hlost : ¬ Q .lost)
    (h : ∀ r, P r ↔ Q (.response r)) (reply : Reply) :
    (∃ r, reply = .response r ∧ P r) ↔ Q reply := by
  cases reply with
  | lost =>
    constructor
    · rintro ⟨_, h, -⟩
      cases h
    · exact fun hq => absurd hq hlost
  | response r =>
    constructor
    · rintro ⟨_, hr, hp⟩
      cases hr
      exact (h r).1 hp
    · exact fun hq => ⟨r, rfl, (h r).2 hq⟩

/-! ## Refusals with a code -/

section Refusals

variable {r : Response} {α : Type}

/-- What is read of a response is refused with a code. -/
def Refused (code : String) (result : Except Failure α) : Prop :=
  ∃ refusal, result = .error (.refused refusal) ∧ refusal.code = some code

theorem Refused.of_map {code : String} {β : Type} {f : α → β} {result : Except Failure α} :
    Refused code (result.map f) ↔ Refused code result := by
  constructor
  · rintro ⟨refusal, h, hcode⟩
    cases result with
    | ok a => cases h
    | error e =>
      cases h
      exact ⟨refusal, rfl, hcode⟩
  · rintro ⟨refusal, rfl, hcode⟩
    exact ⟨refusal, rfl, hcode⟩

/-- The only code of a response that is none of a document is that of a look-up. -/
theorem code_eq_noSuchKey_iff :
    r.refusal.code = some noSuchKey ↔ ∃ text, r.document = .failure (some noSuchKey) text := by
  unfold Response.refusal
  cases r.document with
  | failure code text => simp
  | none =>
    simp only [reduceCtorEq, exists_const, iff_false]
    split
    · decide
    · nofun
  | listing _ | copied | other => simp

/-- **A read is refused for a missing object** exactly when the reply says so. -/
theorem isMissing_iff : Refused noSuchKey (r.receivedStream.map (·.stream)) ↔
    (Reply.response r).IsMissing := by
  rw [Refused.of_map, Reply.IsMissing, ← code_eq_noSuchKey_iff]
  unfold Refused Response.receivedStream Response.received
  cases hsuccess : r.isSuccess with
  | true =>
    -- a read that succeeds is not looked into
    simp
  | false =>
    cases hcomplete : r.complete with
    | false => simp
    | true => simp

/-- A reply of a missing object is a refusal, whatever it is read for. -/
theorem received_of_isMissing (h : (Reply.response r).IsMissing) :
    r.received = .error (.refused r.refusal) := by
  obtain ⟨hsuccess, hcomplete, -⟩ := h
  simp [Response.received, hsuccess, hcomplete]

/-- What comes of a look-up is told by its status alone. -/
theorem receivedHead_eq (r : Response) : r.receivedHead =
    if r.isSuccess then .ok { r with body := .empty, document := .none, complete := true }
    else .error (.refused ⟨if r.status = 404 then some notFoundCode else none, none,
      r.headers.lookup "x-amz-error-code"⟩) := by
  have hsame : { r with body := .empty, document := .none, complete := true }.isSuccess =
      r.isSuccess := rfl
  unfold Response.receivedHead Response.received
  cases hsuccess : r.isSuccess with
  | true => simp [hsame, hsuccess]
  | false => simp [hsame, hsuccess, Response.refusal]

/-- **A look-up is refused for a missing object** exactly when its status says so. -/
theorem isMissingHead_iff {key : String} :
    Refused notFoundCode (r.receivedHead.map (·.attributes key)) ↔
      (Reply.response r).IsMissingHead := by
  rw [Refused.of_map, Reply.IsMissingHead, receivedHead_eq]
  by_cases hstatus : r.status = 404
  · have hsuccess : r.isSuccess = false := by
      rw [Response.isSuccess, hstatus]
      rfl
    simp [Refused, hsuccess, hstatus]
  · simp only [hstatus, iff_false]
    rintro ⟨refusal, hrefused, hcode⟩
    split at hrefused
    · cases hrefused
    · cases hrefused
      cases hcode

end Refusals

/-! ## Errors of calls -/

section Calls

variable {State α : Type} {network : Network State} {access : Access} {w : World State}
  {r : Request} {use : Response → Except Failure α} {tell : Failure → StoreError}
  {code place action : String} {known : List String}

/-- What a call comes to: it could not be sent or answered, or its response is used. -/
theorem result_telling (tell : Failure → StoreError) (network : Network State) (access : Access)
    (r : Request) (use : Response → Except Failure α) (w : World State) :
    (telling tell (exchange network access r use w)).result =
      if r.isSendable then
        match (network.send r w.network).2 with
        | .lost => .error (tell .lost)
        | .response response => (use response).mapError tell
      else .error (tell .unsendable) := by
  unfold telling exchange
  split
  · dsimp only
    cases (network.send r w.network).2 with
    | lost => rfl
    | response response => rfl
  · rfl

/-- What comes of a call was made of a response. -/
theorem exists_response_of_ok {a : α}
    (h : (telling tell (exchange network access r use w)).result = .ok a) :
    r.isSendable = true ∧
      ∃ response, (network.send r w.network).2 = .response response ∧ use response = .ok a := by
  rw [result_telling] at h
  split at h
  · rename_i hsend
    cases hreply : (network.send r w.network).2 with
    | lost =>
      rw [hreply] at h
      cases h
    | response response =>
      simp only [hreply] at h
      cases huse : use response with
      | error f =>
        rw [huse] at h
        cases h
      | ok a' =>
        rw [huse] at h
        cases h
        exact ⟨hsend, response, rfl, huse⟩
  · cases h

/-- The errors of a call to which a refusal with some code tells that an object is missing. -/
structure Tells (tell : Failure → StoreError) (code place : String) : Prop where
  missing : ∀ f, f.hasCode code = true → tell f = .notFound place
  other : ∀ f, f.hasCode code = false → (tell f).kind = .transport

theorem tells_readError (bucket key : String) :
    Tells (readError bucket key) noSuchKey s!"{bucket}/{key}" where
  missing f h := if_pos h
  other f h := by
    unfold readError
    rw [if_neg (Bool.not_eq_true _ ▸ h)]
    rfl

theorem tells_lookError (bucket key : String) :
    Tells (lookError bucket key) notFoundCode s!"{bucket}/{key}" where
  missing f h := if_pos h
  other f h := by
    unfold lookError
    rw [if_neg (Bool.not_eq_true _ ▸ h)]
    rfl

/-- An error of a call tells a failure. It has a code only if the response is refused with it. -/
theorem failure_of_error (code : String) {e : StoreError}
    (he : (telling tell (exchange network access r use w)).result = .error e) :
    ∃ f, e = tell f ∧ (f.hasCode code = true → r.isSendable = true ∧
      ∃ response, (network.send r w.network).2 = .response response ∧
        Refused code (use response)) := by
  rw [result_telling] at he
  split at he
  · rename_i hsend
    cases hreply : (network.send r w.network).2 with
    | lost =>
      rw [hreply] at he
      cases he
      exact ⟨.lost, rfl, nofun⟩
    | response response =>
      simp only [hreply] at he
      cases huse : use response with
      | ok a =>
        rw [huse] at he
        cases he
      | error f =>
        rw [huse] at he
        cases he
        refine ⟨f, rfl, fun hcode => ⟨hsend, response, rfl, ?_⟩⟩
        cases f with
        | refused refusal => exact ⟨refusal, huse, of_decide_eq_true hcode⟩
        | unsendable | lost | unreadable => cases hcode
  · cases he
    exact ⟨.unsendable, rfl, nofun⟩

/-- **A call tells that an object is missing** exactly when it was sent and its response is refused
with the code. -/
theorem Tells.notFound_iff (h : Tells tell code place) :
    (telling tell (exchange network access r use w)).result = .error (.notFound place) ↔
      r.isSendable = true ∧ ∃ response, (network.send r w.network).2 = .response response ∧
        Refused code (use response) := by
  constructor
  · intro he
    obtain ⟨f, hf, hrefused⟩ := failure_of_error code he
    -- a failure without the code is told as an error of another kind
    cases hcode : f.hasCode code with
    | true => exact hrefused hcode
    | false =>
      have hkind := h.other f hcode
      rw [← hf] at hkind
      cases hkind
  · rintro ⟨hsend, response, hreply, refusal, huse, hcode⟩
    rw [result_telling, if_pos hsend, hreply]
    simp only [huse]
    exact congrArg Except.error (h.missing _ (decide_eq_true hcode))

/-- Every other error of a call is one of the transport. -/
theorem Tells.kind_of_error (h : Tells tell code place) {e : StoreError}
    (he : (telling tell (exchange network access r use w)).result = .error e) :
    e = .notFound place ∨ e.kind = .transport := by
  obtain ⟨f, rfl, -⟩ := failure_of_error code he
  cases hcode : f.hasCode code with
  | true => exact Or.inl (h.missing f hcode)
  | false => exact Or.inr (h.other f hcode)

/-- Whatever a copy fails with, it is told as an error of the transport. -/
theorem kind_copyError (bucket key : String) (f : Failure) :
    (copyError bucket key f).kind = .transport := by
  unfold copyError
  split
  · rfl
  · rfl

/-- A copy that is refused for a missing source fails. -/
theorem copy_of_isMissing {c : Client} {sourceBucket sourceKey bucket key : String}
    (hsend : (Request.copy access.signature sourceBucket sourceKey bucket key).isSendable = true)
    (hmissing : (network.send (.copy access.signature sourceBucket sourceKey bucket key)
      w.network).2.IsMissing) :
    ∃ e, ((backend network access).copy c sourceBucket sourceKey bucket key w).result =
      .error e := by
  cases hreply : (network.send (.copy access.signature sourceBucket sourceKey bucket key)
      w.network).2 with
  | lost =>
    rw [hreply] at hmissing
    cases hmissing
  | response r =>
    rw [hreply] at hmissing
    refine ⟨copyError sourceBucket sourceKey (.refused r.refusal), ?_⟩
    simp only [backend, result_telling, if_pos hsend, hreply, received_of_isMissing hmissing]
    rfl

end Calls

/-! ## Missing objects -/

section Missing

variable {State : Type}

/-- **How missing objects are told.** Whatever an endpoint replies, or if it does not reply at all:

- a read fails with the error of a missing object exactly when it was sent, and was refused with the
  code of a missing object;
- a look-up does so exactly when it was sent, and the status of the response says so;
- a copy never does so: it fails with an error of the transport also if it was refused with the code
  of a missing object;
- every other error of these calls is one of the transport. -/
theorem errors_of_replies (network : Network State) (access : Access) (c : Client)
    (sourceBucket sourceKey bucket key : String) (w : World State) :
    let store := backend network access
    let read := Request.read access.signature bucket key
    let look := Request.look access.signature bucket key
    let copy := Request.copy access.signature sourceBucket sourceKey bucket key
    ((store.openReader c bucket key w).result = .error (.notFound s!"{bucket}/{key}") ↔
        read.isSendable = true ∧ (network.send read w.network).2.IsMissing) ∧
      (∀ e, (store.openReader c bucket key w).result = .error e →
        e = .notFound s!"{bucket}/{key}" ∨ e.kind = .transport) ∧
      ((store.attributes c bucket key w).result = .error (.notFound s!"{bucket}/{key}") ↔
        look.isSendable = true ∧ (network.send look w.network).2.IsMissingHead) ∧
      (∀ e, (store.attributes c bucket key w).result = .error e →
        e = .notFound s!"{bucket}/{key}" ∨ e.kind = .transport) ∧
      (copy.isSendable = true → (network.send copy w.network).2.IsMissing →
        ∃ e, (store.copy c sourceBucket sourceKey bucket key w).result = .error e) ∧
      ∀ e, (store.copy c sourceBucket sourceKey bucket key w).result = .error e →
        e.kind = .transport := by
  intro store read look copy
  have hreads := tells_readError bucket key
  have hlooks := tells_lookError bucket key
  refine ⟨?_, fun e => hreads.kind_of_error, ?_, fun e => hlooks.kind_of_error,
    fun hsend => copy_of_isMissing hsend, ?_⟩
  · refine hreads.notFound_iff.trans (and_congr_right fun _ => ?_)
    exact Reply.exists_response_iff id (fun _ => isMissing_iff) _
  · refine hlooks.notFound_iff.trans (and_congr_right fun _ => ?_)
    exact Reply.exists_response_iff id (fun _ => isMissingHead_iff) _
  · intro e he
    obtain ⟨f, rfl, -⟩ := failure_of_error noSuchKey he
    exact kind_copyError _ _ f

/-- The source of a copy is gone, and the endpoint says so. A read tells it, and so does a copy
within a store in memory; here a copy tells of the transport. -/
theorem copy_of_missing_source :
    let gone : Response := ⟨404, [], none, none, .empty,
      .failure (some noSuchKey) (some "The specified key does not exist."), true⟩
    let store := backend (⟨fun _ s => (s, .response gone)⟩ : Network Unit) .unsigned
    (Reply.response gone).IsMissing ∧
      (store.openReader 1 "s" "k" (.start ())).result = .error (.notFound "s/k") ∧
      (Memory.backend.copy 1 "s" "k" "b" "d" (.new 1)).result = .error (.notFound "s/k") ∧
      (store.copy 1 "s" "k" "b" "d" (.start ())).result =
        .error (.transport "CopyObject: Service error: unhandled error (NoSuchKey)") := by
  exact ⟨⟨rfl, rfl, _, rfl⟩, rfl, rfl, rfl⟩

end Missing

end Depot.S3
