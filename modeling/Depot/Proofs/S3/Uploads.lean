import Depot.Proofs.S3.Errors
import Depot.Proofs.S3.Walk
import Depot.Proofs.Storage.Uploads
import Depot.S3.Sent

/-!
# What uploads send

Over a network, an upload sends nothing while it reads its source. It sends one request at most,
when it completes its object, and this request has all that the source yields. So what comes of the
request decides what the upload returns. The main statement is `upload_sends`.
-/

set_option autoImplicit false

namespace Depot.S3

open Storage

variable {State : Type} {network : Network State} {access : Access} {setup : Setup}
  {path : String} {source : Stream}

/-! ## Exchanges -/

section Exchange

variable {α : Type} {r : Request} {use : Response → Except Failure α} {w w' : World State}
  {u : Writer}

theorem World.sentUntil_of_eq (h : w'.sent = w.sent) : w.sentUntil w' = [] := by
  rw [World.sentUntil, h, Nat.sub_self]
  rfl

theorem World.sentUntil_of_cons (h : w'.sent = r :: w.sent) : w.sentUntil w' = [r] := by
  rw [World.sentUntil, h, List.length_cons, Nat.add_sub_cancel_left]
  rfl

/-- What an exchange makes of the state of the store, when it can send its request. -/
theorem world_exchange (h : r.isSendable = true) : (exchange network access r use w).world =
    { w with network := (network.send r w.network).1, sent := r :: w.sent } := by
  unfold exchange
  rw [if_pos h]

/-- An exchange sends its request, unless that cannot be sent. -/
theorem sentUntil_exchange :
    w.sentUntil (exchange network access r use w).world = if r.isSendable then [r] else [] := by
  unfold exchange
  split
  · exact World.sentUntil_of_cons rfl
  · exact World.sentUntil_of_eq rfl

/-- What is received has a status of success, and is complete. -/
theorem Response.isSuccess_of_received {response response' : Response}
    (h : response.received = .ok response') :
    response.isSuccess = true ∧ response.complete = true := by
  unfold Response.received at h
  split at h
  · cases h
  · rename_i hcomplete
    split at h
    · cases h
    · rename_i hsuccess _
      exact ⟨hsuccess, by simpa using hcomplete⟩
    · cases h

/-- The request that an upload completes its object with. -/
def Writer.request (access : Access) (u : Writer) : Request :=
  .upload access.signature u.bucket u.key u.options u.spool

/-- What a completion makes of the state of the store, when it can send its request. -/
theorem world_finish (h : (u.request access).isSendable = true) :
    (finish network access u w).2.world =
      { w with
        network := (network.send (u.request access) w.network).1
        sent := u.request access :: w.sent } := by
  unfold finish telling
  dsimp only
  exact world_exchange h

/-- A completion sends the one request, unless that cannot be sent. -/
theorem sentUntil_finish : w.sentUntil (finish network access u w).2.world =
    if (u.request access).isSendable then [u.request access] else [] := by
  unfold finish telling
  dsimp only
  exact sentUntil_exchange

/-- A completion succeeds only if its request is answered with success. -/
theorem of_finish_eq_ok (h : (finish network access u w).2.result = .ok ()) :
    (u.request access).isSendable = true ∧
      ∃ response, (network.send (u.request access) w.network).2 = .response response ∧
        response.isSuccess = true ∧ response.complete = true := by
  obtain ⟨hsendable, response, hreply, huse⟩ := exists_response_of_ok h
  refine ⟨hsendable, response, hreply, ?_⟩
  cases hreceived : response.received with
  | ok _ => exact Response.isSuccess_of_received hreceived
  | error _ =>
    rw [hreceived] at huse
    cases huse

/-- A completion that fails names the key. -/
theorem eq_of_finish_error {e : StoreError} (h : (finish network access u w).2.result = .error e) :
    ∃ text, e = .writeFinalization u.key text := by
  obtain ⟨f, rfl, -⟩ := failure_of_error noSuchKey h
  exact ⟨_, rfl⟩

end Exchange

/-! ## Writers -/

/-- The surroundings of a storage over a network. -/
abbrev networked (network : Network State) (access : Access) (setup : Setup) :
    Env (World State) Writer := ⟨setup, backend network access⟩

/-- The same among other occurrences. -/
abbrev remote (network : Network State) (access : Access) (setup : Setup) :
    Shared (World State) Writer := .alone (networked network access setup)

/-- A writer was opened under a key, with the options of the storage. -/
def OpenedWith (setup : Setup) (_ : Client) (key : String) (u : Writer) : Prop :=
  u.bucket = setup.bucket ∧ u.key = key ∧ u.options = setup.options

/-- The request that an upload of some data under a path completes its object with. -/
def uploadRequest (access : Access) (setup : Setup) (path : String) (data : ByteArray) : Request :=
  .upload access.signature setup.bucket (setup.roots.primaryKey path) setup.options data

theorem OpenedWith.request_eq {c : Client} {u : Writer}
    (h : OpenedWith setup c (setup.roots.primaryKey path) u) :
    u.request access = uploadRequest access setup path u.spool := by
  obtain ⟨hbucket, hkey, hoptions⟩ := h
  rw [Writer.request, uploadRequest, hbucket, hkey, hoptions]

theorem gathers_network (network : Network State) (access : Access) (setup : Setup) :
    Gathers (networked network access setup) Writer.spool where
  opened := by
    intro c key w u h
    cases h
    rfl
  wrote _ _ _ := ⟨rfl, rfl⟩
  flushed _ _ := rfl

theorem binds_network (network : Network State) (access : Access) (setup : Setup) :
    Binds (networked network access setup) (OpenedWith setup) where
  opened := by
    intro c key w u h
    cases h
    exact ⟨rfl, rfl, rfl⟩
  wrote _ _ _ _ _ h := h
  finished _ _ _ _ h := h

/-! ## One step of an upload -/

section Step

variable {m m' : Machine (World State) Writer} {task : Storage.Task Writer}
  {n : Next (World State) Writer} {id : TaskId} {x : Occurrence}

/-- The work of an upload sends something only when it completes the object. -/
theorem sent_of_works {c : Client} {w : World State} {visited : List Entry} {phase : Phase Writer}
    {k : Work (World State) Writer} (h : Works (networked network access setup) c w visited phase k)
    (hs : phase.Serves setup (.put path source)) : k.world.sent = w.sent ∨
      ∃ u writer a, phase = .flushed u (.ok ()) ∧ finish network access u.writer w = (writer, a) ∧
        k = .ofAnswer a (.completed { u with writer }) visited := by
  cases h with
  | finish ha => exact Or.inr ⟨_, _, _, rfl, ha, rfl⟩
  | openWriter ha | flush _ ha =>
    subst ha
    exact Or.inl rfl
  | write _ ha =>
    cases ha
    exact Or.inl rfl
  | ask _ _ =>
    -- a request to store has no other goal
    obtain ⟨_, hwants⟩ := hs
    cases hwants
  | openReader _ | look _ | delete _ | measure _ | copy _ => cases hs
  | _ => exact Or.inl rfl

/-- **An upload sends something only when it completes its object.** -/
theorem sent_of_turn (h : Turn (networked network access setup) m task n)
    (hs : task.phase.Serves setup (.put path source)) : n.world.sent = m.world.sent ∨
      ∃ u, task.phase = .flushed u (.ok ()) ∧
        n.world = (finish network access u.writer m.world).2.world ∧
        n.task.phase.completion? = some (finish network access u.writer m.world).2.result := by
  cases h with
  | acquire _ hn =>
    cases hn with
    | reject ha _ | create ha _ =>
      subst ha
      exact Or.inl rfl
    | _ => exact Or.inl rfl
  | work _ _ _ hw hn =>
    rcases sent_of_works hw hs with hsame | ⟨u, writer, a, hphase, ha, rfl⟩
    · refine Or.inl (Eq.trans ?_ hsame)
      cases hn with
      | destroy _ ha _ =>
        subst ha
        rfl
      | _ => rfl
    · refine Or.inr ⟨u, hphase, ?_⟩
      cases hn
      rw [ha]
      exact ⟨rfl, rfl⟩
  | disconnect _ _ ha _ | drainPool _ _ ha _ | closeNext _ _ _ ha _ | startDestroy _ _ _ _ ha _ =>
    subst ha
    exact Or.inl rfl
  | _ => exact Or.inl rfl

/-- Whoever asks for a writer gets one. -/
theorem opening?_of_turn (h : Turn (networked network access setup) m task n)
    {answer : Except StoreError Unit} (hopen : n.task.phase.opening? = some answer) :
    answer = .ok () := by
  cases h with
  | acquire _ hn => cases hn <;> cases hopen
  | work _ _ _ hw hn =>
    generalize task.phase = phase at hw
    cases hn with
    | keep _ =>
      cases hw with
      | openWriter ha =>
        subst ha
        cases hopen
        rfl
      | _ => cases hopen
    | giveBack _ _ | giveLate _ _ => cases hw <;> cases hopen
    | destroy _ _ _ => cases hopen
  | drain _ hdrains _ => cases hdrains <;> cases hopen
  | _ => cases hopen

end Step

/-! ## What an upload has sent -/

section Run

open Machine (Operates)

variable {m : Machine (World State) Writer} {os os' : List Occurrence} {x : Occurrence}
  {id : TaskId} {task : Storage.Task Writer}

theorem sentBy_append (env : Shared (World State) Writer) (id : TaskId)
    (m : Machine (World State) Writer) (os os' : List Occurrence) :
    sentBy env id m (os ++ os') = sentBy env id m os ++ sentBy env id (m.after env os) os' := by
  induction os generalizing m with
  | nil => rfl
  | cons x os ih =>
    simp only [List.cons_append, sentBy, ih, List.append_assoc]
    rfl

/-- What was sent stays so. -/
theorem sentBy_prefix (env : Shared (World State) Writer) (id : TaskId)
    (m : Machine (World State) Writer) (h : os' <+: os) :
    sentBy env id m os' <+: sentBy env id m os := by
  obtain ⟨rest, rfl⟩ := h
  rw [sentBy_append]
  exact List.prefix_append _ _

theorem sentBy_concat (env : Shared (World State) Writer) (id : TaskId)
    (m : Machine (World State) Writer) (os : List Occurrence) (x : Occurrence) :
    sentBy env id m (os ++ [x]) = sentBy env id m os ++
      if x.isOf id then (m.after env os).world.sentUntil (m.after env (os ++ [x])).world
      else [] := by
  rw [sentBy_append, Machine.after_concat]
  simp only [sentBy, List.append_nil]

/-- A step adds what is sent in it. -/
theorem sentBy_step (env : Shared (World State) Writer) (id : TaskId)
    (m : Machine (World State) Writer) (os : List Occurrence) :
    sentBy env id m (os ++ [.event (.step id)]) = sentBy env id m os ++
      (m.after env os).world.sentUntil (m.after env (os ++ [.event (.step id)])).world := by
  rw [sentBy_concat, if_pos (show Occurrence.isOf id (.event (.step id)) = true from
    decide_eq_true rfl)]

/-- A task sends something only with a step. -/
theorem sentBy_concat_cases (ho : Orderly m) (hops : Operates (os ++ [x])) (id : TaskId) :
    let env := remote network access setup
    sentBy env id m (os ++ [x]) = sentBy env id m os ∨
      ∃ task n, x = .event (.step id) ∧ (m.after env os).task? id = some task ∧
        Turn env.toEnv (m.after env os) task n ∧
        (m.after env (os ++ [x])).bare = ((m.after env os).follow id n).bare := by
  intro env
  have ho' : Orderly (m.after env os) := ho.after (hops.of_prefix (List.prefix_append os [x]))
  have hquiet : (m.after env (os ++ [x])).world.sent = (m.after env os).world.sent →
      sentBy env id m (os ++ [x]) = sentBy env id m os := by
    intro hsame
    rw [sentBy_concat, World.sentUntil_of_eq hsame, ite_self, List.append_nil]
  rcases ho'.occur_cases env x id with hturn | hof | hsame | ⟨writer, hdrop⟩
  · rw [← Machine.after_concat] at hturn
    exact Or.inr hturn
  · left
    rw [sentBy_concat, hof, if_neg Bool.false_ne_true, List.append_nil]
  · rw [← Machine.after_concat] at hsame
    exact Or.inl (hquiet (congrArg World.sent hsame))
  · rw [← Machine.after_concat] at hdrop
    exact Or.inl (hquiet (congrArg World.sent hdrop))

/-- What an upload has sent: nothing, or its one request, with all that its source yields, when it
completed its object. -/
def Posts (network : Network State) (access : Access) (setup : Setup)
    (m : Machine (World State) Writer) (os : List Occurrence) (id : TaskId) (path : String)
    (source : Stream) : Prop :=
  let env := remote network access setup
  sentBy env id m os = [] ∨ ∃ data answer, source.content = .ok data ∧
    m.CompletionIs env os id answer ∧ sentBy env id m os = [uploadRequest access setup path data]

theorem Posts.of_eq (h : Posts network access setup m os id path source)
    (hsame : sentBy (remote network access setup) id m (os ++ [x]) =
      sentBy (remote network access setup) id m os) :
    Posts network access setup m (os ++ [x]) id path source := by
  rcases h with hnone | ⟨data, answer, hcontent, hcompletion, hsent⟩
  · exact Or.inl (hsame.trans hnone)
  · exact Or.inr ⟨data, answer, hcontent, hcompletion.concat x, hsame.trans hsent⟩

/-- The writer of an upload that was flushed has all that the source yields. -/
theorem request_of_flushed {u : Upload Writer} {reply : Except IoError Unit}
    (h : task.Told (OpenedWith setup) Writer.spool (remote network access setup) m os id path
      source) (hphase : task.phase = .flushed u reply) :
    ∃ data, source.content = .ok data ∧
      u.writer.request access = uploadRequest access setup path data := by
  obtain ⟨hserves, hbound, hbrings, -⟩ := h
  obtain ⟨c, -, hopened⟩ := hbound u.key u.writer (by rw [hphase]; rfl)
  rw [hphase] at hserves hbrings
  obtain ⟨-, hcontent⟩ := hbrings
  obtain ⟨source', hwants⟩ := hserves
  obtain ⟨path', hput, hkey⟩ := hwants.exists_put
  cases hput
  rw [hkey] at hopened
  exact ⟨_, hcontent, hopened.request_eq⟩

/-- **An upload sends its one request, or nothing.** -/
theorem posts_of_asked (ho : Orderly m) (hops : Operates os)
    (h : (m.after (remote network access setup) os).nextTask ≤ id ∨
      m.Asked (remote network access setup) os id (.put path source)) :
    Posts network access setup m os id path source := by
  induction os using List.reverseRecOn with
  | nil => exact Or.inl rfl
  | append_singleton os x ih =>
    have hops' := hops.of_prefix (List.prefix_append os [x])
    have ho' : Orderly (m.after (remote network access setup) os) := ho.after hops'
    have hbefore : (m.after (remote network access setup) os).nextTask ≤ id ∨
        m.Asked (remote network access setup) os id (.put path source) := by
      rcases h with hle | hasked
      · rw [Machine.after_concat] at hle
        exact Or.inl (Nat.le_trans (ho'.nextTask_le_occur _ x) hle)
      · rcases Machine.asked_concat.1 hasked with hold | ⟨-, hid⟩
        · exact Or.inr hold
        · exact Or.inl (Nat.le_of_eq hid)
    have hposts := ih hops' hbefore
    rcases sentBy_concat_cases ho hops id with hsame | ⟨task, n, rfl, htask, hturn, hm'⟩
    · exact hposts.of_eq hsame
    have hasked : m.Asked (remote network access setup) os id (.put path source) := by
      rcases hbefore with hle | hasked
      · exact absurd (ho'.lt_nextTask htask) (Nat.not_lt.2 hle)
      · exact hasked
    have hworld := Machine.world_of_follow hm'
    have htold := ho.told (gathers_network network access setup)
      (binds_network network access setup) hops' hasked htask
    rcases sent_of_turn hturn htold.serves with hsent | ⟨u, hphase, hfinish, hanswer⟩
    · refine hposts.of_eq ?_
      rw [sentBy_concat, World.sentUntil_of_eq (hworld ▸ hsent), ite_self, List.append_nil]
    · -- it completes its object now, and has not done so before
      obtain ⟨data, hcontent, hrequest⟩ := request_of_flushed htold hphase
      have hnever : sentBy (remote network access setup) id m os = [] := by
        rcases hposts with hnone | ⟨_, _, -, hcompletion, -⟩
        · exact hnone
        · exact absurd hphase (ho.phase_ne_flushed hops' hcompletion htask u _)
      have hsent := sentBy_step (remote network access setup) id m os
      rw [hnever, hworld, hfinish, sentUntil_finish, hrequest, List.nil_append] at hsent
      split at hsent
      · exact Or.inr ⟨data, _, hcontent, .now (Machine.task?_of_follow hm' htask) hanswer, hsent⟩
      · exact Or.inl hsent

/-- **An object that is completed has been sent**, and the request was answered with success. -/
theorem exchanged_of_completion (ho : Orderly m) (hops : Operates os)
    (hasked : m.Asked (remote network access setup) os id (.put path source))
    (h : m.CompletionIs (remote network access setup) os id (.ok ())) :
    ∃ data response, source.content = .ok data ∧
      sentBy (remote network access setup) id m os = [uploadRequest access setup path data] ∧
      Exchanged network (remote network access setup) m os id
        (uploadRequest access setup path data) (.response response) ∧
      response.isSuccess = true ∧ response.complete = true := by
  obtain ⟨-, data, hcontent, before, c, u, hbefore, hopened, rfl, hworld, hresult, -⟩ :=
    ho.completion (gathers_network network access setup) (binds_network network access setup) hops
      hasked h
  have hrequest : u.request access = uploadRequest access setup path u.spool :=
    OpenedWith.request_eq hopened
  obtain ⟨hsendable, response, hreply, hsuccess⟩ := of_finish_eq_ok hresult
  have hsent := hworld.trans (world_finish hsendable)
  rw [hrequest] at hreply hsent
  have hnews : (m.after (remote network access setup) before).world.sentUntil
      (m.after (remote network access setup) (before ++ [.event (.step id)])).world =
        [uploadRequest access setup path u.spool] :=
    World.sentUntil_of_cons (congrArg World.sent hsent)
  refine ⟨u.spool, response, hcontent, ?_, ⟨before, hbefore, hnews, ?_⟩, hsuccess⟩
  · have hpart := sentBy_prefix (remote network access setup) id m hbefore
    rw [sentBy_step, hnews] at hpart
    rcases posts_of_asked ho hops (Or.inr hasked) with hnone | ⟨data, answer, hsame, -, hone⟩
    · -- what was sent with that step would be missing
      rw [hnone, List.prefix_nil] at hpart
      exact absurd hpart (by simp)
    · rw [hcontent] at hsame
      cases hsame
      exact hone
  · rw [congrArg World.network hsent, ← hreply]

/-- Whoever has asked for a writer has got one. -/
theorem opening_eq_ok (ho : Orderly m) (hops : Operates os) {r : Storage.Request}
    (hasked : m.Asked (remote network access setup) os id r) {answer : Except StoreError Unit}
    (h : m.OpeningIs (remote network access setup) os id answer) : answer = .ok () := by
  obtain ⟨first, hfirst, task, htask, hanswer⟩ := h
  exact ho.forall_asked (P := fun _ _ _ task => ∀ answer, task.phase.opening? = some answer →
      answer = .ok ()) (hops.of_prefix hfirst) (fun _ _ _ _ _ h => h) (fun _ _ _ _ => nofun)
    (fun _ _ _ _ _ _ _ hn _ _ _ hopen => opening?_of_turn hn hopen)
    (ho.asked_of_task? hops hasked hfirst htask) htask answer hanswer

/-- A storage that is connected is one over the network. -/
theorem of_connect {files : LocalFiles} {config : Config} {state : State}
    {env : Env (World State) Writer} (h : connect files network config state = .ok (env, m)) :
    ∃ access, Access.ofConfig files config = .ok access ∧
      env = networked network access (.ofConfig kind config) ∧
      Storage.connect kind (backend network access) config (.start state) = .ok m := by
  unfold connect at h
  cases hvalid : config.validate with
  | error e =>
    rw [hvalid] at h
    cases h
  | ok _ =>
    cases haccess : Access.ofConfig files config with
    | error e =>
      simp only [hvalid, haccess, bind, Except.bind] at h
      cases h
    | ok access =>
      cases hm : Storage.connect kind (backend network access) config (.start state) with
      | error e =>
        simp only [hvalid, haccess, hm, bind, Except.bind] at h
        cases h
      | ok m' =>
        simp only [hvalid, haccess, hm, bind, Except.bind, pure, Except.pure] at h
        cases h
        exact ⟨access, rfl, rfl, hm⟩

/-- **What uploads send.** Operations of any kind go on over a network that answers as it likes, in
any order of their steps, and may be cancelled. Whatever comes of an upload,

- it has sent nothing, or the one request that stores all that its source yields under the key of
  the path, with the storage class, unless that is empty, and with the labels; and it has sent
  nothing before it came to complete the object.

An upload that has got a client comes to its end, and

- it has succeeded, and its request was answered with success;
- or its source has failed, and it returns this failure and has sent nothing;
- or its object was not completed, and it returns an error that names the key. -/
theorem upload_sends {files : LocalFiles} {config : Config} {state : State}
    {env : Env (World State) Writer} (hconnect : connect files network config state = .ok (env, m))
    (hops : Operates os) (hasked : m.Asked (.alone env) os id (.put path source)) :
    ∃ access, Access.ofConfig files config = .ok access ∧
      let last := m.after (.alone env) os
      let sent := sentBy (.alone env) id m os
      let key := config.roots.primaryKey path
      let request := Request.upload access.signature config.bucket key
        ⟨config.storageClass.filter fun s => !s.isEmpty, config.labels⟩
      (sent = [] ∨ ∃ data answer, source.content = .ok data ∧
        m.CompletionIs (.alone env) os id answer ∧ sent = [request data]) ∧
      (m.Obtained (.alone env) os id → ∀ task, last.task? id = some task → last.EndsAlone env id ∧
        ∀ result, task.phase = .ended result →
          (result = .ok .unit ∧ ∃ data response, source.content = .ok data ∧
            sent = [request data] ∧
            Exchanged network (.alone env) m os id (request data) (.response response) ∧
            response.isSuccess = true ∧ response.complete = true) ∨
          (∃ e, source.content = .error e ∧ result = .error (.io e) ∧ sent = []) ∨
          ∃ data text, source.content = .ok data ∧
            result = .error (.writeFinalization key text)) := by
  obtain ⟨access, haccess, rfl, hm⟩ := of_connect hconnect
  have ho : Orderly m := .of_connect hm
  have hg := gathers_network network access (.ofConfig kind config)
  have hb := binds_network network access (.ofConfig kind config)
  have hposts := posts_of_asked ho hops (Or.inr hasked)
  refine ⟨access, haccess, hposts, fun hobtained task htask => ⟨?_, fun result hended => ?_⟩⟩
  · exact (ho.after hops).endsAlone _ htask
      (ho.isUnderWay_of_obtained hops (Or.inl ⟨path, source, rfl⟩) hasked hobtained htask)
  · cases ho.uploadEnds hg hb hops hasked hobtained htask hended with
    | refused hopen => cases opening_eq_ok ho hops hasked hopen
    | broken _ hcontent =>
      refine Or.inr (Or.inl ⟨_, hcontent, rfl, ?_⟩)
      rcases hposts with hnone | ⟨data, _, hdata, -⟩
      · exact hnone
      · rw [hcontent] at hdata
        cases hdata
    | incomplete _ hcontent hend =>
      obtain ⟨-, data, -, _, _, u, -, ⟨-, hkey, -⟩, -, -, hresult, -⟩ :=
        ho.completion hg hb hops hasked hend
      obtain ⟨text, rfl⟩ := eq_of_finish_error hresult
      exact Or.inr (Or.inr ⟨_, text, hcontent, by rw [hkey]; rfl⟩)
    | stored _ _ hend =>
      exact Or.inl ⟨rfl, exchanged_of_completion ho hops hasked hend⟩

/-- The settings of a store with fixed credentials, a storage class and a label. -/
def labelled : Config :=
  { Config.standard with
    bucket := "b"
    storageClass := some "COLD"
    labels := [("owner", "db")]
    credentialsJson := some "\x7b\"access_key_id\":\"AK\",\"secret_access_key\":\"SK\"\x7d" }

/-- How the store with these settings is reached. -/
def labelledAccess : Access := ⟨none, "us-east-1", .fixed ⟨"AK", "SK", none⟩, false⟩

theorem exists_connect_labelled (replies : List Reply) :
    ∃ m, Storage.connect kind (backend .script labelledAccess) labelled (.start replies) = .ok m ∧
      connect (fun _ => .error .missingFile) .script labelled replies =
        .ok (networked .script labelledAccess (.ofConfig kind labelled), m) :=
  exists_connect (by decide +kernel) (by decide +kernel) .script replies

/-- An upload in two pieces, with a pause between them, whose request is answered with success. -/
theorem upload_sends_of_pieces :
    ∃ (m : Machine (World (List Reply)) Writer) (os : List Occurrence) (access : Access),
      let env := networked .script labelledAccess (.ofConfig kind labelled)
      connect (fun _ => .error .missingFile) .script labelled
          [.response ⟨200, [], none, none, .empty, .none, true⟩] = .ok (env, m) ∧
        Operates os ∧
        m.Asked (.alone env) os 0 (.put "./a" [.data ⟨#[7]⟩, .pause 5, .data ⟨#[8]⟩]) ∧
        m.HasReturned (.alone env) os 0 (.ok ()) ∧
        access.signature = some ⟨"AK", none, "us-east-1"⟩ ∧
        sentBy (.alone env) 0 m os =
          [.upload access.signature "b" "a" ⟨some "COLD", [("owner", "db")]⟩ ⟨#[7, 8]⟩] := by
  obtain ⟨os, hos⟩ : ∃ os : List Occurrence, os =
    .event (.request (.put "./a" [.data ⟨#[7]⟩, .pause 5, .data ⟨#[8]⟩])) ::
      List.replicate 8 (.event (.step 0)) ++ .event (.pass 5) ::
      List.replicate 6 (.event (.step 0)) := ⟨_, rfl⟩
  obtain ⟨m, hm, hconnect⟩ := exists_connect_labelled
    [.response ⟨200, [], none, none, .empty, .none, true⟩]
  obtain ⟨env, henv⟩ : ∃ env, env = networked .script labelledAccess (.ofConfig kind labelled) :=
    ⟨_, rfl⟩
  obtain ⟨hfirst, hreturned, hcount⟩ : m.nextTask = 0 ∧
      ((m.after (.alone env) os).task? 0).any (·.returned? = some (.ok ())) = true ∧
      (sentBy (.alone env) 0 m os).length = 1 := by
    -- the state is written out, for the run to be evaluated
    have hvalid : labelled.validate = .ok () := by decide +kernel
    subst henv hos
    unfold Storage.connect at hm
    rw [hvalid] at hm
    cases hm
    decide +kernel
  subst henv
  obtain ⟨task, htask, hreturned⟩ := (Option.any_eq_true _ _).1 hreturned
  have hops : Operates os := by
    intro r hr
    simp [hos] at hr
    subst hr
    rfl
  have hasked : m.Asked (remote .script labelledAccess (.ofConfig kind labelled)) os 0
      (.put "./a" [.data ⟨#[7]⟩, .pause 5, .data ⟨#[8]⟩]) := ⟨[], by simp [hos], hfirst⟩
  obtain ⟨access, haccess, hsent, -⟩ := upload_sends hconnect hops hasked
  have hsame : access = labelledAccess := by
    have hlabelled : Access.ofConfig (fun _ => .error .missingFile) labelled =
        .ok labelledAccess := by decide +kernel
    exact Except.ok.inj (haccess.symm.trans hlabelled)
  subst hsame
  have hkey : labelled.roots.primaryKey "./a" = "a" := by decide +kernel
  refine ⟨m, os, labelledAccess, hconnect, hops, hasked,
    ⟨os, List.prefix_rfl, task, htask, of_decide_eq_true hreturned⟩, rfl, ?_⟩
  rcases hsent with hnone | ⟨data, answer, hcontent, -, hone⟩
  · rw [hnone] at hcount
    cases hcount
  · cases hcontent
    rw [hone, hkey]
    rfl

/-- An upload whose source is interrupted before its end sends its request nevertheless, with what
the source yields besides, and has succeeded. -/
theorem interrupted_upload_is_sent :
    ∃ (m : Machine (World (List Reply)) Writer) (os : List Occurrence),
      let env := networked .script labelledAccess (.ofConfig kind labelled)
      let source : Stream := [.data ⟨#[7]⟩, .fail ⟨.interrupted, none⟩]
      connect (fun _ => .error .missingFile) .script labelled
          [.response ⟨200, [], none, none, .empty, .none, true⟩] = .ok (env, m) ∧
        Operates os ∧ m.Asked (.alone env) os 0 (.put "a" source) ∧ source.endsFirst = false ∧
        (sentBy (.alone env) 0 m os).map (·.body) = [some ⟨#[7]⟩] ∧
        m.HasReturned (.alone env) os 0 (.ok ()) := by
  obtain ⟨os, hos⟩ : ∃ os : List Occurrence, os =
    .event (.request (.put "a" [.data ⟨#[7]⟩, .fail ⟨.interrupted, none⟩])) ::
      List.replicate 10 (.event (.step 0)) := ⟨_, rfl⟩
  obtain ⟨m, hm, hconnect⟩ := exists_connect_labelled
    [.response ⟨200, [], none, none, .empty, .none, true⟩]
  obtain ⟨hfirst, hreturned, hbodies⟩ : m.nextTask = 0 ∧
      ((m.after (remote .script labelledAccess (.ofConfig kind labelled)) os).task? 0).any
        (·.returned? = some (.ok ())) = true ∧
      (sentBy (remote .script labelledAccess (.ofConfig kind labelled)) 0 m os).map
        (·.body) = [some ⟨#[7]⟩] := by
    have hvalid : labelled.validate = .ok () := by decide +kernel
    subst hos
    unfold Storage.connect at hm
    rw [hvalid] at hm
    cases hm
    decide +kernel
  obtain ⟨task, htask, hreturned⟩ := (Option.any_eq_true _ _).1 hreturned
  refine ⟨m, os, hconnect, ?_, ⟨[], by simp [hos], hfirst⟩, rfl, hbodies,
    ⟨os, List.prefix_rfl, task, htask, of_decide_eq_true hreturned⟩⟩
  intro r hr
  simp [hos] at hr
  subst hr
  rfl

end Run

end Depot.S3
