import Depot.Proofs.Reference
import Depot.Proofs.Storage.Origin
import Depot.Proofs.Storage.Uploads

/-!
# The outcome of an upload

Over a store in memory, the source of an upload and the answers of the store decide what an upload
returns, however its data comes in pieces and whatever else goes on. When it succeeds, the object is
stored with all that the source yields, and whoever finds it there reads just that
(`Orderly.read_found`). The main statement is `upload_outcome`.
-/

set_option autoImplicit false

namespace Depot.Storage

open Machine (Operates)
open Memory (Location StoredObject)

variable {setup : Setup} {path : String} {source : Stream}

/-! ## What a reader finds -/

section Reading

variable {m : Machine Memory Memory.Writer} {task : Task Memory.Writer}
  {o : StoredObject} {os : List Occurrence} {id : TaskId}

/-- Whether a task in a phase has opened an object, and no failure has come of it. -/
def Phase.isReading {Writer : Type} : Phase Writer → Bool
  | .opened (.ok _) => true
  | draining _ _ => true
  | ended (.ok _) => true
  | _ => false

/-- **Reading goes on** with every step, once the object is opened. -/
theorem Turn.isReading {World Writer : Type} {env : Env World Writer} {m : Machine World Writer}
    {task : Task Writer} {n : Next World Writer} (h : Turn env m task n)
    (hreading : task.phase.isReading = true) : n.task.phase.isReading = true := by
  have hseeks : task.phase.seeks ≠ true := by
    intro hseeks
    generalize task.phase = phase at hreading hseeks
    cases phase <;> simp [Phase.isReading, Phase.seeks] at hreading hseeks
  cases h with
  | acquire hasks _ => exact absurd hasks.seeks hseeks
  | shut hshuts _ | drainPool hshuts _ _ _ => exact absurd hshuts.seeks hseeks
  | work _ _ _ hw hn =>
    generalize task.phase = phase at hw hreading
    cases hw with
    | opened => cases hn <;> rfl
    | _ => cases hreading
  | drain _ hdrains _ => cases hdrains <;> rfl
  | deny hphase _ | invalidated hphase _ | disconnect hphase _ _ _ | apart hphase _
  | closeNext hphase _ _ _ _ | closeLast hphase _ _ | startDestroy hphase _ _ _ _ _
  | destroyed hphase _ =>
    rw [hphase] at hreading
    cases hreading

/-- Who has just got a client does not wait for anything. -/
theorem Turn.alarm_of_lent {World Writer : Type} {env : Env World Writer}
    {m : Machine World Writer} {task : Task Writer} {n : Next World Writer} {g : Goal}
    (h : Turn env m task n) (hlent : n.task.phase = .lent g) : n.task.alarm = none := by
  cases h with
  | acquire _ hn =>
    cases hn with
    | lend => rfl
    | _ => cases hlent
  | work _ _ _ hw hn =>
    generalize task.phase = phase at hw
    cases hn with
    | keep _ | giveBack _ _ | giveLate _ _ =>
      cases hlent
      cases hw
    | destroy _ _ _ => cases hlent
  | drain _ hdrains _ =>
    cases hdrains <;> cases hlent
  | _ => cases hlent

/-- A task that has just got a client does not wait for anything. -/
theorem Orderly.alarm_of_lent {World Writer : Type} {env : Shared World Writer}
    {m : Machine World Writer} {os : List Occurrence} {id : TaskId} {task : Task Writer}
    {r : Request} {g : Goal} (ho : Orderly m) (hops : Operates os) (hasked : m.Asked env os id r)
    (htask : (m.after env os).task? id = some task) (hlent : task.phase = .lent g) :
    task.alarm = none :=
  ho.forall_asked (P := fun _ _ _ task => ∀ g, task.phase = .lent g → task.alarm = none) hops
    (fun _ _ _ _ _ h => h) (fun _ _ _ _ => nofun)
    (fun _ _ _ _ _ _ _ hn _ _ _ hlent => hn.alarm_of_lent hlent) hasked htask g hlent

/-- Whoever finds an object opens it. -/
theorem Orderly.opens_of_finds (ho : Orderly m) (hops : Operates os)
    (hasked : m.Asked (.memory setup) os id (.read path))
    (h : m.Finds (.memory setup) os id ⟨setup.bucket, setup.roots.primaryKey path⟩ o) :
    ∃ first task, first <+: os ∧ (m.after (.memory setup) first).task? id = some task ∧
      task.phase = .opened (.ok (.ofBytes o.data)) := by
  obtain ⟨before, task, g, hbefore, htask, hlent, hget, hallows⟩ := h
  have hpart := (List.prefix_append before _).trans hbefore
  have hops' := hops.of_prefix hpart
  have ho' : Orderly (m.after (.memory setup) before) := ho.after hops'
  have hasked' := ho.asked_of_task? hops hasked hpart htask
  have hserves := ho.serves_of_asked hops' hasked' htask
  have halarm := ho.alarm_of_lent hops' hasked' htask hlent
  obtain ⟨n, hturn, hm'⟩ := ho'.exists_turn_of_step (storing setup) htask
    (by simp [hlent]) (by simp [hlent]) (by simp [halarm])
  obtain ⟨t, c, k, -, -, -, hw, hn⟩ := hturn.of_holding (by simp [hlent, Phase.stage])
  refine ⟨before ++ [.event (.step id)], n.task, hbefore, ?_, ?_⟩
  · rw [Machine.after_concat]
    exact Machine.task?_of_follow hm' htask
  · rw [hlent] at hw hserves
    cases hserves
    cases hw with
    | openReader ha =>
      subst ha
      cases hn with
      | keep _ => exact congrArg Phase.opened (Reference.look_of_allows hallows hget _ c)

/-- **Whoever finds an object reads it.** It comes to its end with all the data of the object. -/
theorem Orderly.read_found (ho : Orderly m) (hops : Operates os)
    (hasked : m.Asked (.memory setup) os id (.read path))
    (h : m.Finds (.memory setup) os id ⟨setup.bucket, setup.roots.primaryKey path⟩ o)
    (htask : (m.after (.memory setup) os).task? id = some task) :
    (m.after (.memory setup) os).EndsAlone (storing setup) id ∧
      ∀ result, task.phase = .ended result → result = .ok (.data o.data) := by
  obtain ⟨first, task₀, hfirst, htask₀, hopened⟩ := ho.opens_of_finds hops hasked h
  have hkept := ho.forall_later hops (P := fun task => task.phase.Serves setup (.read path) ∧
    task.phase.isReading = true ∧ task.phase.Reads (· = o)) ?_ hfirst htask₀ ?_ htask
  · obtain ⟨-, hreading, hreads⟩ := hkept
    have hway : task.phase.isUnderWay = true := by
      generalize task.phase = phase at hreading
      cases phase with
      | opened _ | draining _ _ | ended _ => rfl
      | _ => cases hreading
    refine ⟨(ho.after hops).endsAlone (storing setup) htask hway, fun result hended => ?_⟩
    rw [hended] at hreading hreads
    cases result with
    | error e => cases hreading
    | ok outcome =>
      obtain ⟨_, rfl, rfl⟩ := hreads
      rfl
  · rintro m' task' n hn ⟨hserves, hreading, hreads⟩
    refine ⟨hn.serves hserves, hn.isReading hreading, hn.reads hserves hreads fun hlent => ?_⟩
    rw [hlent] at hreading
    cases hreading
  · rw [hopened]
    exact ⟨⟨_, rfl⟩, rfl, o, rfl, Stream.content_ofBytes o.data⟩

end Reading

/-! ## What an upload stores -/

section Upload

variable {m : Machine Memory Memory.Writer} {os : List Occurrence} {id : TaskId} {key : String}
  {data : ByteArray} {answer : Except StoreError Unit}

/-- A writer was opened under a key, with the options of the storage. -/
def OpenedWith (setup : Setup) (_ : Client) (key : String) (w : Memory.Writer) : Prop :=
  w.location = ⟨setup.bucket, key⟩ ∧ w.options = setup.options

theorem binds_options (setup : Setup) : Binds (storing setup) (OpenedWith setup) where
  opened := by
    intro c key world writer h
    rw [Memory.eq_of_openWriter h]
    exact ⟨rfl, rfl⟩
  wrote _ _ _ _ _ h := h
  finished _ _ writer world h := by
    obtain ⟨hlocation, hoptions⟩ := Memory.finish_writer writer world
    exact ⟨hlocation.trans h.1, hoptions.trans h.2⟩

/-- The completion of an object in memory. -/
abbrev CompletionInMemory (setup : Setup) :=
  Completion (OpenedWith setup) Memory.Writer.buffer (.memory setup)

/-- A completion that fails names the key. -/
theorem Completion.eq_of_error {e : StoreError}
    (h : CompletionInMemory setup m os id key data (.error e)) :
    ∃ text, e = .writeFinalization key text := by
  obtain ⟨before, c, writer, -, ⟨hlocation, -⟩, -, -, hresult, -⟩ := h
  obtain ⟨text, rfl⟩ := Memory.eq_of_finish_error hresult
  exact ⟨text, by rw [hlocation]⟩

/-- **A completion that succeeds has stored all that was gathered**, with the options of the
storage, and the upload returns without waiting. -/
theorem Orderly.stored_of_completion (ho : Orderly m) (hops : Operates os)
    (h : CompletionInMemory setup m os id key data (.ok ())) :
    ∃ before o, before ++ [.event (.step id)] <+: os ∧
      let stored := m.after (.memory setup) (before ++ [.event (.step id)])
      stored.Succeeds (storing setup) id ∧
        stored.world.objects.get? ⟨setup.bucket, key⟩ = some o ∧ o.data = data ∧
        o.options = setup.options := by
  obtain ⟨before, c, writer, hbefore, ⟨hlocation, hoptions⟩, hdata, hworld, hresult, task, u, htask,
    hphase, hrings⟩ := h
  obtain ⟨o, hget, ho', hoptions'⟩ := Memory.get?_of_finish hresult
  have hdelay := (Memory.alters_finish writer (m.after (.memory setup) before).world).delay
  have hsucceeded : task.Succeeded := ⟨Or.inl (by rw [hphase]; rfl), hrings.2 hdelay⟩
  refine ⟨before, o, hbefore, (ho.after (hops.of_prefix hbefore)).succeeds _ htask hsucceeded, ?_,
    ho'.trans hdata, hoptions'.trans hoptions⟩
  rw [hworld, ← hlocation]
  exact hget

/-- **The outcome of an upload.** Operations of any kind go on over a store in memory, in any order
of their steps; whoever works may be cancelled, objects may be stored directly, and calls may be
ordered to fail. An upload that has got a client comes to its end, and

- it has succeeded exactly when the store has opened a writer for it, its source comes to its end
  without a failure, and the store has completed the object;
- otherwise it has failed with the error of the store that opened no writer, with the failure of the
  source, or with an error that names the key, because the object was not completed;
- when the object is completed, all that the source yields is stored under the key of the path, with
  the storage class, unless that is empty, and with the labels, and the upload returns without
  waiting;
- whoever finds an object there, by any path with the same key, comes to an end with all its
  data. -/
theorem upload_outcome {kind : String} {config : Config} {w : Memory} {path : String}
    {source : Stream} (hconnect : connect kind Memory.backend config w = .ok m)
    (hops : Operates os)
    (hasked : m.Asked (.memory (.ofConfig kind config)) os id (.put path source))
    (hobtained : m.Obtained (.memory (.ofConfig kind config)) os id) :
    let env := Shared.memory (.ofConfig kind config)
    let last := m.after env os
    let key := config.roots.primaryKey path
    let l : Location := ⟨config.bucket, key⟩
    (∀ task, last.task? id = some task → last.EndsAlone env.toEnv id ∧
      ∀ result, task.phase = .ended result →
        (result = .ok .unit ↔ m.OpeningIs env os id (.ok ()) ∧
          (∃ data, source.content = .ok data) ∧ m.CompletionIs env os id (.ok ())) ∧
        (result ≠ .ok .unit →
          (∃ e, m.OpeningIs env os id (.error e) ∧ result = .error e) ∨
          (m.OpeningIs env os id (.ok ()) ∧
            ∃ e, source.content = .error e ∧ result = .error (.io e)) ∨
          (m.OpeningIs env os id (.ok ()) ∧ (∃ data, source.content = .ok data) ∧
            ∃ text, m.CompletionIs env os id (.error (.writeFinalization key text)) ∧
              result = .error (.writeFinalization key text)))) ∧
    (m.CompletionIs env os id (.ok ()) → ∃ data before o, source.content = .ok data ∧
      before ++ [.event (.step id)] <+: os ∧
      let stored := m.after env (before ++ [.event (.step id)])
      stored.Succeeds env.toEnv id ∧ stored.world.objects.get? l = some o ∧ o.data = data ∧
        o.options = ⟨config.storageClass.filter fun s => !s.isEmpty, config.labels⟩) ∧
    ∀ id' path' o task, config.roots.primaryKey path' = key → m.Asked env os id' (.read path') →
      m.Finds env os id' l o → last.task? id' = some task →
        last.EndsAlone env.toEnv id' ∧
          ∀ result, task.phase = .ended result → result = .ok (.data o.data) := by
  intro env last key l
  have ho := Orderly.of_connect hconnect
  have hg := gathers_memory (.ofConfig kind config)
  have hb := binds_options (.ofConfig kind config)
  refine ⟨fun task htask => ⟨?_, fun result hended => ?_⟩, fun hcompletion => ?_,
    fun id' path' o task hkey hread hfinds htask => ?_⟩
  · exact (ho.after hops).endsAlone env.toEnv htask
      (ho.isUnderWay_of_obtained hops (Or.inl ⟨path, source, rfl⟩) hasked hobtained htask)
  · have hends := ho.uploadEnds hg hb hops hasked hobtained htask hended
    refine ⟨ho.eq_unit_iff hops hends, fun hfailed => ?_⟩
    cases hends with
    | refused hopen => exact Or.inl ⟨_, hopen, rfl⟩
    | broken hopen hcontent => exact Or.inr (Or.inl ⟨hopen, _, hcontent, rfl⟩)
    | incomplete hopen hcontent hend =>
      obtain ⟨-, data, -, hcompletion⟩ := ho.completion hg hb hops hasked hend
      obtain ⟨text, rfl⟩ := hcompletion.eq_of_error
      exact Or.inr (Or.inr ⟨hopen, ⟨_, hcontent⟩, text, hend, rfl⟩)
    | stored _ _ _ => exact absurd rfl hfailed
  · obtain ⟨-, data, hcontent, hdone⟩ := ho.completion hg hb hops hasked hcompletion
    obtain ⟨before, o, hbefore, hsucceeds, hget, hdata, hoptions⟩ :=
      ho.stored_of_completion hops hdone
    exact ⟨data, before, o, hcontent, hbefore, hsucceeds, hget, hdata, hoptions⟩
  · have hfinds' : m.Finds env os id' ⟨config.bucket, config.roots.primaryKey path'⟩ o :=
      hkey ▸ hfinds
    exact ho.read_found hops hread hfinds' htask

/-- An upload in two pieces, with a pause between them, and then a read by another path with the
same key. -/
theorem upload_outcome_of_pieces :
    ∃ (config : Config) (m : Machine Memory Memory.Writer) (os : List Occurrence)
      (task : Task Memory.Writer),
      let env := Shared.memory (.ofConfig "memory" config)
      connect "memory" Memory.backend config (.new 1) = .ok m ∧
      m.Asked env os 0 (.put "a" [.data ⟨#[7]⟩, .pause 5, .data ⟨#[8]⟩]) ∧
      m.Obtained env os 0 ∧ m.CompletionIs env os 0 (.ok ()) ∧
      (∃ before o, before ++ [.event (.step 0)] <+: os ∧
        (m.after env (before ++ [.event (.step 0)])).world.objects.get? ⟨"b", "a"⟩ = some o ∧
        o.data = ⟨#[7, 8]⟩) ∧
      m.Asked env os 1 (.read "./a") ∧ (m.after env os).task? 1 = some task ∧
      task.returned? = some (.ok ()) ∧
      ∀ result, task.phase = .ended result → result = .ok (.data ⟨#[7, 8]⟩) := by
  obtain ⟨config, hconfig⟩ : ∃ config : Config,
      config = { Config.standard with bucket := "b" } := ⟨_, rfl⟩
  have hvalid : config.validate = .ok () := hconfig ▸ Config.validate_standard (by decide)
  obtain ⟨m, hconnect⟩ : ∃ m, connect "memory" Memory.backend config (.new 1) = .ok m :=
    exists_connect "memory" hvalid rfl
  obtain ⟨stored, hstored⟩ : ∃ stored : List Occurrence, stored =
    .event (.request (.put "a" [.data ⟨#[7]⟩, .pause 5, .data ⟨#[8]⟩])) ::
      List.replicate 8 (.event (.step 0)) ++ .event (.pass 5) ::
      List.replicate 6 (.event (.step 0)) := ⟨_, rfl⟩
  obtain ⟨lent, hlent⟩ : ∃ lent : List Occurrence, lent =
    stored ++ [.event (.request (.read "./a")), .event (.step 1)] := ⟨_, rfl⟩
  obtain ⟨os, hos⟩ : ∃ os : List Occurrence, os =
    lent ++ List.replicate 4 (.event (.step 1)) := ⟨_, rfl⟩
  obtain ⟨env, henv⟩ : ∃ env, env = Shared.memory (.ofConfig "memory" config) := ⟨_, rfl⟩
  obtain ⟨hfirst, hclient, hcompleted, hsecond, hsix, hobject, hfailures, hreturned⟩ :
      m.nextTask = 0 ∧
      ((m.after env (stored.take 4)).task? 0).any (·.client.isSome) = true ∧
      ((m.after env (stored.take 15)).task? 0).any (·.phase.completion? = some (.ok ())) = true ∧
      (m.after env stored).nextTask = 1 ∧
      ((m.after env lent).task? 1).any (·.phase.part = 6) = true ∧
      ((m.after env lent).world.objects.get? ⟨"b", "a"⟩).any (·.data = ⟨#[7, 8]⟩) = true ∧
      (m.after env lent).world.failures = [] ∧
      ((m.after env os).task? 1).any (·.returned? = some (.ok ())) = true := by
    -- the state is written out, for the run to be evaluated
    subst henv hconfig hos hlent hstored
    unfold connect at hconnect
    rw [hvalid] at hconnect
    cases hconnect
    decide +kernel
  subst henv
  have hlater : lent ++ [.event (.step 1)] <+: os := ⟨List.replicate 3 (.event (.step 1)), by
    rw [hos, List.append_assoc]
    rfl⟩
  have hread : stored ++ [.event (.request (.read "./a"))] <+: os := by
    refine .trans ⟨[.event (.step 1)], ?_⟩ ((List.prefix_append lent _).trans hlater)
    rw [hlent, List.append_assoc]
    rfl
  have hpart : stored <+: os := (List.prefix_append _ _).trans hread
  have hops : Operates os := by
    intro r hr
    simp [hos, hlent, hstored] at hr
    rcases hr with rfl | rfl
    · rfl
    · rfl
  have hasked : m.Asked (.memory (.ofConfig "memory" config)) os 0
      (.put "a" [.data ⟨#[7]⟩, .pause 5, .data ⟨#[8]⟩]) :=
    ⟨[], .trans (by simp [hstored]) hpart, hfirst⟩
  have hasked' : m.Asked (.memory (.ofConfig "memory" config)) os 1 (.read "./a") :=
    ⟨stored, hread, hsecond⟩
  obtain ⟨task₀, htask₀, hclient⟩ := (Option.any_eq_true _ _).1 hclient
  have hobtained : m.Obtained (.memory (.ofConfig "memory" config)) os 0 :=
    ⟨_, (List.take_prefix 4 stored).trans hpart, task₀, htask₀, hclient⟩
  obtain ⟨task₁, htask₁, hanswer⟩ := (Option.any_eq_true _ _).1 hcompleted
  have hcompletion : m.CompletionIs (.memory (.ofConfig "memory" config)) os 0 (.ok ()) :=
    ⟨_, (List.take_prefix 15 stored).trans hpart, task₁, htask₁, of_decide_eq_true hanswer⟩
  obtain ⟨task₂, htask₂, hsix⟩ := (Option.any_eq_true _ _).1 hsix
  obtain ⟨o, ho, hdata⟩ := (Option.any_eq_true _ _).1 hobject
  obtain ⟨task, htask, hreturned⟩ := (Option.any_eq_true _ _).1 hreturned
  obtain ⟨g, hphase⟩ : ∃ g, task₂.phase = .lent g := by
    generalize task₂.phase = phase at hsix
    cases phase with
    | lent g => exact ⟨g, rfl⟩
    | _ => cases hsix
  have hfinds : m.Finds (.memory (.ofConfig "memory" config)) os 1 ⟨"b", "a"⟩ o :=
    ⟨lent, task₂, g, hlater, htask₂, hphase, ho, by rw [Memory.Allows, hfailures]; nofun⟩
  obtain ⟨-, hstores, hreads⟩ := upload_outcome hconnect hops hasked hobtained
  obtain ⟨data, before, o', hcontent, hbefore, -, hget, hsame, -⟩ := hstores hcompletion
  have hl : (⟨config.bucket, config.roots.primaryKey "a"⟩ : Location) = ⟨"b", "a"⟩ := by
    rw [hconfig]
    decide +kernel
  refine ⟨config, m, os, task, hconnect, hasked, hobtained, hcompletion,
    ⟨before, o', hbefore, hl ▸ hget, ?_⟩, hasked', htask, of_decide_eq_true hreturned, ?_⟩
  · cases hcontent
    exact hsame
  · have hkey : config.roots.primaryKey "./a" = config.roots.primaryKey "a" := by
      rw [hconfig]
      decide +kernel
    rw [← of_decide_eq_true hdata]
    exact (hreads 1 "./a" o task hkey hasked' (hl ▸ hfinds) htask).2

/-- An upload whose source is interrupted before its end has succeeded, and has stored what the
source yields besides. -/
theorem interrupted_upload_succeeds :
    ∃ (config : Config) (m : Machine Memory Memory.Writer) (os : List Occurrence)
      (o : StoredObject),
      let env := Shared.memory (.ofConfig "memory" config)
      let source : Stream := [.data ⟨#[7]⟩, .fail ⟨.interrupted, none⟩]
      connect "memory" Memory.backend config (.new 1) = .ok m ∧ Operates os ∧
        m.Asked env os 0 (.put "a" source) ∧ m.Obtained env os 0 ∧ source.endsFirst = false ∧
        m.HasReturned env os 0 (.ok ()) ∧
        (m.after env os).world.objects.get? ⟨"b", "a"⟩ = some o ∧ o.data = ⟨#[7]⟩ := by
  obtain ⟨config, hconfig⟩ : ∃ config : Config,
      config = { Config.standard with bucket := "b" } := ⟨_, rfl⟩
  have hvalid : config.validate = .ok () := hconfig ▸ Config.validate_standard (by decide)
  obtain ⟨m, hconnect⟩ : ∃ m, connect "memory" Memory.backend config (.new 1) = .ok m :=
    exists_connect "memory" hvalid rfl
  obtain ⟨os, hos⟩ : ∃ os : List Occurrence, os =
    .event (.request (.put "a" [.data ⟨#[7]⟩, .fail ⟨.interrupted, none⟩])) ::
      List.replicate 10 (.event (.step 0)) := ⟨_, rfl⟩
  obtain ⟨hfirst, hclient, hreturned, hobject⟩ :
      m.nextTask = 0 ∧
      ((m.after (.memory (.ofConfig "memory" config)) (os.take 4)).task? 0).any
        (·.client.isSome) = true ∧
      ((m.after (.memory (.ofConfig "memory" config)) os).task? 0).any
        (·.returned? = some (.ok ())) = true ∧
      ((m.after (.memory (.ofConfig "memory" config)) os).world.objects.get? ⟨"b", "a"⟩).any
        (·.data = ⟨#[7]⟩) = true := by
    subst hconfig hos
    unfold connect at hconnect
    rw [hvalid] at hconnect
    cases hconnect
    decide +kernel
  obtain ⟨task₀, htask₀, hclient⟩ := (Option.any_eq_true _ _).1 hclient
  obtain ⟨task, htask, hreturned⟩ := (Option.any_eq_true _ _).1 hreturned
  obtain ⟨o, ho, hdata⟩ := (Option.any_eq_true _ _).1 hobject
  refine ⟨config, m, os, o, hconnect, ?_, ⟨[], by simp [hos], hfirst⟩,
    ⟨_, List.take_prefix 4 os, task₀, htask₀, hclient⟩, rfl,
    ⟨os, List.prefix_rfl, task, htask, of_decide_eq_true hreturned⟩, ho, of_decide_eq_true hdata⟩
  intro r hr
  simp [hos] at hr
  subst hr
  rfl

end Upload

end Depot.Storage
