import Depot.Proofs.Storage.Addresses
import Depot.Proofs.Storage.Inquiries
import Depot.S3.Backend

/-!
# Names of what is looked up

A look-up answers with the name that the key of its path has below the primary root
(`Turn.names`). That is the normalized path (`Key.relativeName_primaryKey`), so that equal names
stand for equal keys, with one exception: the key of the root itself does not begin with what all
keys below the root begin with, and is its own name, which is the name of another key, too. The main
statement is `looked_up_name`, and `colliding_names` is a run with that exception.
-/

set_option autoImplicit false

namespace Depot

/-! ## Keys below the root -/

namespace Key

variable {roots : Roots} {root : String}

/-- What does not begin with a text is its own name below it. -/
theorem relativeName_push (key : String) (c : Char) : relativeName (key.push c) key = key := by
  have hlong : ¬ (key.push c).toList <+: key.toList := by
    intro hprefix
    have hle := hprefix.length_le
    rw [String.toList_push, List.length_append] at hle
    exact absurd hle (by simp)
  rw [relativeName, dropLead?, if_neg hlong, Option.getD_none]

/-- The whole of a storage has no other name than its key. -/
theorem relativeName_root (roots : Roots) :
    relativeName (roots.walkPrefix "") (roots.primaryKey "") = roots.primaryKey "" := by
  rw [Roots.walkPrefix]
  split
  · next hempty =>
    rw [String.isEmpty_iff.1 hempty]
    exact relativeName_append "" ""
  · exact relativeName_push _ _

/-- **The name of a key below the root** is its normalized path, unless that is empty. -/
theorem relativeName_primaryKey (hroot : roots.primary = normalize root) (path : String) :
    relativeName (roots.walkPrefix "") (roots.primaryKey path) =
      if normalize path = "" then normalize root else normalize path := by
  by_cases hpath : resolve [] path.toList = []
  · have hkey : roots.primaryKey path = normalize root := by
      rw [Roots.primaryKey, hroot, below_normalize, hpath, List.append_nil]
      rfl
    have hwhole : roots.primaryKey path = roots.primaryKey "" := by
      rw [hkey, Roots.primaryKey, hroot, below_normalize]
      exact congrArg render (List.append_nil _).symm
    rw [if_pos ((Reference.normalize_eq_empty_iff path).2 hpath), hwhole, relativeName_root,
      ← hwhole, hkey]
  · have hrel : resolve [] path.toList = resolve [] "".toList ++ resolve [] path.toList := rfl
    rw [if_neg fun h => hpath ((Reference.normalize_eq_empty_iff path).1 h),
      primaryKey_eq_append hroot hrel hpath, relativeName_append]
    rfl

/-- Two paths whose keys have the same name have the same key, unless one of them leads to the root,
and the other one to what is named like the root below it. -/
theorem primaryKey_eq_of_name (hroot : roots.primary = normalize root) {path path' : String}
    (h : relativeName (roots.walkPrefix "") (roots.primaryKey path') =
      relativeName (roots.walkPrefix "") (roots.primaryKey path)) :
    roots.primaryKey path' = roots.primaryKey path ∨
      normalize path = "" ∧ normalize path' = normalize root ∨
      normalize path' = "" ∧ normalize path = normalize root := by
  have hsame : normalize path' = normalize path →
      roots.primaryKey path' = roots.primaryKey path := by
    intro hnormal
    rw [Roots.primaryKey, Roots.primaryKey, hroot, Reference.below_eq_key, Reference.below_eq_key,
      Reference.key, Reference.key, hnormal]
  rw [relativeName_primaryKey hroot, relativeName_primaryKey hroot] at h
  by_cases hpath : normalize path = ""
  · by_cases hpath' : normalize path' = ""
    · exact Or.inl (hsame (hpath'.trans hpath.symm))
    · rw [if_pos hpath, if_neg hpath'] at h
      exact Or.inr (Or.inl ⟨hpath, h⟩)
  · by_cases hpath' : normalize path' = ""
    · rw [if_neg hpath, if_pos hpath'] at h
      exact Or.inr (Or.inr ⟨hpath', h.symm⟩)
    · rw [if_neg hpath, if_neg hpath'] at h
      exact Or.inl (hsame h)

end Key

/-! ## What backends tell of objects -/

/-- What is told of an object comes with the key that was asked for. -/
def Backend.TellsKeys {World Writer : Type} (b : Backend World Writer) : Prop :=
  ∀ c bucket key w a, (b.attributes c bucket key w).result = .ok a → a.key = key

theorem Memory.tellsKeys : Memory.backend.TellsKeys := by
  intro c bucket key w a ha
  have ha : (call c .attributes (look ⟨bucket, key⟩ (·.attributes key)) w).result = .ok a := ha
  obtain ⟨w', -, ⟨e, hcall⟩ | hcall⟩ := call_cases c .attributes
    (look ⟨bucket, key⟩ (·.attributes key)) w
  · rw [hcall] at ha
    cases ha
  · rw [hcall] at ha
    simp only [Answer.now, look] at ha
    split at ha
    · cases ha
      rfl
    · cases ha

theorem S3.tellsKeys {State : Type} (network : S3.Network State) (access : S3.Access) :
    (S3.backend network access).TellsKeys := by
  intro c bucket key w a ha
  simp only [S3.backend, S3.telling, S3.exchange] at ha
  split at ha
  · dsimp only at ha
    split at ha
    · cases ha
    · next response _ =>
      cases hhead : response.receivedHead with
      | error e =>
        rw [hhead] at ha
        cases ha
      | ok r =>
        rw [hhead] at ha
        cases ha
        rfl
  · cases ha

namespace Storage

variable {World Writer : Type} {b : Backend World Writer} {setup : Setup} {path : String}

theorem tellsKeys_listening (h : b.TellsKeys) : (listening b).TellsKeys := by
  intro c bucket key w a ha
  exact h c bucket key w.world a ha

/-! ## One step of a look-up -/

/-- What is known of a task that looks a path up, in a phase. -/
def Phase.Names (setup : Setup) (path : String) : Phase Writer → Prop
  | found reply => ∀ a, reply = .ok a → a.key = setup.roots.primaryKey path
  | invalidated _ result => ∀ outcome, result ≠ .ok outcome
  | ended result => ∀ outcome, result = .ok outcome → ∃ size updated, outcome = .entry (.object
      (Key.relativeName (setup.roots.walkPrefix "") (setup.roots.primaryKey path)) size updated)
  | _ => True

/-- What is known of such a task after the work of a step. -/
def Work.Names (setup : Setup) (path : String) : Work World Writer → Prop
  | keep phase _ _ _ => phase.Names setup path
  | giveBack phase _ _ => phase.Names setup path
  | destroy _ _ _ => True

variable {env : Env World Writer}

/-- **The work of a step of a look-up.** -/
theorem Works.names {c : Client} {w : World} {visited : List Entry} {phase : Phase Writer}
    {k : Work World Writer} (h : Works env c w visited phase k) (htells : env.backend.TellsKeys)
    (hserves : phase.Serves env.setup (.stat path)) (hnames : phase.Names env.setup path) :
    k.Names env.setup path := by
  cases h with
  | look ha =>
    cases hserves
    subst ha
    intro a hresult
    exact htells _ _ _ _ _ hresult
  | @found a =>
    have hkey : a.key = env.setup.roots.primaryKey path := hnames a rfl
    intro outcome houtcome
    cases houtcome
    exact ⟨_, _, by rw [hkey]⟩
  | missing _ =>
    intro outcome houtcome
    cases houtcome
  | walked _ | opened | completed =>
    -- a look-up has no other goal
    obtain ⟨_, hwants⟩ := hserves
    cases hwants
  | deleted | copied => cases hserves
  | _ => trivial

/-- **A step of a look-up** keeps what is known of it. -/
theorem Turn.names {m : Machine World Writer} {task : Task Writer} {n : Next World Writer}
    (h : Turn env m task n) (htells : env.backend.TellsKeys)
    (hserves : task.phase.Serves env.setup (.stat path))
    (hnames : task.phase.Names env.setup path) : n.task.phase.Names env.setup path := by
  rcases h.of_endsSettled hserves rfl with
    ⟨e, -, -, rfl⟩ | ⟨g, t, p, progress, -, hn⟩ | ⟨t, c, k, -, hw, hn⟩ |
    ⟨t, reply, result, hphase, rfl⟩
  · intro outcome houtcome
    cases houtcome
  · cases hn with
    | refuse =>
      intro outcome houtcome
      cases houtcome
    | _ => trivial
  · have hnames' := hw.names htells hserves hnames
    cases hn with
    | keep _ | giveBack _ _ | giveLate _ _ => exact hnames'
    | destroy _ _ _ =>
      intro outcome houtcome
      cases houtcome
  · rw [hphase] at hnames
    intro outcome houtcome
    exact absurd houtcome (hnames outcome)

/-! ## What a look-up answers -/

open Machine (Operates)

section Run

variable {m : Machine World Writer} {os : List Occurrence} {id : TaskId} {task : Task Writer}

/-- A look-up that succeeds answers with the name of the key of its path. -/
theorem Orderly.looked_up {env : Shared World Writer} (ho : Orderly m)
    (htells : env.backend.TellsKeys) (hops : Operates os) (hasked : m.Asked env os id (.stat path))
    (htask : (m.after env os).task? id = some task) {outcome : Outcome}
    (hended : task.phase = .ended (.ok outcome)) :
    ∃ size updated, outcome = .entry (.object (Key.relativeName (env.setup.roots.walkPrefix "")
      (env.setup.roots.primaryKey path)) size updated) := by
  have hnames := ho.forall_asked (P := fun _ _ r task => ∀ path, r = .stat path →
    task.phase.Serves env.setup (.stat path) ∧ task.phase.Names env.setup path) hops
    (fun _ _ _ _ _ h => h) ?_ ?_ hasked htask path rfl
  · rw [hended] at hnames
    exact hnames.2 outcome rfl
  · rintro os id _ - path rfl
    exact ⟨rfl, trivial⟩
  · rintro os id _ task n - - hn - h path rfl
    obtain ⟨hserves, hnames⟩ := h path rfl
    exact ⟨hn.serves hserves, hn.names htells hserves hnames⟩

end Run

section Names

variable {kind : String} {config : Config} {w : World} {m : Machine (Listened World) Writer}
  {os : List Occurrence} {id : TaskId}

/-- What a walk has visited are the entries of the first items of the pages that it was answered. -/
theorem Orderly.visited_items {recursive : Bool} {visitor : Visitor} (ho : Orderly m)
    (hops : Operates os)
    (hasked : m.Asked (.alone (overheard b setup)) os id (.walk path recursive visitor))
    {walker : Task Writer}
    (hwalker : (m.after (.alone (overheard b setup)) os).task? id = some walker) :
    ∃ items : List Listed,
      items <+: (askedBy (.alone (overheard b setup)) id m os).flatMap (·.items) ∧
      walker.visited.reverse = items.map (·.entry (setup.roots.walkPrefix path)) := by
  obtain ⟨-, hknows⟩ := ho.knows hops hasked
  have hprefix := (hknows walker hwalker).visited_prefix_entries
  rw [List.prefix_iff_eq_take] at hprefix
  refine ⟨_, List.take_prefix walker.visited.reverse.length _, hprefix.trans ?_⟩
  rw [List.map_take, List.map_flatMap]
  rfl

/-- **Names of what is looked up.** Over a backend that tells of an object the key that was asked
for, a look-up that succeeds answers with an object under its normalized path, or under the root if
that path is empty. Two look-ups that answer with the same name have asked for the same key, unless
one of them has asked for the root, and the other one for what is named like the root below it. A
walk of the whole storage visits an item with that key under that name. -/
theorem looked_up_name (htells : b.TellsKeys)
    (hconnect : connect kind (listening b) config ⟨w, []⟩ = .ok m) (hops : Operates os)
    (hasked : m.Asked (.alone (overheard b (.ofConfig kind config))) os id (.stat path))
    {task : Task Writer} {outcome : Outcome}
    (htask : (m.after (.alone (overheard b (.ofConfig kind config))) os).task? id = some task)
    (hended : task.phase = .ended (.ok outcome)) :
    let env := Shared.alone (overheard b (.ofConfig kind config))
    let root := Key.normalize config.path
    ∃ name size updated, outcome = .entry (.object name size updated) ∧
      name = (if Key.normalize path = "" then root else Key.normalize path) ∧
      (∀ id' path' task' size' updated', m.Asked env os id' (.stat path') →
        (m.after env os).task? id' = some task' →
        task'.phase = .ended (.ok (.entry (.object name size' updated'))) →
        config.roots.primaryKey path' = config.roots.primaryKey path ∨
          Key.normalize path = "" ∧ Key.normalize path' = root ∨
          Key.normalize path' = "" ∧ Key.normalize path = root) ∧
      ∀ id' visitor walker, m.Asked env os id' (.walk "" true visitor) →
        (m.after env os).task? id' = some walker → ∃ items : List Listed,
          items <+: (askedBy env id' m os).flatMap (·.items) ∧
          walker.visited.reverse = items.map (·.entry (config.roots.walkPrefix "")) ∧
          ∀ i ∈ items, i.key = config.roots.primaryKey path →
            (i.entry (config.roots.walkPrefix "")).name = name := by
  intro env root
  have ho : Orderly m := .of_connect hconnect
  have hroot : config.roots.primary = Key.normalize config.path := rfl
  have hlooked : ∀ id path task outcome, m.Asked env os id (.stat path) →
      (m.after env os).task? id = some task → task.phase = .ended (.ok outcome) →
      ∃ size updated, outcome = .entry (.object (Key.relativeName (config.roots.walkPrefix "")
        (config.roots.primaryKey path)) size updated) := by
    intro id path task outcome hasked htask hended
    obtain ⟨size, updated, rfl⟩ :=
      ho.looked_up (tellsKeys_listening htells) hops hasked htask hended
    exact ⟨size, updated, rfl⟩
  obtain ⟨size, updated, houtcome⟩ := hlooked id path task outcome hasked htask hended
  refine ⟨_, size, updated, houtcome, Key.relativeName_primaryKey hroot path, ?_, ?_⟩
  · intro id' path' task' size' updated' hasked' htask' hended'
    obtain ⟨_, _, hsame⟩ := hlooked id' path' task' _ hasked' htask' hended'
    injection hsame with hsame
    injection hsame with hname
    exact Key.primaryKey_eq_of_name hroot hname.symm
  · intro id' visitor walker hasked' hwalker
    obtain ⟨items, hitems, hvisited⟩ := ho.visited_items hops hasked' hwalker
    refine ⟨items, hitems, hvisited, ?_⟩
    intro i hi hkey
    rw [name_entry, hkey]

/-- The entry that a look-up has come to. -/
def Task.shown? (task : Task Writer) : Option Entry :=
  match task.phase with
  | .ended (.ok (.entry e)) => some e
  | _ => none

theorem Task.ended_of_shown {task : Task Writer} {e : Entry} (h : task.shown? = some e) :
    task.phase = .ended (.ok (.entry e)) := by
  unfold Task.shown? at h
  split at h
  · next hphase =>
    cases h
    exact hphase
  · cases h

/-- A path with a parent segment, looked up below a root before a walk of the whole storage. -/
theorem looked_up_name_of_parent :
    ∃ (config : Config) (w : Memory) (m : Machine (Listened Memory) Memory.Writer)
      (os : List Occurrence) (task walker : Task Memory.Writer) (items : List Listed),
      let env := Shared.alone (overheard Memory.backend (.ofConfig "memory" config))
      let accept : Visitor := fun _ _ => .ok ()
      Memory.backend.TellsKeys ∧ config.path = "/backup/" ∧
        connect "memory" (listening Memory.backend) config ⟨w, []⟩ = .ok m ∧ Operates os ∧
        m.Asked env os 0 (.stat "x\\..\\a") ∧ (m.after env os).task? 0 = some task ∧
        (∃ size updated, task.phase = .ended (.ok (.entry (.object "a" size updated)))) ∧
        m.Asked env os 1 (.walk "" true accept) ∧ (m.after env os).task? 1 = some walker ∧
        walker.visited.reverse.map (·.name) = ["a", "b"] ∧
        walker.visited.reverse = items.map (·.entry "backup/") ∧
        ∀ i ∈ items, i.key = "backup/a" → (i.entry "backup/").name = "a" := by
  obtain ⟨config, hconfig⟩ : ∃ config : Config,
      config = { Config.standard with bucket := "b", path := "/backup/" } := ⟨_, rfl⟩
  have hvalid : config.validate = .ok () := by
    rw [hconfig]
    decide +kernel
  obtain ⟨w, hw⟩ : ∃ w : Memory, w = { Memory.new 1 with
    objects := ["backup", "backup/a", "backup/b"].foldl
      (fun objects key => objects.insert ⟨"b", key⟩ ⟨.empty, default, ⟨none, []⟩⟩) .empty } :=
    ⟨_, rfl⟩
  obtain ⟨m, hconnect⟩ :
      ∃ m, connect "memory" (listening Memory.backend) config ⟨w, []⟩ = .ok m :=
    exists_connect "memory" hvalid (by rw [hw]; rfl)
  obtain ⟨first, hfirst⟩ : ∃ first : List Occurrence, first =
    .event (.request (.stat "x\\..\\a")) :: List.replicate 4 (.event (.step 0)) := ⟨_, rfl⟩
  obtain ⟨os, hos⟩ : ∃ os : List Occurrence, os =
    first ++ .event (.request (.walk "" true fun _ _ => .ok ())) ::
      List.replicate 9 (.event (.step 1)) := ⟨_, rfl⟩
  obtain ⟨env, henv⟩ : ∃ env, env =
    Shared.alone (overheard Memory.backend (.ofConfig "memory" config)) := ⟨_, rfl⟩
  obtain ⟨hzero, hone, hended, hvisited⟩ : m.nextTask = 0 ∧ (m.after env first).nextTask = 1 ∧
      ((m.after env os).task? 0).any (·.shown?.isSome) = true ∧
      ((m.after env os).task? 1).any (·.visited.reverse.map (·.name) = ["a", "b"]) = true := by
    -- the state is written out, for the run to be evaluated
    subst henv hconfig hos hfirst hw
    unfold connect at hconnect
    rw [hvalid] at hconnect
    cases hconnect
    decide +kernel
  subst henv
  have hops : Operates os := by
    intro r hr
    simp [hos, hfirst] at hr
    rcases hr with rfl | rfl
    · rfl
    · rfl
  have hasked : m.Asked (.alone (overheard Memory.backend (.ofConfig "memory" config))) os 0
      (.stat "x\\..\\a") := ⟨[], by simp [hos, hfirst], hzero⟩
  have hasked' : m.Asked (.alone (overheard Memory.backend (.ofConfig "memory" config))) os 1
      (.walk "" true fun _ _ => .ok ()) := ⟨first, by simp [hos], hone⟩
  obtain ⟨task, htask, hentry⟩ := (Option.any_eq_true _ _).1 hended
  obtain ⟨e, hentry⟩ := Option.isSome_iff_exists.1 hentry
  have hended := Task.ended_of_shown hentry
  obtain ⟨walker, hwalker, hnames⟩ := (Option.any_eq_true _ _).1 hvisited
  have htells : Memory.backend.TellsKeys := Memory.tellsKeys
  obtain ⟨name, size, updated, houtcome, hname, -, hwalks⟩ :=
    looked_up_name htells hconnect hops hasked htask hended
  obtain ⟨items, -, hitems, hsame⟩ := hwalks 1 _ walker hasked' hwalker
  have hlead : config.roots.walkPrefix "" = "backup/" := by
    rw [hconfig]
    decide +kernel
  have hkey : config.roots.primaryKey "x\\..\\a" = "backup/a" := by
    rw [hconfig]
    decide +kernel
  have hnormal : name = "a" := by
    rw [hname, hconfig]
    decide +kernel
  rw [hlead] at hitems hsame
  rw [hkey] at hsame
  subst hnormal
  refine ⟨config, w, m, os, task, walker, items, htells, by rw [hconfig], hconnect, hops, hasked,
    htask, ⟨size, updated, ?_⟩, hasked', hwalker, of_decide_eq_true hnames, hitems, hsame⟩
  rw [hended, houtcome]

/-- The root itself and what is named like it below it are looked up under the same name, although
their keys are not the same. -/
theorem colliding_names :
    ∃ (config : Config) (w : Memory) (m : Machine Memory Memory.Writer) (os : List Occurrence)
      (task task' : Task Memory.Writer) (e e' : Entry),
      let env := Shared.memory (.ofConfig "memory" config)
      connect "memory" Memory.backend config w = .ok m ∧ Operates os ∧
        m.Asked env os 0 (.stat "") ∧ (m.after env os).task? 0 = some task ∧
        task.phase = .ended (.ok (.entry e)) ∧ e.name = "backup" ∧
        m.Asked env os 1 (.stat "backup") ∧ (m.after env os).task? 1 = some task' ∧
        task'.phase = .ended (.ok (.entry e')) ∧ e'.name = "backup" ∧
        Key.normalize "" = "" ∧ config.roots.primaryKey "" = "backup" ∧
        config.roots.primaryKey "backup" = "backup/backup" := by
  obtain ⟨config, hconfig⟩ : ∃ config : Config,
      config = { Config.standard with bucket := "b", path := "backup" } := ⟨_, rfl⟩
  have hvalid : config.validate = .ok () := by
    rw [hconfig]
    decide +kernel
  obtain ⟨w, hw⟩ : ∃ w : Memory, w = { Memory.new 1 with
    objects := ["backup", "backup/backup"].foldl
      (fun objects key => objects.insert ⟨"b", key⟩ ⟨.empty, default, ⟨none, []⟩⟩) .empty } :=
    ⟨_, rfl⟩
  obtain ⟨m, hconnect⟩ : ∃ m, connect "memory" Memory.backend config w = .ok m :=
    exists_connect "memory" hvalid (by rw [hw]; rfl)
  obtain ⟨first, hfirst⟩ : ∃ first : List Occurrence, first =
    .event (.request (.stat "")) :: List.replicate 4 (.event (.step 0)) := ⟨_, rfl⟩
  obtain ⟨os, hos⟩ : ∃ os : List Occurrence, os =
    first ++ .event (.request (.stat "backup")) :: List.replicate 4 (.event (.step 1)) := ⟨_, rfl⟩
  obtain ⟨hzero, hone, hended, hended', hkeys⟩ : m.nextTask = 0 ∧
      (m.after (.memory (.ofConfig "memory" config)) first).nextTask = 1 ∧
      ((m.after (.memory (.ofConfig "memory" config)) os).task? 0).any
        (·.shown?.any (·.name = "backup")) = true ∧
      ((m.after (.memory (.ofConfig "memory" config)) os).task? 1).any
        (·.shown?.any (·.name = "backup")) = true ∧
      config.roots.primaryKey "" = "backup" ∧
      config.roots.primaryKey "backup" = "backup/backup" := by
    subst hconfig hos hfirst hw
    unfold connect at hconnect
    rw [hvalid] at hconnect
    cases hconnect
    decide +kernel
  obtain ⟨task, htask, hentry⟩ := (Option.any_eq_true _ _).1 hended
  obtain ⟨e, hentry, hname⟩ := (Option.any_eq_true _ _).1 hentry
  obtain ⟨task', htask', hentry'⟩ := (Option.any_eq_true _ _).1 hended'
  obtain ⟨e', hentry', hname'⟩ := (Option.any_eq_true _ _).1 hentry'
  refine ⟨config, w, m, os, task, task', e, e', hconnect, ?_, ⟨[], by simp [hos, hfirst], hzero⟩,
    htask, Task.ended_of_shown hentry, of_decide_eq_true hname, ⟨first, by simp [hos], hone⟩,
    htask', Task.ended_of_shown hentry', of_decide_eq_true hname', by decide, hkeys⟩
  intro r hr
  simp [hos, hfirst] at hr
  rcases hr with rfl | rfl
  · rfl
  · rfl

end Names

end Storage

end Depot
