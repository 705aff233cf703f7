import Depot.Console.Run
import Depot.Proofs.Entry
import Depot.Proofs.Storage.Prompt
import Depot.Proofs.Storage.Sizes

/-!
# Output for scripts

In JSON mode a run that succeeds writes one document to the first stream, and a run that fails
writes nothing to it (`Report.Strict`). This holds of the report of every command for every outcome
(`Command.strict_report`), and of every run up to it; a document is written only with numbers that
can be read back, since neither the sizes that a storage tells nor the number of entries that it
visits get beyond 64 bits. What a walk has visited is told by a run of the machine
(`Globals.Visits`), whatever carries it out. The main statement is `Invocation.run_json`.
-/

set_option autoImplicit false

namespace Depot.Console

open Depot.Json (Value depthLimit)
open Storage (Env Machine Schedule Outcome Resting ResultBounded)

/-! ## What is written -/

/-- The first stream holds one document and nothing else. -/
def Transcript.Holds (t : Transcript) (v : Value) : Prop :=
  ∃ text : String, t.outBytes = text.toUTF8 ∧ Value.ofText text = .ok v

/-- The items of a document, each read back as an entry, are these entries in order. -/
def ItemsAre (v : Value) (entries : List Entry) : Prop :=
  ∃ members items, v = .object members ∧ members.lookup "items" = some (.array items) ∧
    items.map (fun item => Entry.ofText item.toText) = entries.map .ok

/-- A document shows a walk: if the command lists a path, the items of the document are the entries
that the walk of that path has visited. Of the documents of other commands nothing is said. -/
def Command.Shows (command : Command) (walked : String → Bool → List Entry → Prop) (v : Value) :
    Prop :=
  ∀ path recursive, command = .list path recursive →
    ∃ visited, walked path recursive visited ∧ ItemsAre v visited

/-- With the settings of a run the store is connected, and the walk of a path comes to its end with
success. It has visited these entries, in order. The walk is a run of the machine, with no more steps
than are made for one request. -/
def Globals.Visits {State : Type} (g : Globals) (network : S3.Network State)
    (vars : Config.Variables) (files : LocalFiles) (state : State) (path : String)
    (recursive : Bool) (visited : List Entry) : Prop :=
  ∃ c env m, g.loadConfig vars files = .ok c ∧ S3.connect files network c state = .ok (env, m) ∧
    m.WalksWithin env manySteps path recursive visited

/-- What is reported in JSON mode: a success with one document, which can be read back and of which
something holds, or a failure, of which the first stream says nothing. -/
inductive Report.Strict (P : Value → Prop) : Report → Prop where
  | document {v : Value} : v.Plain depthLimit → P v → Strict P (.success (Settings.document v))
  | failed {status : Status} {err : List String} : status.code ≠ 0 → Strict P ⟨status, ⟨[], err⟩⟩

section Report

variable {P Q : Value → Prop} {r : Report} {s : Settings}

theorem Report.Strict.imp (h : r.Strict P) (hPQ : ∀ v, P v → Q v) : r.Strict Q := by
  cases h with
  | document hv hP => exact .document hv (hPQ _ hP)
  | failed hcode => exact .failed hcode

theorem outBytes_line (text : String) :
    (Transcript.line text).outBytes = (text ++ "\n").toUTF8 :=
  ByteArray.empty_append

/-- A strict report is a document exactly if its status is that of a success. -/
theorem Report.Strict.holds (h : r.Strict P) :
    (r.status.code = 0 → ∃ v, r.transcript.Holds v ∧ P v) ∧
      (r.status.code ≠ 0 → r.transcript.outBytes = .empty) := by
  cases h with
  | @document v hv hP =>
    refine ⟨fun _ => ⟨v, ⟨v.toPretty ++ "\n", ?_, Json.ofText_line hv⟩, hP⟩, fun h => absurd rfl h⟩
    exact outBytes_line v.toPretty
  | failed hcode => exact ⟨fun h => absurd h hcode, fun _ => rfl⟩

/-! ## Failures -/

theorem code_ofError_ne_zero (e : StoreError) : (Status.ofError e).code ≠ 0 := by
  cases e <;> exact Nat.succ_ne_zero _

theorem code_status_ne_zero (f : Failure) : f.status.code ≠ 0 := by
  unfold Failure.status
  split
  · exact code_ofError_ne_zero _
  · exact Nat.succ_ne_zero _

/-- An error is told on the second stream only. -/
theorem strict_error (hjson : s.json = true) (text : String) {status : Status}
    (hcode : status.code ≠ 0) : Report.Strict P ⟨status, s.error text⟩ := by
  rw [Settings.error, if_pos hjson]
  exact .failed hcode

theorem strict_failure (hjson : s.json = true) (action : String) (e : StoreError) :
    Report.Strict P (.failure s action e) :=
  strict_error hjson _ (code_ofError_ne_zero e)

/-! ## Documents -/

theorem plain_sizeValue {n : Nat} (h : n ≤ Entry.maxSize) (depth : Nat) :
    (sizeValue n).Plain depth := by
  have hmin : -(Nat.pow 2 63 : Int) ≤ n := by omega
  exact ⟨hmin, Int.ofNat_le.2 h⟩

theorem plain_uploadValue (localPath remote : String) {n : Nat} (h : n ≤ Entry.maxSize) :
    (uploadValue localPath remote n).Plain depthLimit :=
  ⟨by decide, trivial, trivial, plain_sizeValue h _, trivial, trivial⟩

theorem plain_statValue {e : Entry} (h : e.size ≤ Entry.maxSize) :
    (statValue e).Plain depthLimit := by
  unfold statValue
  cases e.modified with
  | some t => exact ⟨by decide, trivial, plain_sizeValue h _, trivial, trivial, trivial⟩
  | none => exact ⟨by decide, trivial, plain_sizeValue h _, trivial, trivial⟩

theorem plain_removeValue (path : String) (fromDisk : Bool) :
    (removeValue path fromDisk).Plain depthLimit :=
  ⟨by decide, trivial, trivial, trivial⟩

theorem plain_copyValue (source target : String) {n : Nat} (h : n ≤ Entry.maxSize) :
    (copyValue source target n).Plain depthLimit :=
  ⟨by decide, trivial, trivial, plain_sizeValue h _, trivial, trivial⟩

theorem plain_kindValue (bucket kind : String) : (kindValue bucket kind).Plain depthLimit :=
  ⟨by decide, trivial, trivial, trivial⟩

/-- The members of a listing are its entries, which can be read back one by one, and two numbers: as
many objects as were visited at most, and a sum in 64 bits. -/
theorem plain_listingValue {entries : List Entry}
    (h : EntriesBounded Entry.maxSize Entry.maxSize entries) :
    (listingValue entries).Plain depthLimit := by
  have hitems : ∀ es : List Entry, (∀ e ∈ es, e.size ≤ Entry.maxSize) →
      Value.PlainItems (depthLimit - 2) (es.map (·.toJson)) := by
    intro es hes
    -- on the entries, since a list of items is well formed item by item
    induction es with
    | nil => trivial
    | cons e es ih =>
      obtain ⟨he, hes⟩ := List.forall_mem_cons.1 hes
      exact ⟨Entry.plain_toJson he (by decide), ih hes⟩
  have hcount : (objectsOf entries).length ≤ Entry.maxSize :=
    Nat.le_trans (List.length_filter_le _ entries) h.length
  have hsum : (totalSize entries).toNat ≤ Entry.maxSize :=
    Nat.le_sub_one_of_lt (totalSize entries).toNat_lt
  exact ⟨by decide, ⟨by decide, hitems entries h.size⟩, plain_sizeValue hcount _,
    plain_sizeValue hsum _, trivial⟩

/-- The items of a listing are its entries. -/
theorem itemsAre_listingValue {entries : List Entry} (h : ∀ e ∈ entries, e.size ≤ Entry.maxSize) :
    ItemsAre (listingValue entries) entries := by
  refine ⟨_, _, rfl, rfl, ?_⟩
  rw [List.map_map]
  apply List.map_congr_left
  intro e he
  exact (Entry.ofText_toText e (h e he)).1

end Report

/-! ## Commands -/

section Command

variable {s : Settings} {command : Command} {localSize : Nat} {visited : List Entry}
  {result : Except StoreError Outcome}

theorem strict_listReport (hjson : s.json = true) {result : Except StoreError Unit}
    (hvisited : EntriesBounded Entry.maxSize Entry.maxSize visited) :
    (listReport s result visited).Strict fun v => result = .ok () ∧ ItemsAre v visited := by
  simp only [listReport, hjson, if_true]
  cases result with
  | ok _ => exact .document (plain_listingValue hvisited) ⟨rfl, itemsAre_listingValue hvisited.size⟩
  | error e => exact strict_failure hjson "Failed to list objects" e

/-- **The report of a command.** In JSON mode, whatever a command other than that to print an object
comes to, its report is one document or a failure. The document of a listing shows the entries that
were visited, and is only there if the walk has come to its end. -/
theorem Command.strict_report (hjson : s.json = true) (hcommand : ∀ path, command ≠ .print path)
    (hlocal : localSize ≤ Entry.maxSize) (hresult : ResultBounded Entry.maxSize result)
    (hvisited : EntriesBounded Entry.maxSize Entry.maxSize visited) :
    (command.report s localSize result visited).Strict
      (command.Shows fun _ _ entries => entries = visited ∧ ∃ outcome, result = .ok outcome) := by
  -- an outcome that does not belong to the command is a failure
  have hstray : ∀ P, (Report.failure s command.action strayOutcome).Strict P :=
    fun P => strict_failure hjson _ _
  cases command with
  | print path => exact absurd rfl (hcommand path)
  | list path recursive =>
    refine (strict_listReport hjson hvisited).imp ?_
    rintro v ⟨hok, hitems⟩ _ _ -
    cases result with
    | ok outcome => exact ⟨visited, ⟨rfl, outcome, rfl⟩, hitems⟩
    | error e => cases hok
  | upload localPath remote =>
    cases result with
    | error e => exact strict_failure hjson _ e
    | ok outcome =>
      cases outcome with
      | unit =>
        simp only [report, uploadReport, hjson, if_true]
        exact .document (plain_uploadValue localPath remote hlocal) nofun
      | _ => exact hstray _
  | stat path =>
    cases result with
    | error e => exact strict_failure hjson _ e
    | ok outcome =>
      cases outcome with
      | entry e =>
        simp only [report, statReport, hjson, if_true]
        exact .document (plain_statValue (hresult _ rfl)) nofun
      | _ => exact hstray _
  | remove path fromDisk =>
    cases result with
    | error e => exact strict_failure hjson _ e
    | ok outcome =>
      cases outcome with
      | unit =>
        simp only [report, removeReport, hjson, if_true]
        exact .document (plain_removeValue path fromDisk) nofun
      | _ => exact hstray _
  | copy bucket key target =>
    cases result with
    | error e => exact strict_failure hjson _ e
    | ok outcome =>
      cases outcome with
      | count n =>
        simp only [report, copyReport, hjson, if_true]
        exact .document (plain_copyValue _ target (hresult _ rfl)) nofun
      | _ => exact hstray _
  | kind =>
    cases result with
    | error e => exact strict_failure hjson _ e
    | ok outcome => exact hstray _

/-- What a command asks of a storage is one of the operations. -/
theorem Command.isOperation_of_request {source : LocalNode} {r : Storage.Request}
    (h : command.request source = some r) : r.isOperation = true := by
  cases command with
  | remove path fromDisk =>
    cases fromDisk <;>
      · cases h
        rfl
  | kind => cases h
  | _ =>
    cases h
    rfl

/-- A storage in which nothing goes on, whose backend tells of sizes in 64 bits only and does not
hold walks up. -/
structure Connected {World Writer : Type} (env : Env World Writer) (m : Machine World Writer) :
    Prop where
  resting : Resting m
  tells : env.backend.TellsWithin Entry.maxSize
  prompt : env.backend.Prompt

/-- A request makes so few steps that what it visits can be counted in 64 bits. -/
theorem manySteps_mul_le : manySteps * manySteps ≤ Entry.maxSize := by decide

/-- **A command on a storage.** In JSON mode a command is carried out with one document or with a
failure, and the document of a listing holds the entries that its walk has visited. -/
theorem Command.strict_perform {World Writer : Type} {env : Env World Writer}
    {m : Machine World Writer} {source : LocalNode} (hjson : s.json = true)
    (hcommand : ∀ path, command ≠ .print path) (hsource : source.size ≤ Entry.maxSize)
    (h : Connected env m) :
    (command.perform s env source (.ofMachine m)).1.Strict
      (command.Shows (m.WalksWithin env manySteps)) := by
  unfold Command.perform
  cases hrequest : command.request source with
  | none =>
    -- only the kind of a store can be told without a request
    cases command with
    | kind =>
      simp only [kindReport, hjson, if_true]
      exact .document (plain_kindValue _ _) nofun
    | remove path fromDisk => cases fromDisk <;> cases hrequest
    | _ => cases hrequest
  | some r =>
    have hlist : ∀ path recursive, command = .list path recursive →
        r = .walk path recursive fun _ _ => .ok () := by
      rintro path recursive rfl
      cases hrequest
      rfl
    dsimp only
    split
    · rename_i m' result visited hperform
      -- the steps that a request can make are fewer than what 64 bits count
      obtain ⟨hresult, hvisited⟩ := Schedule.bounded_of_perform h.resting.orderly
        (isOperation_of_request hrequest) h.tells hperform
      have hbounded : EntriesBounded Entry.maxSize Entry.maxSize visited :=
        ⟨hvisited.size, Nat.le_trans hvisited.length manySteps_mul_le⟩
      refine (strict_report hjson hcommand hsource hresult hbounded).imp ?_
      intro v hv path recursive hpath
      obtain ⟨entries, ⟨rfl, outcome, rfl⟩, hitems⟩ := hv path recursive hpath
      rw [hlist path recursive hpath] at hperform
      have hwalks : m.WalksWithin env manySteps path recursive entries :=
        (Schedule.perform_walk_iff h.resting h.prompt manySteps path recursive).1
          ⟨outcome, congrArg Prod.snd hperform⟩
      exact ⟨entries, hwalks, hitems⟩
    · -- the request was broken off
      have hnone : EntriesBounded Entry.maxSize Entry.maxSize [] :=
        ⟨fun _ h => absurd h List.not_mem_nil, Nat.zero_le _⟩
      refine (strict_report hjson hcommand hsource (Storage.resultBounded_error endless) hnone).imp
        ?_
      intro v hv path recursive hpath
      obtain ⟨-, ⟨-, outcome, hnot⟩, -⟩ := hv path recursive hpath
      cases hnot

end Command

/-! ## Runs -/

theorem connected_of_connect {State : Type} {files : LocalFiles} {network : S3.Network State}
    {c : Config} {state : State} {env : Env (S3.World State) S3.Writer}
    {m : Machine (S3.World State) S3.Writer}
    (h : S3.connect files network c state = .ok (env, m)) : Connected env m := by
  unfold S3.connect at h
  cases hvalid : c.validate with
  | error e => simp [hvalid, bind, Except.bind] at h
  | ok _ =>
    cases haccess : S3.Access.ofConfig files c with
    | error e => simp [hvalid, haccess, bind, Except.bind] at h
    | ok access =>
      cases hconnect :
          Storage.connect S3.kind (S3.backend network access) c (.start state) with
      | error e => simp [hvalid, haccess, hconnect, bind, Except.bind] at h
      | ok m' =>
        simp only [hvalid, haccess, hconnect, bind, Except.bind] at h
        cases h
        exact ⟨.of_connect hconnect, S3.backend_tellsWithin network access,
          S3.backend_prompt network access⟩

section Visited

variable {State : Type} {network : S3.Network State} {vars : Config.Variables}
  {files : LocalFiles} {g : Globals} {state : State} {path : String} {recursive : Bool}
  {visited : List Entry}

/-- The walk of a path is that which is carried out with a store that is connected. -/
theorem Globals.visits_iff :
    g.Visits network vars files state path recursive visited ↔
      ∃ c env m m' outcome, g.loadConfig vars files = .ok c ∧
        S3.connect files network c state = .ok (env, m) ∧
        (Schedule.ofMachine m).perform env manySteps (.walk path recursive fun _ _ => .ok ()) none =
          (m', some (.done (.ok outcome) visited)) := by
  constructor
  · rintro ⟨c, env, m, hconfig, hconnect, hwalks⟩
    have h := connected_of_connect hconnect
    obtain ⟨outcome, hdone⟩ :=
      (Schedule.perform_walk_iff h.resting h.prompt manySteps path recursive).2 hwalks
    exact ⟨c, env, m, _, outcome, hconfig, hconnect, Prod.ext rfl hdone⟩
  · rintro ⟨c, env, m, m', outcome, hconfig, hconnect, hwalk⟩
    have h := connected_of_connect hconnect
    exact ⟨c, env, m, hconfig, hconnect,
      (Schedule.perform_walk_iff h.resting h.prompt manySteps path recursive).1
        ⟨outcome, congrArg Prod.snd hwalk⟩⟩

/-- What a walk visits has sizes of 64 bits, and can be counted in 64 bits. -/
theorem Globals.Visits.bounded (h : g.Visits network vars files state path recursive visited) :
    EntriesBounded Entry.maxSize Entry.maxSize visited := by
  obtain ⟨c, env, m, m', outcome, -, hconnect, hwalk⟩ := visits_iff.1 h
  have hm := connected_of_connect hconnect
  obtain ⟨-, hvisited⟩ := Schedule.bounded_of_perform hm.resting.orderly rfl hm.tells hwalk
  exact ⟨hvisited.size, Nat.le_trans hvisited.length manySteps_mul_le⟩

/-- The entries that the walk of a path visits, if the store is connected and the walk comes to its
end with success. -/
def Globals.visited? (g : Globals) (network : S3.Network State) (vars : Config.Variables)
    (files : LocalFiles) (state : State) (path : String) (recursive : Bool) :
    Option (List Entry) :=
  match g.loadConfig vars files with
  | .error _ => none
  | .ok c =>
    match S3.connect files network c state with
    | .error _ => none
    | .ok (env, m) =>
      match (Schedule.ofMachine m).perform env manySteps (.walk path recursive fun _ _ => .ok ())
        none with
      | (_, some (.done (.ok _) visited)) => some visited
      | _ => none

theorem Globals.visits_of_visited?
    (h : g.visited? network vars files state path recursive = some visited) :
    g.Visits network vars files state path recursive visited := by
  unfold Globals.visited? at h
  -- at each point at which a run can fail there are no entries
  cases hconfig : g.loadConfig vars files with
  | error f => simp [hconfig] at h
  | ok c =>
    cases hconnect : S3.connect files network c state with
    | error e => simp [hconfig, hconnect] at h
    | ok connected =>
      obtain ⟨env, m⟩ := connected
      simp only [hconfig, hconnect] at h
      split at h
      · rename_i m' outcome entries hwalk
        cases h
        exact visits_iff.2 ⟨c, env, m, m', outcome, hconfig, hconnect, hwalk⟩
      · cases h

end Visited

section Run

variable {State : Type} (network : S3.Network State) (vars : Config.Variables)
  (files : LocalFiles) (terminal : Bool) (i : Invocation) (state : State)

/-- The local file of an upload is that under its path; other commands have none. -/
theorem Command.size_source_le {files : LocalFiles} {command : Command} {source : LocalNode}
    (hsize : ∀ localPath remote node, command = .upload localPath remote →
      files localPath = .ok node → node.size ≤ Entry.maxSize)
    (h : command.source files = .ok source) : source.size ≤ Entry.maxSize := by
  cases command with
  | upload localPath remote =>
    simp only [Command.source] at h
    cases hfile : files localPath with
    | error e => simp [hfile, Except.mapError] at h
    | ok node =>
      simp only [hfile, Except.mapError, Except.ok.injEq] at h
      exact h ▸ hsize localPath remote node rfl hfile
  | _ =>
    cases h
    exact Nat.zero_le _

theorem Invocation.strict_run (hjson : i.globals.json = true)
    (hcommand : ∀ path, i.command ≠ .print path)
    (hsize : ∀ localPath remote node, i.command = .upload localPath remote →
      files localPath = .ok node → node.size ≤ Entry.maxSize) :
    (i.run network vars files terminal state).report.Strict
      (i.command.Shows (i.globals.Visits network vars files state)) := by
  have hsettings : (i.globals.settings terminal).json = true := hjson
  unfold Invocation.run
  -- the points at which a run can fail, in order: the local file, the settings, the connection
  cases hsource : i.command.source files with
  | error failure =>
    obtain ⟨path, e⟩ := failure
    exact strict_error hsettings _ (Nat.succ_ne_zero _)
  | ok source =>
    dsimp only
    cases hconfig : i.globals.loadConfig vars files with
    | error f => exact strict_error hsettings _ (code_status_ne_zero f)
    | ok c =>
      dsimp only
      cases hconnect : S3.connect files network c state with
      | error e => exact strict_failure hsettings _ e
      | ok connected =>
        obtain ⟨env, m⟩ := connected
        have hperform := Command.strict_perform hsettings hcommand
          (Command.size_source_le hsize hsource) (connected_of_connect hconnect)
        refine hperform.imp ?_
        intro v hv path recursive hpath
        obtain ⟨visited, hwalks, hitems⟩ := hv path recursive hpath
        exact ⟨visited, ⟨c, env, m, hconfig, hconnect, hwalks⟩, hitems⟩

/-- The report of a listing whose walk comes to its end is that of the entries it has visited. -/
theorem Invocation.report_of_visits {path : String} {recursive : Bool} {visited : List Entry}
    (hcommand : i.command = .list path recursive)
    (h : i.globals.Visits network vars files state path recursive visited) :
    (i.run network vars files terminal state).report =
      listReport (i.globals.settings terminal) (.ok ()) visited := by
  obtain ⟨c, env, m, m', outcome, hconfig, hconnect, hwalk⟩ := Globals.visits_iff.1 h
  simp only [Invocation.run, hcommand, Command.source, hconfig, hconnect, Command.perform,
    Command.request, hwalk]
  rfl

/-- A listing succeeds if its walk does. -/
theorem Invocation.code_eq_zero {path : String} {recursive : Bool} {visited : List Entry}
    (hcommand : i.command = .list path recursive)
    (h : i.globals.Visits network vars files state path recursive visited) :
    (i.run network vars files terminal state).report.status.code = 0 := by
  rw [i.report_of_visits network vars files terminal state hcommand h]
  rfl

/-- In JSON mode, a listing whose walk comes to its end writes the document of what was visited. -/
theorem Invocation.holds_of_visits {path : String} {recursive : Bool} {visited : List Entry}
    (hjson : i.globals.json = true) (hcommand : i.command = .list path recursive)
    (h : i.globals.Visits network vars files state path recursive visited) :
    (i.run network vars files terminal state).report.transcript.Holds (listingValue visited) := by
  have hsettings : (i.globals.settings terminal).json = true := hjson
  have hplain := plain_listingValue h.bounded
  rw [i.report_of_visits network vars files terminal state hcommand h]
  simp only [listReport, hsettings, if_true]
  exact ⟨_, outBytes_line _, Json.ofText_line hplain⟩

/-- **JSON mode is for scripts.** Whatever a command is given, and whatever comes of the settings,
of the connection and of the operation: a run in JSON mode, quiet or not, of any command but that to
print an object, writes exactly one document to the first stream if its status is 0, and nothing
otherwise. The items of the document of a listing, each read back, are the entries that the walk has
visited, in order, and there is that document whenever the walk comes to its end. The local file of
an upload has a size of 64 bits, as all files have. -/
theorem Invocation.run_json (hjson : i.globals.json = true)
    (hcommand : ∀ path, i.command ≠ .print path)
    (hsize : ∀ localPath remote node, i.command = .upload localPath remote →
      files localPath = .ok node → node.size ≤ Entry.maxSize) :
    let report := (i.run network vars files terminal state).report
    (report.status.code = 0 → ∃ v, report.transcript.Holds v ∧
      i.command.Shows (i.globals.Visits network vars files state) v) ∧
    (report.status.code ≠ 0 → report.transcript.outBytes = .empty) ∧
    ∀ path recursive visited, i.command = .list path recursive →
      i.globals.Visits network vars files state path recursive visited →
      report.status.code = 0 ∧ ∃ v, report.transcript.Holds v ∧ ItemsAre v visited := by
  intro report
  have hstrict := i.strict_run network vars files terminal state hjson hcommand hsize
  obtain ⟨hdocument, hnothing⟩ := hstrict.holds
  refine ⟨hdocument, hnothing, ?_⟩
  intro path recursive visited hpath hvisits
  exact ⟨i.code_eq_zero network vars files terminal state hpath hvisits, listingValue visited,
    i.holds_of_visits network vars files terminal state hjson hpath hvisits,
    itemsAre_listingValue hvisits.bounded.size⟩

end Run

/-- A quiet run that lists one object, in whose name there are a quote and an end of line. -/
theorem Invocation.run_json_of_listing :
    let document : S3.Document := .listing ⟨[⟨some "a\"\n", some 3, none⟩], [], some false, none⟩
    let network : S3.Network Unit :=
      ⟨fun _ s => (s, .response ⟨200, [], none, none, .empty, document, true⟩)⟩
    let files : LocalFiles := fun _ => .error .missingFile
    let i : Invocation :=
      ⟨⟨none, some "b", some "http://localhost", false, true, false, true, 0⟩, .list "" true⟩
    let report := (i.run network [] files false ()).report
    let visited : List Entry := [.object "a\"\n" 3 none]
    report.status.code = 0 ∧ i.globals.Visits network [] files () "" true visited ∧
      ∃ v, report.transcript.Holds v ∧ ItemsAre v visited := by
  intro document network files i report visited
  have hvisits : i.globals.Visits network [] files () "" true visited :=
    Globals.visits_of_visited? (by decide +kernel)
  obtain ⟨-, -, hlisted⟩ := i.run_json network [] files false () rfl nofun nofun
  obtain ⟨hcode, hdocument⟩ := hlisted "" true visited rfl hvisits
  exact ⟨hcode, hvisits, hdocument⟩

end Depot.Console
