import Depot.Storage.Machine

/-!
# One order of events

Which task runs next, and how time passes. One request is in front: it runs first, and whenever all
others that could run have done so. The others run in the order in which they were woken. Time
passes only if nobody can run, and then up to the next alarm; if there is none, nothing would ever
happen again, and the request in front is blocked. Every run of a task is a run of `Machine.step`,
so whatever holds in every order of events holds here.
-/

set_option autoImplicit false

namespace Depot.Storage

variable {World Writer : Type}

/-- How a task came to its end. -/
inductive Ending where
  /-- With a result, and the entries that it had visited, in order. -/
  | done (result : Except StoreError Outcome) (visited : List Entry)
  /-- It was given up because it took too long. -/
  | givenUp
  /-- It was in front, and nobody could get on any more, however much time passed. -/
  | blocked

/-- A limit on the time that a task may take before it is given up. It counts from the first run of
the task. -/
structure Limit where
  ms : Nat
  /-- When the time is over, once that is settled. -/
  alarm : Option Alarm

/-- A machine, with the order in which its tasks run. -/
structure Schedule (World Writer : Type) where
  machine : Machine World Writer
  /-- The tasks that can run, in order. -/
  queue : List TaskId
  /-- The task in front. -/
  front : Option TaskId
  /-- Whether the task in front can run. -/
  frontReady : Bool
  limits : List (TaskId × Limit)
  /-- The tasks that are to be cancelled when their turn comes. -/
  aborted : List TaskId
  endings : List (TaskId × Ending)

namespace Schedule

/-- A machine without tasks. -/
def ofMachine (m : Machine World Writer) : Schedule World Writer :=
  ⟨m, [], none, false, [], [], []⟩

/-- Lets a task run when its turn comes. -/
def wake (s : Schedule World Writer) (id : TaskId) : Schedule World Writer :=
  if s.front = some id then { s with frontReady := true }
  else if s.queue.contains id then s
  else { s with queue := s.queue ++ [id] }

/-- Lets the tasks run that the machine found able to. -/
def collect (s : Schedule World Writer) : Schedule World Writer :=
  s.machine.woken.foldl wake { s with machine := { s.machine with woken := [] } }

/-- Applies a change to the machine. -/
def modify (f : Machine World Writer → Machine World Writer) (s : Schedule World Writer) :
    Schedule World Writer :=
  { s with machine := f s.machine }.collect

/-- Limits the time of a task, if there is to be a limit. -/
def limit (id : TaskId) (ms : Option Nat) (s : Schedule World Writer) : Schedule World Writer :=
  match ms with
  | some ms => { s with limits := s.limits ++ [(id, ⟨ms, none⟩)] }
  | none => s

/-- Adds a task, which takes the last place in the order. -/
def spawn (r : Request) (limit : Option Nat) (s : Schedule World Writer) :
    Schedule World Writer × TaskId :=
  let id := s.machine.nextTask
  let s := { s with machine := s.machine.add (.ofRequest Writer r), queue := s.queue ++ [id] }
  (s.limit id limit, id)

/-- Notes how a task ended, and forgets about it. -/
def finish (id : TaskId) (ending : Ending) (s : Schedule World Writer) : Schedule World Writer :=
  { s with
    machine := s.machine.remove id
    limits := s.limits.filter (·.1 ≠ id)
    endings := s.endings ++ [(id, ending)] }

/-- Cancels a task, which ends with that. -/
def cutShort (env : Env World Writer) (id : TaskId) (ending : Ending)
    (s : Schedule World Writer) : Schedule World Writer :=
  (s.modify (·.cancel env id)).finish id ending

/-- Steps of a task until it waits or ends. -/
def runSteps (env : Env World Writer) (id : TaskId) :
    Nat → Machine World Writer → Machine World Writer
  | 0, m => m
  | fuel + 1, m =>
    let m := m.step env id
    match m.status id with
    | .running => runSteps env id fuel m
    | _ => m

/-- Settles when the limit of a task that waits is over, and gives the task up if it is. -/
def checkLimit (env : Env World Writer) (id : TaskId) (s : Schedule World Writer) :
    Schedule World Writer :=
  match s.limits.lookup id with
  | none => s
  | some l =>
    let m := s.machine
    let (m, alarm) := match l.alarm with
      | some a => (m, a)
      | none => ({ m with alarms := m.alarms + 1 }, ⟨m.now + l.ms, m.alarms⟩)
    if alarm.time ≤ m.now then { s with machine := m }.cutShort env id .givenUp
    else
      { s with
        machine := m
        limits := s.limits.map fun q =>
          if q.1 = id then (id, { l with alarm := some alarm }) else q }

/-- Runs a task until it waits or ends. -/
def run (env : Env World Writer) (fuel : Nat) (id : TaskId) (s : Schedule World Writer) :
    Schedule World Writer :=
  let s := s.modify (runSteps env id fuel)
  match s.machine.task? id with
  | none => s
  | some task =>
    match task.phase with
    | .ended result => s.finish id (.done result task.visited.reverse)
    | _ => s.checkLimit env id

/-- The turn of a task: it runs, or is cancelled if that is to happen. -/
def turn (env : Env World Writer) (fuel : Nat) (id : TaskId) (s : Schedule World Writer) :
    Schedule World Writer :=
  if s.aborted.contains id then
    { s with
      machine := s.machine.cancel env id
      limits := s.limits.filter (·.1 ≠ id)
      aborted := s.aborted.filter (· ≠ id) }.collect
  else s.run env fuel id

/-- Runs the tasks in the queue, and those that are woken meanwhile, up to a number of turns. -/
def runQueue (env : Env World Writer) (fuel : Nat) :
    Nat → Schedule World Writer → Schedule World Writer
  | 0, s => s
  | turns + 1, s =>
    match s.queue with
    | [] => s
    | id :: rest => runQueue env fuel turns ({ s with queue := rest }.turn env fuel id)

/-! ## Time -/

/-- All alarms that are set, with their tasks. -/
def alarms (s : Schedule World Writer) : List (Alarm × TaskId) :=
  (s.machine.tasks.filterMap fun q => q.2.alarm.map fun a => (a, q.1)) ++
    s.limits.filterMap fun q => q.2.alarm.map fun a => (a, q.1)

/-- Whether an alarm goes off before another one, or with it. -/
def earlier (a b : Alarm × TaskId) : Bool :=
  a.1.time < b.1.time || (a.1.time == b.1.time && a.1.order ≤ b.1.order)

/-- Wakes the tasks whose alarms have gone off, in order. -/
def ring (s : Schedule World Writer) : Schedule World Writer :=
  let due := (s.alarms.filter (·.1.time ≤ s.machine.now)).mergeSort earlier
  due.foldl (fun s a => s.wake a.2) s

/-- Lets time pass up to a moment. -/
def passTo (time : Nat) (s : Schedule World Writer) : Schedule World Writer :=
  { s with machine := { s.machine with now := max s.machine.now time } }.ring

/-- Lets time pass up to the next alarm. -/
def passToNext (s : Schedule World Writer) : Schedule World Writer :=
  match s.alarms.mergeSort earlier with
  | [] => s
  | a :: _ => s.passTo a.1.time

/-- The turns in a row that other tasks get while the one in front can run. -/
def turnsInRow : Nat := 61

/-- Runs everything that can run without letting time pass. -/
def settle (env : Env World Writer) (fuel : Nat) (s : Schedule World Writer) :
    Schedule World Writer :=
  s.runQueue env fuel fuel

/-- Runs until the task in front has come to its end. There is none if it makes more than `fuel`
steps in a row, or if it takes too many rounds. -/
def runFront (env : Env World Writer) (fuel : Nat) (id : TaskId) :
    Nat → Schedule World Writer → Schedule World Writer
  | 0, s => s
  | rounds + 1, s =>
    let s := if s.frontReady then { s with frontReady := false }.run env fuel id else s
    if s.endings.any (·.1 = id) then s
    else if s.machine.status id = .running then s
    else
      let s := s.runQueue env fuel turnsInRow
      if s.queue.isEmpty ∧ ¬ s.frontReady then
        if s.alarms.isEmpty then s.cutShort env id .blocked
        else runFront env fuel id rounds s.passToNext
      else runFront env fuel id rounds s

/-- Takes note of how a task ended, if it has. -/
def takeEnding (id : TaskId) (s : Schedule World Writer) : Schedule World Writer × Option Ending :=
  ({ s with endings := s.endings.filter (·.1 ≠ id) }, s.endings.lookup id)

/-- Carries out a request in front. Others run while it waits. There is no ending if the request
takes more steps or rounds than `fuel`. -/
def perform (env : Env World Writer) (fuel : Nat) (r : Request) (limit : Option Nat)
    (s : Schedule World Writer) : Schedule World Writer × Option Ending :=
  let id := s.machine.nextTask
  let s :=
    { s with
      machine := s.machine.add (.ofRequest Writer r)
      front := some id
      frontReady := true }
  let (s, ending) := ((s.limit id limit).runFront env fuel id fuel).takeEnding id
  ({ s with front := none, frontReady := false }, ending)

/-- Has a task cancelled when its turn comes. -/
def abort (id : TaskId) (s : Schedule World Writer) : Schedule World Writer :=
  { s with aborted := s.aborted ++ [id] }.wake id

/-- Lets some milliseconds pass at once, with everything settled before and afterwards. -/
def advance (env : Env World Writer) (fuel : Nat) (ms : Nat) (s : Schedule World Writer) :
    Schedule World Writer :=
  let s := s.settle env fuel
  (s.passTo (s.machine.now + ms)).settle env fuel

end Schedule

end Depot.Storage
