import Linkage.Data.Json
import Linkage.Tasks.Progress

/-! Tasks that run on a bounded number of workers and can be cancelled. -/
namespace Linkage

/-- The life of a task: it waits, runs, and ends in one of three ways. -/
inductive TaskState where
  | waiting | running | success | error | cancelled
  deriving DecidableEq, Repr

def TaskState.isTerminal : TaskState → Bool
  | .waiting | .running => false
  | .success | .error | .cancelled => true

def TaskState.display : TaskState → String
  | .waiting => "WAITING"
  | .running => "RUNNING"
  | .success => "SUCCESS"
  | .error => "ERROR"
  | .cancelled => "CANCELLED"

/-- Why a task has no result. -/
inductive TaskError where
  | cancelled
  | failed (message : String)
  /-- It broke down, with a message or without. -/
  | crashed (message : Option String)
  /-- The scheduler was closed before it could start. -/
  | closed
  deriving DecidableEq, Repr

def TaskError.message : TaskError → String
  | .cancelled => "Task was cancelled"
  | .failed message => s!"Task failed: {message}"
  | .crashed message => "Task panicked: " ++ message.getD "unknown panic payload"
  | .closed => "Scheduler is closed"

/-- What a task does next. -/
inductive Action where
  | fraction (bits : UInt64)
  | text (text : String)
  | update (bits : UInt64) (text : String)
  /-- Ends the task if it is cancelled. -/
  | check
  /-- Waits until a gate is open. -/
  | gate (name : String)
  /-- Waits until the task is cancelled. -/
  | waitCancelled
  | fail (message : String)
  | crash (message : Option String)
  | finish (result : String)
  deriving DecidableEq, Repr

/-- A task in a scheduler. -/
structure Task where
  name : String
  /-- What is left to do. -/
  body : List Action
  state : TaskState := .waiting
  isCancelled : Bool := false
  progress : Progress := {}
  started : Bool := false
  outcome : Option (Except TaskError String) := none
  /-- Its result was collected. -/
  joined : Bool := false

namespace Task

/-- What is said of the error that a task ended with; being cancelled is none. -/
def error? (t : Task) : Option String :=
  match t.outcome with
  | some (.error .cancelled) => none
  | some (.error e) => some e.message
  | _ => none

/-- One line on a task. -/
def display (t : Task) : String :=
  s!"{t.name} [{t.state.display}] {t.progress.percent}%"
    ++ if t.progress.text.isEmpty then "" else " " ++ t.progress.text

/-- What can be told of a task at any time. -/
def toJson (t : Task) : Json :=
  .obj [("name", .str t.name), ("state", .str t.state.display), ("terminal", .bool t.state.isTerminal),
    ("state_text", .str t.state.display), ("fraction", .str (Hex.padded 16 t.progress.fraction.toNat)),
    ("text", .str t.progress.text), ("started", .bool t.started),
    ("finished", .bool t.outcome.isSome), ("error", .str? t.error?), ("display", .str t.display)]

/-- Ends a task. -/
def complete (t : Task) (outcome : Except TaskError String) : Task :=
  { t with
    body := []
    outcome := some outcome
    state := match outcome with
      | .ok _ => .success
      | .error .cancelled => .cancelled
      | .error _ => .error }

/-- Ends a running task. If it was cancelled meanwhile, what it did does not count, unless it broke
down. -/
def conclude (t : Task) (outcome : Except TaskError String) : Task :=
  match outcome with
  | .error (.crashed _) => t.complete outcome
  | _ => t.complete (if t.isCancelled then .error .cancelled else outcome)

/-- What a running task does when it can go on. -/
def act (isOpen : String → Bool) (t : Task) : Option Task :=
  match t.body with
  | [] => some (t.conclude (.ok ""))
  | action :: body =>
    let go (progress : Progress) : Option Task := some { t with body, progress }
    match action with
    | .fraction bits => go (t.progress.setFraction bits)
    | .text text => go (t.progress.setText text)
    | .update bits text => go (t.progress.update bits text)
    | .check => if t.isCancelled then some (t.conclude (.error .cancelled)) else go t.progress
    | .gate name => if isOpen name then go t.progress else none
    | .waitCancelled => if t.isCancelled then go t.progress else none
    | .fail message => some (t.conclude (.error (.failed message)))
    | .crash message => some (t.conclude (.error (.crashed message)))
    | .finish result => some (t.conclude (.ok result))

/-- What a task does next, if it can. A waiting task that is cancelled never starts. -/
def step? (isOpen : String → Bool) (workerFree : Bool) (t : Task) : Option Task :=
  match t.state with
  | .waiting =>
    if t.isCancelled then some (t.complete (.error .cancelled))
    else if workerFree then some { t with state := .running, started := true }
    else none
  | .running => t.act isOpen
  | _ => none

end Task

/-- What the listeners are told when a task ends. -/
structure Completion where
  name : String
  state : TaskState
  error : Option String
  deriving DecidableEq, Repr

/-- How many tasks came, and how they ended. -/
structure SchedulerStatistics where
  submitted : Nat := 0
  succeeded : Nat := 0
  failed : Nat := 0
  cancelled : Nat := 0
  deriving DecidableEq, Repr

namespace SchedulerStatistics

def finished (s : SchedulerStatistics) : Nat := s.succeeded + s.failed + s.cancelled

def toJson (s : SchedulerStatistics) : Json :=
  .obj [("submitted", .nat s.submitted), ("succeeded", .nat s.succeeded), ("failed", .nat s.failed),
    ("cancelled", .nat s.cancelled)]

/-- Counts the end of a task. -/
def count (s : SchedulerStatistics) : TaskState → SchedulerStatistics
  | .success => { s with succeeded := s.succeeded + 1 }
  | .error => { s with failed := s.failed + 1 }
  | .cancelled => { s with cancelled := s.cancelled + 1 }
  | .waiting | .running => s

end SchedulerStatistics

/-- Tasks in the order in which they came, and the gates that they may pass. -/
structure Scheduler where
  workers : Nat
  tasks : List Task := []
  openGates : List String := []
  /-- All tasks are cancelled, those to come as well. -/
  isCancelled : Bool := false
  statistics : SchedulerStatistics := {}
  /-- All that the listeners were told. -/
  completions : List Completion := []

namespace Scheduler

/-- A scheduler has at least one worker. -/
def ofWorkers (n : Nat) : Scheduler := { workers := max n 1 }

def running (s : Scheduler) : Nat := (s.tasks.filter (·.state = .running)).length

/-- Puts a task that has moved into its place; if it ended, that is counted and told. -/
def moved (s : Scheduler) (i : Nat) (t : Task) : Scheduler :=
  let s := { s with tasks := s.tasks.set i t }
  if t.state.isTerminal then
    { s with
      statistics := s.statistics.count t.state
      completions := s.completions ++ [⟨t.name, t.state, t.error?⟩] }
  else s

/-- Lets a task move, if it can. -/
def stepAt? (s : Scheduler) (i : Nat) : Option Scheduler := do
  let t ← s.tasks[i]?
  s.moved i <$> t.step? s.openGates.contains (s.running < s.workers)

/-- Lets the first task move that can. -/
def step? (s : Scheduler) : Option Scheduler :=
  (List.range s.tasks.length).findSome? s.stepAt?

/-- The steps that the tasks can still take, at most. -/
def remaining (s : Scheduler) : Nat := s.tasks.foldr (fun t steps => t.body.length + 2 + steps) 0

/-- Lets tasks move for at most `rounds` steps. -/
def run : (rounds : Nat) → Scheduler → Scheduler
  | 0, s => s
  | rounds + 1, s =>
    match s.step? with
    | some s => run rounds s
    | none => s

/-- Lets tasks move until none can. -/
def settle (s : Scheduler) : Scheduler := run s.remaining s

def submit (s : Scheduler) (name : String) (body : List Action) : Scheduler :=
  { s with
    tasks := s.tasks ++ [{ name, body, isCancelled := s.isCancelled }]
    statistics := { s.statistics with submitted := s.statistics.submitted + 1 } }

def openGate (s : Scheduler) (gate : String) : Scheduler :=
  { s with openGates := gate :: s.openGates }

/-- Asks a task to stop. -/
def cancel (s : Scheduler) (name : String) : Scheduler :=
  { s with tasks := s.tasks.map fun t => if t.name = name then { t with isCancelled := true } else t }

/-- Asks all tasks to stop, and those to come. -/
def cancelAll (s : Scheduler) : Scheduler :=
  { s with isCancelled := true, tasks := s.tasks.map fun t => { t with isCancelled := true } }

/-- The task of a name, unless its result was collected. -/
def task? (s : Scheduler) (name : String) : Option Task :=
  s.tasks.find? fun t => t.name = name && !t.joined

/-- The tasks whose results were not collected, in the order in which they came. -/
def listed (s : Scheduler) : List Task := s.tasks.filter (!·.joined)

/-- Collects the result of a task that has ended. -/
def join (s : Scheduler) (name : String) : Scheduler :=
  { s with tasks := s.tasks.map fun t =>
    if t.name = name && t.outcome.isSome then { t with joined := true } else t }

end Scheduler
end Linkage
