import Linkage.Tasks.Scheduler

/-! What tasks do, from JSON, and how they end, as JSON. -/
namespace Linkage

/-- A floating point number by its bits. -/
def Json.ofBits (bits : UInt64) : Json := .str (Hex.padded 16 bits.toNat)

/-- The bits that a text writes. -/
def Json.bits (j : Json) : UInt64 := .ofNat ((Hex.toNat? j.string.toList).getD 0)

def Progress.toJson (p : Progress) : Json := .arr [.ofBits p.fraction, .str p.text]

/-- An action; what is not known ends the task. -/
def Action.ofJson (j : Json) : Action :=
  let text := j.stringAt 1
  match j.stringAt 0 with
  | "fraction" => .fraction (j.item 1).bits
  | "text" => .text text
  | "update" => .update (j.item 1).bits (j.stringAt 2)
  | "check" => .check
  | "gate" => .gate text
  | "wait_cancel" => .waitCancelled
  | "fail" => .fail text
  | "panic" => .crash (some text)
  | "panic_str" => .crash (some "static text")
  | "panic_any" => .crash none
  | _ => .finish text

def Completion.toJson (c : Completion) : Json :=
  .arr [.str c.name, .str c.state.display, .str? c.error]

/-- The kind of an error. -/
def TaskError.name : TaskError → String
  | .cancelled => "Cancelled"
  | .failed _ => "Failed"
  | .crashed _ => "Panicked"
  | .closed => "SchedulerClosed"

/-- How a task ended. -/
def TaskError.outcomeJson : Except TaskError String → Json
  | .ok result => .obj [("ok", .str result)]
  | .error e => .obj [("error", .str e.name), ("message", .str e.message),
      ("is_cancelled", .bool (e == .cancelled))]

end Linkage
