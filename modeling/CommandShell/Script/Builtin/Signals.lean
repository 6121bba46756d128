import CommandShell.Script.Builtin.Answer

/-!
# Commands about signals

`trap` says what is to be done on signals and at the end, and `kill` sends signals to processes or
names them.
-/

namespace CommandShell
namespace Script
namespace Builtin

/-- The signal of a name or number; zero stands for the end of the script. -/
def trapSignal? (text : String) : Option Nat :=
  if text = "EXIT" then some 0 else Signal.ofText? text

/-- The name of a signal or of the end. -/
def trapName (signal : Nat) : String := if signal = 0 then "EXIT" else Signal.name signal

/-- Sets what is done on a signal; `none` restores what is usual. -/
def setTrap (action? : Option String) (signal : Nat) : Act Unit := modify fun env =>
  let others := env.traps.filter fun entry => entry.1 != signal
  match action? with
  | some action => { env with traps := (signal, action) :: others }
  | none => { env with traps := others }

/-- Sets what is done on signals, up to the first that is none. -/
def setTraps (action? : Option String) : List String → Act Answer
  | [] => return {}
  | text :: rest => do
    match trapSignal? text with
    | none =>
      tell ("trap: " ++ text ++ ": bad trap\n")
      return .ofStatus 1
    | some signal =>
      setTrap action? signal
      setTraps action? rest

/-- Sets what is done on signals and at the end, or lists it. -/
def trap : Builtin := fun operands => do
  let g ← readOptions [] operands
  match g.operands with
  | [] =>
    let sorted := (← get).traps.mergeSort fun a b => decide (a.1 ≤ b.1)
    let lines := sorted.map fun (signal, action) =>
      "trap -- " ++ quoted action ++ " " ++ trapName signal ++ "\n"
    return .text (String.join lines)
  | [signal] => setTraps none [signal]
  | action :: signals =>
    if Signal.isNumber action && (trapSignal? action).isSome then
      setTraps none (action :: signals)
    else setTraps (if action = "-" then none else some action) signals

/-- What `kill` is asked to do. -/
inductive Killing where
  | send (signal : Nat) (processes : List String)
  /-- Names of signals are asked for. -/
  | list (numbers : List String)

/-- How `kill` is used. -/
def killUsage : String :=
  "Usage: kill [-s sigspec | -signum | -sigspec] [pid | job]... or\nkill -l [exitstatus]"

/-- Reads the signal that `kill` sends, or that names are asked for, and the operands after it. -/
def readSignal (operands : List String) : Act (Option Nat × Bool × List String) := do
  match operands.head?.map String.toList with
  | some ('-' :: text) =>
    match Signal.ofText? (String.ofList text) with
    | some signal => return (some signal, false, operands.drop 1)
    | none =>
      let g ← readOptions [('l', false), ('s', true)] operands
      match (g.options.filter fun entry => entry.1 == 's').getLast? with
      | none => return (none, g.has 'l', g.operands)
      | some (_, name) =>
        match Signal.ofText? name with
        | some signal => return (some signal, g.has 'l', g.operands)
        | none => fail ("invalid signal number or name: " ++ name)
  | _ => return (none, false, operands)

/-- Reads the operands of `kill`. -/
def readKilling (operands : List String) : Act Killing := do
  if operands.isEmpty then fail killUsage
  let (signal?, isList, rest) ← readSignal operands
  if isList && signal?.isNone then return .list rest
  if isList || rest.isEmpty then fail killUsage
  return .send (signal?.getD Signal.terminate) rest

/-- Names the signals, or the one of a number or of the status of a process that it ended. -/
def listSignals : List String → Act Answer
  | [] =>
    let names := (List.range Signal.largest).map fun n => Signal.name (n + 1)
    return .text (String.join (("0" :: names).map fun name => name ++ "\n"))
  | text :: _ => do
    let value ← number text
    let signal := if 128 < value then value - 128 else value
    if 0 < signal ∧ signal ≤ Signal.largest then return .text (Signal.name signal ++ "\n")
    fail ("invalid signal number or exit status: " ++ text)

end Builtin
end Script
end CommandShell
