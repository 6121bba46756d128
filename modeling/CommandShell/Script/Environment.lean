import CommandShell.Machine.Process
import CommandShell.Machine.Signal
import CommandShell.Script.Syntax
import CommandShell.Text.Numeral

/-!
# The environment of a script

What a script works on: its own variables, functions, settings and open streams, which a subshell
gets a copy of, and what it shares with its subshells: the file tree, what is written, and the
signals that are under way.

A stream is known to a script by a small number. The number stands for a channel, and several
numbers, also in subshells, may stand for the same one: what is read or written through one of
them is gone for the others, or comes before what they write.
-/

namespace CommandShell
namespace Script

/-! ## Parts of the environment -/

/-- What is behind the number of an open stream. -/
inductive Channel where
  /-- Bytes that wait to be read. -/
  | waiting (bytes : List UInt8)
  /-- Bytes that are kept for a reader; the last that were written come first. -/
  | collected (parts : List (List UInt8))
  /-- A stream that the script was started with. -/
  | stream (s : Stream)
  | device (full : Bool)
  /-- A file, read and written at an offset, or always written at its end. -/
  | file (place : Path) (offset : Nat) (appends : Bool)

/-- A variable of a script. -/
structure Variable where
  value? : Option String := none
  /-- It is passed on to other programs. -/
  exported : Bool := false
  readOnly : Bool := false

/-- A variable or the options of the script, as they were before they became local. -/
inductive Hidden where
  | variable (name : String) (before? : Option Variable)
  | options (before : List Char)

/-- Why the commands that would come next are not run. -/
inductive Jump where
  /-- The script ends with its present status. -/
  | exits
  /-- A mistake, which ends the script or only a command that was protected from that. -/
  | fails
  /-- The process is over, without any last command. -/
  | gone (ending : Child.Ending)
  /-- A function or a script that was read in ends. -/
  | returns
  | breaks (loops : Nat)
  | continues (loops : Nat)

/-- The part of the environment that a subshell copies. -/
structure Scope where
  /-- The name of the script. -/
  zero : String
  positional : List String
  bindings : List (String × Variable)
  functions : List (String × Command)
  /-- The letters of the options that are set. -/
  options : List Char
  /-- The status of the last command. -/
  status : Nat
  /-- The status of the last script in a word of the present command. -/
  substituted : Nat
  /-- The process of the last command in the background. -/
  background? : Option Nat
  line : Nat
  /-- The line up to which the text that is run was read. -/
  readUpTo : Nat
  /-- The line up to which the file of the script was read. -/
  fileReadUpTo : Nat
  /-- The command of the script language that complains. -/
  speaker? : Option String
  here : Path
  /-- The working directory as the script went there, links and all. -/
  logical : String
  /-- The permissions that new files do not get. -/
  mask : Nat
  /-- Open streams and their channels. -/
  streams : List (Nat × Nat)
  /-- Commands to be run on signals, and at the end for the number zero; an empty one stands for
  a signal that is not noticed. -/
  traps : List (Nat × String)
  /-- The signals that were not noticed from the start; this cannot be changed. -/
  deaf : List Nat
  /-- Signals whose commands are still to be run. -/
  caught : List Nat
  /-- What local variables hide, in the functions that run, the innermost first. -/
  hidden : List (List Hidden)
  /-- The number of loops around the present command. -/
  loops : Nat
  /-- The process. -/
  process : Nat
  isSubshell : Bool
  /-- How many characters of an argument were taken by the reading of options. -/
  optionOffset : Nat
  /-- The programs that were found on the search path, and where. -/
  found : List (String × String)
  /-- The status before the command that is run on a signal or at the end. -/
  interrupted? : Option Nat

/-- A command in the background. -/
structure Job where
  process : Nat
  /-- The process that started it. -/
  owner : Nat
  command : Command
  /-- The environment that it starts in. -/
  scope : Scope
  /-- Its end, once it has run. -/
  ending? : Option Child.Ending := none
  /-- Somebody has asked for its end. -/
  isKnown : Bool := false

/-- The environment of a script. What was written is kept in reverse. -/
structure Env extends Scope where
  tree : FileTree
  channels : Array Channel
  written : List (Stream × List UInt8)
  jobs : List Job
  /-- The number that the next process gets. -/
  nextProcess : Nat
  /-- The number of the process that runs the whole script. -/
  script : Nat
  /-- Signals for that process. -/
  arrived : List Nat
  /-- The processes that led to the script, the one that started it first. -/
  outer : List Nat
  /-- Signals for these processes. -/
  sent : List (Nat × Nat)

/-- Something that a script does. -/
abbrev Act := EStateM Jump Env

namespace Env

/-- The place where the script stands. -/
def standing (env : Env) : Standing := ⟨env.tree, env.here⟩

/-- The option is set. -/
def has (env : Env) (letter : Char) : Bool := env.options.contains letter

end Env

/-! ## Doing things -/

/-- Does something, and then changes the environment however that ended. -/
def afterwards {α : Type} (change : Env → Env) (act : Act α) : Act α := fun env =>
  match act env with
  | .ok value env => .ok value (change env)
  | .error jump env => .error jump (change env)

/-- Sets the status of the last command. -/
def setStatus (status : Nat) : Act Unit := modify fun env => { env with status }

/-! ## Streams -/

/-- The channel of an open stream. -/
def channel? (env : Env) (number : Nat) : Option (Nat × Channel) := do
  let place ← env.streams.lookup number
  let channel ← env.channels[place]?
  return (place, channel)

/-- Changes a channel. -/
def setChannel (place : Nat) (channel : Channel) : Act Unit :=
  modify fun env => { env with channels := env.channels.setIfInBounds place channel }

/-- Makes a new channel. -/
def newChannel (channel : Channel) : Act Nat := do
  let place := (← get).channels.size
  modify fun env => { env with channels := env.channels.push channel }
  return place

/-- Lets a number stand for a channel. -/
def bindStream (number place : Nat) : Act Unit := modify fun env =>
  { env with streams := (number, place) :: env.streams.filter fun entry => entry.1 != number }

/-- Closes a stream. -/
def closeStream (number : Nat) : Act Unit := modify fun env =>
  { env with streams := env.streams.filter fun entry => entry.1 != number }

/-- What keeps a script from writing to an open stream, or from reading it. -/
def streamFault? (env : Env) (number : Nat) : Option Fault :=
  match channel? env number with
  | none => some .closedStream
  | some (_, .device true) => some .noSpace
  | some _ => none

/-- The bytes of a file after some were written at an offset. A gap is filled with zeros. -/
def overwrite (old : List UInt8) (offset : Nat) (bytes : List UInt8) : List UInt8 :=
  old.take offset ++ List.replicate (offset - old.length) 0 ++ bytes
    ++ old.drop (offset + bytes.length)

/-- Writes bytes to an open stream, and says whether it could. -/
def put (number : Nat) (bytes : List UInt8) : Act Bool := do
  match channel? (← get) number with
  | none => return bytes.isEmpty
  | some (place, channel) =>
    match channel with
    | .stream s => modify fun env => { env with written := (s, bytes) :: env.written }
    | .collected parts => setChannel place (.collected (bytes :: parts))
    | .file path offset appends =>
      match (← get).tree.node? path with
      | some (.file old executable) =>
        let offset := if appends then old.length else offset
        let node : Node := .file (overwrite old offset bytes) executable
        modify fun env => { env with tree := env.tree.insert path node }
        setChannel place (.file path (offset + bytes.length) appends)
      | _ => pure ()
    | .device full => if full then return bytes.isEmpty
    | .waiting _ => pure ()
    return true

/-- The bytes that can be read from an open stream. -/
def available (env : Env) (number : Nat) : List UInt8 :=
  match channel? env number with
  | some (_, .waiting bytes) => bytes
  | some (_, .file path offset _) =>
    match env.tree.node? path with
    | some (.file bytes _) => bytes.drop offset
    | _ => []
  | _ => []

/-- Leaves only the last bytes of those that can be read from an open stream. -/
def leave (number : Nat) (rest : List UInt8) : Act Unit := do
  match channel? (← get) number with
  | some (place, .waiting _) => setChannel place (.waiting rest)
  | some (place, .file path offset appends) =>
    let ready := (available (← get) number).length
    setChannel place (.file path (offset + (ready - rest.length)) appends)
  | _ => pure ()

/-! ## Complaints -/

/-- The number of the stream for complaints. -/
def complaints : Nat := 2

/-- Writes a text to the stream of complaints. -/
def tell (text : String) : Act Unit := do
  let _ ← put complaints (Utf8.encode text)

/-- Complains about the present command. -/
def complain (text : String) : Act Unit := do
  let env ← get
  let speaker := match env.speaker? with
    | some name => name ++ ": "
    | none => ""
  tell (env.zero ++ ": " ++ toString env.line ++ ": " ++ speaker ++ text ++ "\n")

/-- The status after a mistake. -/
def mistaken : Nat := 2

/-- Complains about a mistake. -/
def fail {α : Type} (text : String) : Act α := do
  complain text
  setStatus mistaken
  throw .fails

/-- A number as a command of the script language takes it. -/
def number (text : String) : Act Nat :=
  let isSmall (value : Int) : Bool := 0 ≤ value && value < (Nat.pow 2 31 : Nat)
  match (Numeral.decimal? text).filter isSmall with
  | some value => pure value.toNat
  | none => fail ("Illegal number: " ++ text)

/-! ## Variables -/

/-- The variable of a name. -/
def Scope.lookup? (s : Scope) (name : String) : Option Variable := s.bindings.lookup name

/-- The value of a variable. -/
def Scope.value? (s : Scope) (name : String) : Option String :=
  (s.lookup? name).bind Variable.value?

/-- Changes or removes a variable. -/
def Scope.withVariable (s : Scope) (name : String) (v? : Option Variable) : Scope :=
  let others := s.bindings.filter fun entry => entry.1 != name
  match v? with
  | some v => { s with bindings := (name, v) :: others }
  | none => { s with bindings := others }

/-- Changes or removes a variable. -/
def setVariable (name : String) (v? : Option Variable) : Act Unit :=
  modify fun env => { env with toScope := env.toScope.withVariable name v? }

/-- Gives a variable a value, unless it must not be changed. -/
def assign (name value : String) (exports : Bool) : Act Unit := do
  let env ← get
  let v := (env.lookup? name).getD {}
  if v.readOnly then fail (name ++ ": is read only")
  let exported := v.exported || exports || env.has 'a'
  setVariable name (some { v with value? := some value, exported })
  if name = "OPTIND" then modify fun env => { env with optionOffset := 0 }
  if name = "PATH" then modify fun env => { env with found := [] }

/-- The characters that divide the values of parameters into texts. -/
def Scope.separators (s : Scope) : List Char := ((s.value? "IFS").getD " \t\n").toList

/-- Keeps in mind where a program was found on the search path. -/
def remember (name path : String) : Act Unit := modify fun env =>
  { env with found := (name, path) :: env.found.filter fun entry => entry.1 != name }

/-- The variables that are passed on to other programs. -/
def Scope.environment (s : Scope) : Environment :=
  s.bindings.filterMap fun (name, v) =>
    if v.exported then v.value?.map fun value => (name, value) else none

/-! ## Signals -/

/-- The command that is to be run on a signal. -/
def Scope.trap? (s : Scope) (signal : Nat) : Option String := s.traps.lookup signal

/-- The signals that the process does not notice. -/
def Scope.ignored (s : Scope) : List Nat :=
  s.deaf ++ (s.traps.filter fun entry => entry.2 = "").map Prod.fst

/-- Commands are to be run on signals or at the end. -/
def Scope.hasTraps (s : Scope) : Bool := s.traps.any fun entry => entry.2 ≠ ""

/-- The scope of a subshell at its start: no commands are run on signals. -/
def Scope.inSubshell (s : Scope) (process : Nat) : Scope :=
  { s with
    traps := s.traps.filter fun entry => entry.2 = ""
    caught := []
    readUpTo := s.fileReadUpTo
    process
    isSubshell := true }

end Script
end CommandShell
