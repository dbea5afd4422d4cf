/-
The terminal program as an executable.

It opens the files that its arguments name, draws chance from a seed, and plays the
dialogue of the program on the terminal.
-/
import EventScript.Event.Record
import EventScript.Terminal.Program
import EventScript.Terminal.Styled

namespace EventScript

namespace Executable

/-- A tape of numbers that a seed determines: each position is scrambled on its own. -/
def seededTape (seed : Nat) (i : Nat) : Nat :=
  let z := (UInt64.ofNat seed) + (UInt64.ofNat (i + 1)) * 0x9E3779B97F4A7C15
  let z := (z ^^^ (z >>> 30)) * 0xBF58476D1CE4E5B9
  let z := (z ^^^ (z >>> 27)) * 0x94D049BB133111EB
  (z ^^^ (z >>> 31)).toNat

/-- Shows something on the terminal. -/
def present : Display → IO Unit
  | .line text => IO.println text.shown
  | .panel body title => IO.println ("── " ++ title.shown ++ " ──\n" ++ body.shown)
  | .table rows title => do
    IO.println title
    for row in rows do
      IO.println (String.intercalate " | " (row.map fun cell => cell.shown.replace "\n" " "))
  | .prompt text => do
    IO.print text.shown
    (← IO.getStdout).flush

/-- Asks a question until the judge accepts an answer. -/
partial def askUntil (question : Styled) (judge : String → Verdict) : IO (Except Ending Nat) := do
  present (.prompt question)
  let line ← (← IO.getStdin).getLine
  if line.isEmpty then return .error (.failure .endOfInput)
  match judge line with
  | .accept k => return .ok k
  | .giveUp f => return .error (.failure f)
  | .refuse complaint => do
    present complaint
    askUntil question judge

/-- Ends the program. -/
def finish : Ending → IO UInt32
  | .exit code => pure code.toUInt32
  | .failure f => do
    (← IO.getStderr).putStrLn ("error " ++ f.message)
    pure 1
  | .restless => do
    (← IO.getStderr).putStrLn "the events do not come to an end"
    pure 1

/-- Plays a dialogue on the terminal. -/
def playDialogue {α : Type} : Dialogue α → IO UInt32
  | .result _ => pure 0
  | .stop _ ending => finish ending
  | .present d rest => do
    present d
    playDialogue rest
  | .ask _ question judge next => do
    match ← askUntil question judge with
    | .ok k => playDialogue (next k)
    | .error ending => finish ending

/-- The text of a file, if it can be read. -/
def readText? (path : String) : IO (Option String) := do
  try
    return some (← IO.FS.readFile path)
  catch _ => return none

/-- Opens a file or a folder with content. -/
def openContent (path : String) : IO ContentSource := do
  let full := (← IO.currentDir) / path
  if ← full.isDir then
    let mut files := #[]
    for entry in ← full.readDir do
      if Content.isContentName entry.fileName then
        if let some text ← readText? entry.path.toString then
          files := files.push ⟨entry.fileName, text⟩
    return .folder files.toList
  else
    match ← readText? path with
    | some text => return .file text
    | none => return .missing

/-- Opens a file with settings. -/
def openSettings (path : String) : IO SettingsSource := do
  match ← readText? path with
  | some text => return .file text
  | none => return .missing

/-- What a request opens a game with. -/
def gameOf : Request → GameArguments
  | .play game _ _ => game
  | .execute game _ _ => game
  | .check game _ _ => game

/-- Opens the files that the arguments name. -/
def openFiles (args : Arguments) : IO Program.Files := do
  let readVariable (name : String) : IO String := do return (← IO.getEnv name).getD ""
  let seed ← readVariable "TRACEN_SEED"
  let debug ← readVariable "TRACEN_DEBUG"
  let maxChainDepth ← readVariable "TRACEN_MAX_CHAIN_DEPTH"
  let environment : Environment := ⟨seed, debug, maxChainDepth⟩
  match args with
  | .request r => do
    let content ← openContent (gameOf r).content
    let settings ← match (gameOf r).config with
      | some path => openSettings path
      | none => pure .standard
    return ⟨.standard, fun _ => content, fun _ => settings, environment⟩
  | _ => return ⟨.standard, fun _ => .missing, fun _ => .missing, environment⟩

/-- The seed that the arguments ask for, or one from the clock. -/
def seedOf (files : Program.Files) (args : Arguments) : IO Nat := do
  let clock ← IO.monoNanosNow
  match args with
  | .request r =>
    match Program.load files (gameOf r) with
    | .ok (settings, _) => return (settings.seed.map Int.natAbs).getD clock
    | .error _ => return clock
  | _ => return clock

end Executable

end EventScript

open EventScript Executable in
/-- Runs the program. -/
def main (args : List String) : IO UInt32 := do
  let parsed := Arguments.read args
  let files ← openFiles parsed
  let seed ← seedOf files parsed
  playDialogue ((Program.dialogue files args).run (Dice.fresh (seededTape seed)))
