import ChipEight.Frontend.Headless
import ChipEight.Frontend.Playback

namespace ChipEight.Terminal

def readRom (path : String) : IO (Except FileTree.Fault (List Byte)) := do
  try
    return .ok (← IO.FS.readBinFile path).toList
  catch
    | .inappropriateType .. => return .error .isADirectory
    | _ => return .error .notFound

/-- The keys typed on one line are pressed in one turn and let go in the next. -/
def typed (line : String) : List (List Event) :=
  let codes := (line.toList.filter (· != '\n')).map fun c ↦ (c.toNat : Int)
  [codes.map .keyDown, codes.map .keyUp]

partial def readTurns (input : IO.FS.Stream) (turns : List (List Event)) :
    IO (List (List Event)) := do
  let line ← input.getLine
  if line.isEmpty then return turns else readTurns input (turns ++ typed line)

def showFrame (cells : List (List (Option Bool))) : String :=
  "\n".intercalate (cells.map fun row ↦
    .ofList (row.map fun cell ↦ if cell == some true then '#' else '.'))

end ChipEight.Terminal

open ChipEight Terminal

/-- Plays a program against the keys on standard input, two milliseconds a turn, and shows each
picture as text. -/
def main (arguments : List String) : IO UInt32 := do
  let console : Console ← match Console.isVerbose (← IO.getEnv "DEBUG") with
    | .ok verbose => pure ⟨verbose, some ["\x07"], fun _ ↦ none⟩
    | .error e =>
      IO.eprintln e.message
      return 1
  let files : Files ← match Options.parse arguments with
    | .ok (.path path) => do
      let content ← readRom path
      pure fun _ ↦ content
    | _ => pure fun _ ↦ .error .notFound
  let turns ← match Options.parse arguments with
    | .ok _ => readTurns (← IO.getStdin) []
    | .error _ => pure []
  let seed ← IO.rand 0 255
  let p := Playback.run (Headless.system (1024, 768) 16384) console files
    (fun k ↦ (seed + 97 * k : Nat)) 0 (fun turn ↦ .still ((turn + 1) * 2000000)) arguments turns
  IO.print (p.stdout console)
  IO.eprint (p.stderr console)
  for cells in p.frames do
    IO.println (showFrame cells ++ "\n")
  match p.ending with
  | .closed => return 0
  | .exit report =>
    IO.eprintln report
    return 1
  | .reply r => return r.exitCode.toUInt32
  | .failed .. | .windowless _ | .nameless =>
    IO.eprintln (p.ending.failure?.getD "")
    return 1
