import ChipEight.Console
import ChipEight.Files.Rom
import ChipEight.Frontend.Options
import ChipEight.Frontend.Session
import ChipEight.Machine.Dump

namespace ChipEight

inductive Ending
  | closed
  | exit (report : String)
  | reply (r : Options.Reply)
  | failed (path : String) (e : RomFault)
  | windowless (message : String)
  | nameless

def Ending.failure? : Ending → Option String
  | .failed path e => some (e.message path)
  | .windowless message => some message
  | .nameless => some "expected str, bytes or os.PathLike object, not list"
  | _ => none

structure Playback where
  ending : Ending
  notices : List Notice
  frames : List (List (List (Option Bool)))
  captions : List String
  rates : List Nat

namespace Playback

def before (ending : Ending) : Playback :=
  ⟨ending, [], [], [], []⟩

def crashReport (c : Crash) (m : Machine) : String :=
  "********** THE EMULATOR CRASHED WITH THE FOLLOWING STATE\n" ++ c.message ++ "\n" ++ m.dump

def ofSession {W : WindowSystem} (path : String) (s : Session W) (r : Except Fault Unit) :
    Playback :=
  let ending := match r with
    | .ok () => .closed
    | .error (.crash c) => .exit (crashReport c s.machine)
    | .error e => .failed path (.machine e)
  ⟨ending, s.notices, s.frames, [FileTree.baseName path], s.rates⟩

/-- A file that cannot be opened and a program that does not fit are reported, and so is a system
that fails to write; any other failure to load is not foreseen. -/
def loadFailure (path : String) (e : RomFault) : Ending :=
  match e with
  | .file .embeddedNul => .failed path e
  | .file _ | .machine (.crash _) | .machine (.output (.system _)) =>
    .exit ("Cannot load the ROM at path " ++ path ++ ": " ++ e.message path)
  | .machine _ => .failed path e

/-- The whole program. The clock is read once when the machine is built, and then in each turn. -/
def run (W : WindowSystem) (c : Console) (files : Files) (random : Nat → Int) (start : Int)
    (clock : Nat → Moment) (arguments : List String) (events : List (List Event)) : Playback :=
  match Options.parse arguments with
  | .error r => before (.reply r)
  | .ok .nothing => before .nameless
  | .ok (.path path) =>
    match (Machine.fresh start).loadFile files path c with
    | .error e => before (loadFailure path e.fault)
    | .ok (m, notices) =>
      match Session.start W m notices with
      | .error e =>
        ⟨.windowless (W.message e), notices, [], [FileTree.baseName path], []⟩
      | .ok s =>
        let (s, r) := s.play c random clock events
        ofSession path s r

def stdout (c : Console) (p : Playback) : String :=
  c.stdout p.notices ++ match p.ending with
    | .reply r => r.stdout
    | _ => ""

def stderr (c : Console) (p : Playback) : String :=
  c.stderr p.notices ++ match p.ending with
    | .reply r => r.stderr
    | _ => ""

end Playback

end ChipEight
