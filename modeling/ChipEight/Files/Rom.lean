import ChipEight.Files.Tree
import ChipEight.Machine.Basic

namespace ChipEight

inductive RomFault
  | file (e : FileTree.Fault)
  | machine (e : Fault)
  deriving DecidableEq

def RomFault.message (path : String) : RomFault → String
  | .file e => e.message path
  | .machine e => e.message

abbrev Files := String → Except FileTree.Fault (List Byte)

/-- A program that has been loaded is told of, and stays loaded where that is refused. -/
def Machine.loadFile (m : Machine) (files : Files) (path : String) (c : Console := .off) :
    Except (Raise RomFault) (Machine × List Notice) := do
  let rom ← (files path).mapError fun e ↦ ⟨m, .file e⟩
  let n ← (m.load rom).mapError fun e ↦ ⟨m, .machine e⟩
  (n.tell (.romLoaded path rom.length) c).mapError fun e ↦ ⟨e.machine, .machine e.fault⟩

end ChipEight
