import ChipEight.Instruction.Assembly

namespace ChipEight

inductive Notice
  | ignoredCall (pc : Nat) (nnn : Address)
  | awaitingKey (pc : Nat)
  | keyStored (key register : Nibble)
  | romLoaded (path : String) (size : Nat)
  | unknownWord (word : Word) (pc : Nat)
  | beep (now : Int)
  deriving DecidableEq

namespace Notice

def diagnostic? : Notice → Option String
  | .ignoredCall pc nnn =>
    some ("mem_addr: 0x" ++ Text.hex 4 pc ++ "    ignoring machine code routine: " ++
      (Instruction.address .sys nnn).text)
  | .awaitingKey pc => some ("mem_addr: 0x" ++ Text.hex 4 pc ++ "    waiting for a key press")
  | .keyStored key register =>
    some ("key 0x" ++ Text.hex 0 key ++ " stored in V" ++ Text.hexCapital register ++
      ", resuming execution")
  | .romLoaded path size =>
    some ("The ROM at path " ++ path ++ " has been loaded successfully (" ++
      Text.decimal size ++ " bytes)")
  | .unknownWord _ _ => none
  | .beep _ => some "BEEP!"

def warning? : Notice → Option String
  | .unknownWord word pc =>
    some ("Unknown opcode 0x" ++ Text.hex 4 word.toNat ++ " at address 0x" ++ Text.hex 3 pc ++
      ", skipping it")
  | _ => none

def beepAt? : Notice → Option Int
  | .beep now => some now
  | _ => none

end Notice

end ChipEight
