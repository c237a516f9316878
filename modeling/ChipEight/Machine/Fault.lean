import ChipEight.Console
import ChipEight.Keypad
import ChipEight.Memory
import ChipEight.Screen

namespace ChipEight

inductive Reason
  | unspecified | stackOverflow | stackUnderflow | fetch | memoryAccess | romTooLarge
  deriving DecidableEq

def Reason.text : Reason → String
  | .unspecified => "CHIP-8 failure"
  | .stackOverflow => "Stack overflow"
  | .stackUnderflow => "Stack underflow"
  | .fetch => "Instruction fetch out of memory"
  | .memoryAccess => "Memory access out of bounds"
  | .romTooLarge => "ROM doesn't fit in memory when loaded"

structure Crash where
  reason : Reason
  address : Int
  deriving DecidableEq

def Crash.message (c : Crash) : String :=
  c.reason.text ++ " at address 0x" ++ Text.hex 3 c.address

inductive Fault
  | crash (c : Crash)
  | memory (e : Memory.Fault)
  | screen (e : Screen.Fault)
  | keypad (e : Keypad.Fault)
  | output (e : Console.Fault)
  deriving DecidableEq

def Fault.message : Fault → String
  | .crash c => c.message
  | .memory e => e.message
  | .screen e => e.message
  | .keypad e => e.message
  | .output e => e.message

end ChipEight
