import ChipEight.Machine.Notice
import ChipEight.Text.Integer

namespace ChipEight

/-- Why a text is not written: the system fails to write, or the text is none that can be. -/
inductive Console.Fault
  | system (message : String)
  | unwritable (message : String)
  deriving DecidableEq

def Console.Fault.message : Console.Fault → String
  | .system message => message
  | .unwritable message => message

/-- How notices reach the user: whether diagnostics are shown, what is written for a beep where
someone listens for it, and which texts the standard output refuses. -/
structure Console where
  verbose : Bool
  bell : Option (List String)
  refuses : String → Option Console.Fault

namespace Console

def off : Console :=
  ⟨false, none, fun _ ↦ none⟩

def line : Option String → String
  | some text => text ++ "\n"
  | none => ""

def diagnostics (c : Console) (n : Notice) : List String :=
  if c.verbose then (n.diagnostic?.map (· ++ "\n")).toList else []

def ringing (c : Console) (n : Notice) : List String :=
  if n.beepAt?.isSome then c.bell.getD [] else []

/-- The diagnostic of a beep comes before its bell. -/
def texts (c : Console) (n : Notice) : List String :=
  c.diagnostics n ++ c.ringing n

def takes (c : Console) (text : String) : Bool :=
  (c.refuses text).isNone

/-- Prints what there is to print for a notice. The first text that is refused ends it. -/
def hear (c : Console) (n : Notice) : Except Fault Unit :=
  match (c.texts n).findSome? c.refuses with
  | some e => .error e
  | none => .ok ()

@[simp]
theorem hear_off (n : Notice) : off.hear n = .ok () := by
  cases n <;> rfl

def written (c : Console) (n : Notice) : String :=
  String.join ((c.texts n).takeWhile c.takes)

def stdout (c : Console) (notices : List Notice) : String :=
  String.join (notices.map c.written)

def stderr (_ : Console) (notices : List Notice) : String :=
  String.join (notices.map fun n ↦ line n.warning?)

/-- When the listener is called. It is not where the diagnostic of the beep is refused. -/
def beeps (c : Console) (notices : List Notice) : List Int :=
  if c.bell.isSome then
    (notices.filter fun n ↦ (c.diagnostics n).all c.takes).filterMap Notice.beepAt?
  else []

def isVerbose (setting : Option String) : Except Text.IntegerFault Bool :=
  match setting with
  | none => .ok false
  | some text => (Text.readInteger text).map (1 ≤ ·)

end Console

end ChipEight
