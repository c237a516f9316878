import ChipEight.Text.DecimalDigit
import ChipEight.Text.Quoted

namespace ChipEight

namespace Options

inductive Switch
  | help | file
  deriving DecidableEq

namespace Switch

def short : Switch → Char
  | .help => 'h'
  | .file => 'f'

def long : Switch → String
  | .help => "help"
  | .file => "file"

def all : List Switch :=
  [.help, .file]

def ofShort? (c : Char) : Option Switch :=
  all.find? (·.short == c)

def text (s : Switch) : String :=
  "-" ++ s.short.toString ++ "/--" ++ s.long

end Switch

inductive Fault
  | ambiguous (argument : String) (candidates : List Switch)
  | valueIgnored (option : Switch) (value : String)
  | valueMissing (option : Switch)
  | optionMissing (option : Switch)
  | unrecognized (arguments : List String)
  deriving DecidableEq

def Fault.message : Fault → String
  | .ambiguous argument candidates =>
    "ambiguous option: " ++ argument ++ " could match " ++
      ", ".intercalate (candidates.map fun s ↦ "--" ++ s.long)
  | .valueIgnored option value =>
    "argument " ++ option.text ++ ": ignored explicit argument " ++ Text.quoted value
  | .valueMissing option => "argument " ++ option.text ++ ": expected one argument"
  | .optionMissing option => "the following arguments are required: " ++ option.text
  | .unrecognized arguments => "unrecognized arguments: " ++ " ".intercalate arguments

inductive Reply
  | help
  | refusal (e : Fault)
  deriving DecidableEq

namespace Reply

def usage : String :=
  "usage: chip8 [-h] -f FILE\n"

def stdout : Reply → String
  | .help => usage ++ "\nCHIP-8 interpreter\n\noptions:\n" ++
    "  -h, --help            show this help message and exit\n" ++
    "  -f FILE, --file FILE  input rom file\n"
  | .refusal _ => ""

def stderr : Reply → String
  | .help => ""
  | .refusal e => usage ++ "chip8: error: " ++ e.message ++ "\n"

def exitCode : Reply → Nat
  | .help => 0
  | .refusal _ => 2

end Reply

/-- What an argument is taken for. An option may hold a value in the same argument; a cluster is
one dash with letters behind it. -/
inductive Argument
  | plain
  | cluster (option : Switch) (value : Option (List Char))
  | long (option : Switch) (value : Option (List Char))
  | unknown
  deriving DecidableEq

/-- A minus sign before digits, perhaps with a point, is a number; a line may end after it. -/
def isNegativeNumber : List Char → Bool
  | '-' :: body =>
    let isDigit c := (Text.digitValue? c).isSome
    let isEnd (cs : List Char) := cs == [] || cs == ['\n']
    let whole := body.takeWhile isDigit
    match body.dropWhile isDigit with
    | '.' :: rest => rest.takeWhile isDigit != [] && isEnd (rest.dropWhile isDigit)
    | rest => whole != [] && isEnd rest
  | _ => false

def splitEquals (cs : List Char) : List Char × Option (List Char) :=
  (cs.takeWhile (· != '='),
    match cs.dropWhile (· != '=') with
    | [] => none
    | _ :: value => some value)

def unnamed (cs : List Char) : Argument :=
  if isNegativeNumber cs || cs.contains ' ' then .plain else .unknown

/-- A long option may be cut short as long as one option is left that it can mean. -/
def classifyLong (argument : String) (body : List Char) : Except Fault Argument :=
  let (name, value) := splitEquals body
  match Switch.all.filter fun s ↦ name.isPrefixOf s.long.toList with
  | [] => .ok (unnamed argument.toList)
  | [s] => .ok (.long s value)
  | candidates => .error (.ambiguous argument candidates)

def classify (argument : String) : Except Fault Argument :=
  match argument.toList with
  | '-' :: '-' :: body => classifyLong argument body
  | '-' :: c :: rest =>
    match Switch.ofShort? c, rest with
    | some s, [] => .ok (.cluster s none)
    | some s, '=' :: value => .ok (.cluster s (some value))
    | some s, value => .ok (.cluster s (some value))
    | none, _ => .ok (unnamed argument.toList)
  | _ => .ok .plain

/-- Classifies the arguments up to a double dash; from there on all are plain. -/
def classifyAll : List String → Except Fault (List (String × Argument))
  | [] => .ok []
  | a :: rest =>
    if a == "--" then .ok ((a, .unknown) :: rest.map fun b ↦ (b, .plain))
    else do
      let c ← classify a
      return (a, c) :: (← classifyAll rest)

def value? : List (String × Argument) → Option (String × List (String × Argument))
  | (v, .plain) :: rest => some (v, rest)
  | _ => none

/-- The reply to the option for help with letters behind it: these are further options, each looked
at before help is given. -/
def helpCluster (following : List (String × Argument)) : List Char → Reply
  | [] => .help
  | 'h' :: rest => helpCluster following rest
  | ['f'] => if (value? following).isSome then .help else .refusal (.valueMissing .file)
  | 'f' :: _ => .help
  | letters => .refusal (.valueIgnored .help (.ofList letters))

inductive Selection
  | path (p : String)
  | nothing
  deriving DecidableEq

/-- A double dash is dropped also where it is the value of an option, which is then left with
nothing. -/
def Selection.ofValue (v : String) : Selection :=
  if v == "--" then .nothing else .path v

structure Progress where
  file : Option Selection
  extras : List String

def Progress.select (p : Progress) (v : String) : Progress :=
  { p with file := some (.ofValue v) }

/-- Takes the arguments in order. The last file named wins. -/
def consume (p : Progress) : List (String × Argument) → Except Reply Progress
  | [] => .ok p
  | (a, .plain) :: rest => consume { p with extras := p.extras ++ [a] } rest
  | (a, .unknown) :: rest => consume { p with extras := p.extras ++ [a] } rest
  | (_, .long .help none) :: _ => .error .help
  | (_, .long .help (some value)) :: _ =>
    .error (.refusal (.valueIgnored .help (.ofList value)))
  | (_, .cluster .help none) :: _ => .error .help
  | (_, .cluster .help (some [])) :: _ => .error (.refusal (.valueIgnored .help ""))
  | (_, .cluster .help (some letters)) :: rest => .error (helpCluster rest letters)
  | (_, .long .file (some value)) :: rest => consume (p.select (.ofList value)) rest
  | (_, .cluster .file (some value)) :: rest => consume (p.select (.ofList value)) rest
  | (_, .long .file none) :: (v, .plain) :: rest => consume (p.select v) rest
  | (_, .cluster .file none) :: (v, .plain) :: rest => consume (p.select v) rest
  | (_, .long .file none) :: _ => .error (.refusal (.valueMissing .file))
  | (_, .cluster .file none) :: _ => .error (.refusal (.valueMissing .file))

def parse (arguments : List String) : Except Reply Selection := do
  let classified ← (classifyAll arguments).mapError .refusal
  let p ← consume ⟨none, []⟩ classified
  match p.file with
  | none => .error (.refusal (.optionMissing .file))
  | some choice =>
    if p.extras.isEmpty then .ok choice else .error (.refusal (.unrecognized p.extras))

end Options

end ChipEight
