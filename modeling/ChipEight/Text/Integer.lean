import ChipEight.Text.Blank
import ChipEight.Text.DecimalDigit
import ChipEight.Text.Quoted

namespace ChipEight.Text

inductive IntegerFault
  | notANumber (s : String)
  | tooLong (digits : Nat)
  deriving DecidableEq

def digitLimit : Nat := 4300

/-- At most two hundred characters of the quoted text are shown. -/
def IntegerFault.message : IntegerFault → String
  | .notANumber s =>
    "invalid literal for int() with base 10: " ++ .ofList ((quoted s).toList.take 200)
  | .tooLong digits =>
    "Exceeds the limit (" ++ decimal digitLimit ++ " digits) for integer string conversion: " ++
      "value has " ++ decimal digits ++
      " digits; use sys.set_int_max_str_digits() to increase the limit"

def digits? : List Char → Option (List Nat)
  | [] => none
  | [c] => (digitValue? c).map ([·])
  | c :: '_' :: rest => do return (← digitValue? c) :: (← digits? rest)
  | c :: rest => do return (← digitValue? c) :: (← digits? rest)

def ofDigits (ds : List Nat) : Nat :=
  ds.foldl (fun n d ↦ 10 * n + d) 0

def splitSign : List Char → Bool × List Char
  | '-' :: rest => (true, rest)
  | '+' :: rest => (false, rest)
  | rest => (false, rest)

/-- A decimal integer, blanks around it. The digits are counted before what follows them is
looked at. -/
def readInteger (s : String) : Except IntegerFault Int :=
  let (negative, body) := splitSign (s.toList.dropWhile isBlank)
  let isPart c := c == '_' || (digitValue? c).isSome
  match digits? (body.takeWhile isPart) with
  | none => .error (.notANumber s)
  | some ds =>
    if digitLimit < ds.length then .error (.tooLong ds.length)
    else if (body.dropWhile isPart).all isBlank then
      .ok (if negative then -ofDigits ds else ofDigits ds)
    else .error (.notANumber s)

end ChipEight.Text
