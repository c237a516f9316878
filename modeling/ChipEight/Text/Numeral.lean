namespace ChipEight.Text

/-- The digits of an integer in a base of at most sixteen, after its sign. Zeros between the two
fill the text up to `width` characters, the sign included. -/
def numeral (base width : Nat) (n : Int) : List Char :=
  if n < 0 then '-' :: (Nat.toDigits base n.natAbs).leftpad (width - 1) '0'
  else (Nat.toDigits base n.natAbs).leftpad width '0'

def decimal (n : Int) : String :=
  .ofList (numeral 10 0 n)

def hex (width : Nat) (n : Int) : String :=
  .ofList (numeral 16 width n)

def hexCapital (n : Int) : String :=
  .ofList ((numeral 16 0 n).map Char.toUpper)

def bracketed (ns : List Int) : String :=
  "[" ++ ", ".intercalate (ns.map decimal) ++ "]"

end ChipEight.Text
