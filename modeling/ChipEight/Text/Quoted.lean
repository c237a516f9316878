import ChipEight.Text.Numeral
import ChipEight.Text.Printable

namespace ChipEight.Text

/-- Single quotes, unless the text has some and no double quote. -/
def quoteFor (cs : List Char) : Char :=
  if cs.contains '\x27' && !cs.contains '\x22' then '\x22' else '\x27'

/-- What stands for a character between the given quotes. A character that cannot be printed is
written by its code, in the shortest of three forms. -/
def escaped (quote c : Char) : List Char :=
  if c == quote || c == '\x5c' then ['\x5c', c]
  else if c == '\n' then ['\x5c', 'n']
  else if c == '\r' then ['\x5c', 'r']
  else if c == '\t' then ['\x5c', 't']
  else if isPrintable c then [c]
  else if c.toNat < 0x100 then ['\x5c', 'x'] ++ numeral 16 2 c.toNat
  else if c.toNat < 0x10000 then ['\x5c', 'u'] ++ numeral 16 4 c.toNat
  else ['\x5c', 'U'] ++ numeral 16 8 c.toNat

def quoted (s : String) : String :=
  let quote := quoteFor s.toList
  .ofList (quote :: s.toList.flatMap (escaped quote) ++ [quote])

end ChipEight.Text
