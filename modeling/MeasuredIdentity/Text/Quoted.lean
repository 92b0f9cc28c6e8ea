import MeasuredIdentity.Text.Hex
import MeasuredIdentity.Text.Printable

/-!
Characters and texts in quotes, as they stand in messages.
-/
namespace MeasuredIdentity.Text

/-- A character as it stands in a text between the given quotes. -/
def escape (quote c : Char) : List Char :=
  if c = '\x00' then ['\\', '0']
  else if c = '\t' then ['\\', 't']
  else if c = '\r' then ['\\', 'r']
  else if c = '\n' then ['\\', 'n']
  else if c = '\\' ∨ c = quote then ['\\', c]
  else if isPrintable c then [c]
  else ['\\', 'u', '{'] ++ hexDigits c.toNat ++ ['}']

def quotedChar (c : Char) : String := String.ofList ('\'' :: (escape '\'' c ++ ['\'']))

def quoted (s : String) : String :=
  String.ofList ('"' :: (s.toList.flatMap (escape '"') ++ ['"']))

end MeasuredIdentity.Text
