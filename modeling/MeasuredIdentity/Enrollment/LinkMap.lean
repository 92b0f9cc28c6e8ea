import MeasuredIdentity.Text.Hex
import MeasuredIdentity.Text.Words

/-!
The map file of a linker: where the flash memory starts, and the addresses of symbols.
-/
namespace MeasuredIdentity.Enrollment

namespace Address

/-- A number of at least one hexadecimal digit below 2⁶⁴. -/
def ofDigits? (digits : List Char) : Option UInt64 := do
  let values ← if digits = [] then none else digits.mapM Text.hexValue?
  return UInt64.ofNat (← Text.hexNumberBelow? UInt64.size values)

/-- A number behind `0x` or `0X`; one plus sign may stand in front of its digits. -/
def parse? : List Char → Option UInt64
  | '0' :: x :: '+' :: digits => if x = 'x' ∨ x = 'X' then ofDigits? digits else none
  | '0' :: x :: digits => if x = 'x' ∨ x = 'X' then ofDigits? digits else none
  | _ => none

end Address

structure LinkMap where
  flashOrigin : Option UInt64 := none
  /-- The assignments, the last one first. -/
  assignments : List (String × UInt64) := []

namespace LinkMap

def flashRegion : String := "FLASH"

/-- Takes in one line, given as its words. The first flash region with a readable origin counts;
a line `address symbol = …` assigns an address. -/
def addLine (m : LinkMap) (words : List (List Char)) : LinkMap :=
  match words with
  | first :: second :: rest =>
    if first = flashRegion.toList ∧ m.flashOrigin = none then
      { m with flashOrigin := Address.parse? second }
    else if rest.head? = some ['='] then
      match Address.parse? first with
      | some address => { m with assignments := (String.ofList second, address) :: m.assignments }
      | none => m
    else m
  | _ => m

def ofLines (lines : List (List Char)) : LinkMap :=
  lines.foldl (fun m line => m.addLine (Text.words line)) {}

/-- Reads a map file. A carriage return at the end of a line is white space like any other. -/
def parse (text : String) : LinkMap := ofLines (Text.lines text.toList)

/-- The address of a symbol: that of its last assignment. -/
def symbol? (m : LinkMap) (name : String) : Option UInt64 := m.assignments.lookup name

end LinkMap

end MeasuredIdentity.Enrollment
