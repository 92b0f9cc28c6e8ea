import MeasuredIdentity.Enrollment.Report
import MeasuredIdentity.Registration
import MeasuredIdentity.Text.Utf8
import MeasuredIdentity.Text.Words

/-!
Questions to a user, answered one line each.
-/
namespace MeasuredIdentity.Enrollment

/-- Where questions are written and answers are read. -/
structure Terminal (m : Type → Type) where
  /-- Writes a text; tells whether all of it was taken. -/
  write : String → m Bool
  /-- The next line, or nothing if it is not UTF-8. -/
  readLine : m (Option String)

inductive DialogueError where
  | outputFull
  | unreadable
  | invalidId (cause : Error)
  | noGeneratedId (cause : Error)
  deriving DecidableEq, Repr

def notUtf8 : String := "stream did not contain valid UTF-8"

def DialogueError.report : DialogueError → Report
  | .outputFull => { message := "failed to write whole buffer" }
  | .unreadable => ⟨"unable to read from standard input", some (.other notUtf8)⟩
  | .invalidId cause => ⟨"invalid registration id", some (.domain cause)⟩
  | .noGeneratedId cause => ⟨"unable to generate a registration id", some (.domain cause)⟩

/-- The first word of a line; the empty text if there is none. -/
def firstWord (line : String) : String :=
  String.ofList ((Text.words line.toList).head?.getD [])

namespace Terminal

variable {m : Type → Type} [Monad m]

/-- Asks a question; the answer is the first word of the next line. -/
def ask (t : Terminal m) (question : String) : ExceptT DialogueError m String := do
  unless ← t.write question do throw .outputFull
  match ← t.readLine with
  | some line => return firstWord line
  | none => throw .unreadable

/-- The given value, or the answer to a question. -/
def valueOrAsk (t : Terminal m) (value : Option String) (question : String) :
    ExceptT DialogueError m String :=
  match value with
  | some value => return value
  | none => t.ask question

def idQuestion : String :=
  "Input your preferred registration id as set in DPS.ino (empty to generate one): "

def macQuestion : String := "Input the MAC address of your DevKit: "

def versionQuestion : String := "Input the firmware version of your DevKit: "

/-- The registration id that is wished for: the given one, none if a MAC address or a version is
given, and else the answer to a question. -/
def wishedId (t : Terminal m) (id mac version : Option String) : ExceptT DialogueError m String :=
  if id.isNone ∧ (mac.isSome ∨ version.isSome) then return "" else t.valueOrAsk id idQuestion

/-- The registration id of a device. Without a wish it is made of the MAC address and the
firmware version, both asked for before either is looked at. -/
def registrationId (t : Terminal m) (id mac version : Option String) :
    ExceptT DialogueError m RegistrationId := do
  let wish ← t.wishedId id mac version
  if wish ≠ "" then
    ExceptT.mk (pure ((RegistrationId.parse wish).mapError .invalidId))
  else
    let mac ← t.valueOrAsk mac macQuestion
    let version ← t.valueOrAsk version versionQuestion
    ExceptT.mk (pure ((RegistrationId.resolve none mac version).mapError .noGeneratedId))

end Terminal

/-- A byte string split behind its first line feed. -/
def splitLine (b : Bytes) : Bytes × Bytes :=
  let rest := b.dropWhile (· != 0x0a)
  (b.takeWhile (· != 0x0a) ++ rest.take 1, rest.drop 1)

@[simp] theorem splitLine_append (b : Bytes) : (splitLine b).1 ++ (splitLine b).2 = b := by
  rw [splitLine, List.append_assoc, List.take_append_drop, List.takeWhile_append_dropWhile]

theorem splitLine_cons (x : UInt8) (b : Bytes) :
    splitLine (x :: b)
      = if x = 0x0a then ([x], b) else (x :: (splitLine b).1, (splitLine b).2) := by
  by_cases h : x = 0x0a <;> simp [splitLine, h]

/-- The two streams of a dialogue in memory: the input that is left, and the output so far. -/
structure Dialogue where
  input : Bytes
  output : Bytes := []
  /-- How many more bytes the output takes, if there is a limit. -/
  room : Option Nat := none
  deriving DecidableEq

namespace Dialogue

/-- Takes as much of a text as there is room for. -/
def write (d : Dialogue) (text : String) : Bool × Dialogue :=
  let b := Text.Utf8.encode text
  match d.room with
  | none => (true, { d with output := d.output ++ b })
  | some room =>
    (decide (b.length ≤ room),
      { d with output := d.output ++ b.take room, room := some (room - b.length) })

/-- A line is consumed whether it can be read or not. -/
def readLine (d : Dialogue) : Option String × Dialogue :=
  let (line, rest) := splitLine d.input
  (Text.Utf8.decode? line, { d with input := rest })

def terminal : Terminal (StateM Dialogue) where
  write text := modifyGet (·.write text)
  readLine := modifyGet readLine

end Dialogue

end MeasuredIdentity.Enrollment
