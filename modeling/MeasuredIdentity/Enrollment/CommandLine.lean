import MeasuredIdentity.Enrollment.Dialogue
import MeasuredIdentity.Enrollment.Plan
import MeasuredIdentity.Enrollment.SecretText

/-!
The command line of the enrolment tool: its options, and the questions it asks for what they do
not give.
-/
namespace MeasuredIdentity.Enrollment

structure Arguments where
  project : Option String := none
  secret : Option String := none
  registrationId : Option String := none
  mac : Option String := none
  firmwareVersion : Option String := none
  outDirectory : String := "."
  request : Bool := false
  deriving DecidableEq, Repr

namespace Arguments

def valuedOptions : List String :=
  ["project", "uds", "registration-id", "mac", "firmware-version", "out-dir"]

def requestOption : String := "csr"

/-- The name of a long option and the value attached to it with an equals sign. -/
def longOption? (argument : String) : Option (String × Option String) :=
  match argument.toList with
  | '-' :: '-' :: body =>
    match Text.cut (· == '=') body with
    | (name, []) => some (String.ofList name, none)
    | (name, _) => some (String.ofList name, some (String.ofList (body.drop (name.length + 1))))
  | _ => none

/-- A single hyphen is a value; other words with a hyphen in front are not. -/
def isValue (argument : String) : Bool := argument = "-" || !argument.startsWith "-"

/-- The options of a command line with their values. -/
def options? : List String → Option (List (String × Option String))
  | [] => some []
  | argument :: rest =>
    if argument = "--" then if rest = [] then some [] else none
    else do
      let (name, attached) ← longOption? argument
      if name = requestOption then
        if attached = none then return (name, none) :: (← options? rest) else none
      else if name ∈ valuedOptions then
        match attached with
        | some value => return (name, some value) :: (← options? rest)
        | none =>
          match rest with
          | value :: rest =>
            if isValue value then return (name, some value) :: (← options? rest) else none
          | [] => none
      else none

/-- Whether a path option has an empty value. -/
def hasEmptyPath (options : List (String × Option String)) : Bool :=
  options.any fun o => (o.1 = "project" || o.1 = "out-dir") && o.2 = some ""

/-- Reads a command line. No option may be repeated, and paths may not be empty. -/
def parse (arguments : List String) : Option Arguments := do
  let options ← options? arguments
  if (options.map (·.1)).Nodup ∧ ¬hasEmptyPath options then
    let value (name : String) : Option String := (options.lookup name).join
    return {
      project := value "project"
      secret := value "uds"
      registrationId := value "registration-id"
      mac := value "mac"
      firmwareVersion := value "firmware-version"
      outDirectory := (value "out-dir").getD "."
      request := (options.lookup requestOption).isSome }
  else none

end Arguments

inductive ToolError where
  | emptyProject
  | dialogue (cause : DialogueError)
  | secret (cause : SecretTextError)
  | enrollment (cause : EnrollmentError)
  deriving DecidableEq, Repr

def ToolError.report : ToolError → Report
  | .emptyProject => { message := "project name can not be empty" }
  | .dialogue cause => cause.report
  | .secret cause => cause.report
  | .enrollment cause => cause.report

namespace Tool

def projectQuestion : String := "Input the project name of your firmware build: "

def secretQuestion : String := "Input the UDS you saved into the security chip of your DevKit: "

variable {m : Type → Type} [Monad m]

def lift {ε α : Type} (wrap : ε → ToolError) (x : ExceptT ε m α) : ExceptT ToolError m α :=
  ExceptT.mk do return (← x.run).mapError wrap

/-- Obtains the project, the secret and the registration id, in this order. -/
def gather (terminal : Terminal m) (files : Files m) (a : Arguments) :
    ExceptT ToolError m Plan := do
  let project ← lift .dialogue (terminal.valueOrAsk a.project projectQuestion)
  if project = "" then throw .emptyProject
  lift .enrollment (checkInputs files project)
  let text ← lift .dialogue (terminal.valueOrAsk a.secret secretQuestion)
  let secret ← lift .secret (ExceptT.mk (pure (parseSecret text)))
  let id ← lift .dialogue (terminal.registrationId a.registrationId a.mac a.firmwareVersion)
  return {
    project, secret
    registrationId := id
    outDirectory := a.outDirectory
    policy := { deviceCertificate := if a.request then .request else .selfSigned } }

/-- Enrols a device and prints the path of its certificate. -/
def run (terminal : Terminal m) (files : Files m) (a : Arguments) : ExceptT ToolError m Unit := do
  let plan ← gather terminal files a
  let path ← lift .enrollment (plan.run files)
  let _ ← terminal.write (path ++ "\n")

/-- How the tool ends: its exit code, and the text for the error stream. -/
structure Ending where
  exitCode : UInt32
  errorText : String
  deriving DecidableEq, Repr

/-- The ending for a command line. Wrong arguments stop the tool before it does anything. -/
def runArguments (terminal : Terminal m) (files : Files m) (arguments : List String) : m Ending := do
  match Arguments.parse arguments with
  | none => return ⟨2, "error: invalid arguments\n"⟩
  | some a =>
    match ← (run terminal files a).run with
    | .ok () => return ⟨0, ""⟩
    | .error e => return ⟨1, e.report.render⟩

end Tool

/-- The surroundings of the tool in memory: its files and its dialogue. -/
structure Station where
  files : FileTree
  dialogue : Dialogue

namespace Station

def terminal : Terminal (StateM Station) where
  write text := modifyGet fun s =>
    let (done, dialogue) := s.dialogue.write text
    (done, { s with dialogue })
  readLine := modifyGet fun s =>
    let (line, dialogue) := s.dialogue.readLine
    (line, { s with dialogue })

def access : Files (StateM Station) where
  isFile path := do return (← get).files.isFile path
  read path := do return (← get).files.read path
  write path content := modifyGet fun s =>
    match s.files.write path content with
    | .ok files => (.ok (), { s with files })
    | .error e => (.error e, s)

/-- Runs the tool in memory. -/
def run (s : Station) (arguments : List String) : Tool.Ending × Station :=
  (Tool.runArguments terminal access arguments).run s

end Station

end MeasuredIdentity.Enrollment
