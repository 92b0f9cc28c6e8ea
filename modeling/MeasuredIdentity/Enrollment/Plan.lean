import MeasuredIdentity.Boot
import MeasuredIdentity.Enrollment.Files
import MeasuredIdentity.Enrollment.Layout
import MeasuredIdentity.Enrollment.Report

/-!
Offline enrolment: the boot of a device is repeated over the files of a firmware build, and the
alias certificate that the device will show is written to a file.
-/
namespace MeasuredIdentity.Enrollment

inductive EnrollmentError where
  | missingFile (path : String)
  | unreadableMap (path : String) (cause : FileError)
  | unreadableBinary (path : String) (cause : FileError)
  | layout (path : String) (cause : LayoutError)
  | derivation (cause : Error)
  | unwritable (path : String) (cause : FileError)
  deriving DecidableEq, Repr

namespace EnrollmentError

def report : EnrollmentError → Report
  | .missingFile path => { message := "unable to open file " ++ path }
  | .unreadableMap path cause => ⟨"unable to read map file " ++ path, some (.other cause.message)⟩
  | .unreadableBinary path cause =>
    ⟨"unable to read binary file " ++ path, some (.other cause.message)⟩
  | .layout path cause => ⟨"invalid RIoT layout in " ++ path, some (.other cause.message)⟩
  | .derivation cause => ⟨"DICE/RIoT derivation failed", some (.domain cause)⟩
  | .unwritable path cause => ⟨"unable to write " ++ path, some (.other cause.message)⟩

end EnrollmentError

/-- What an enrolment needs. The project is a path without extension. -/
structure Plan where
  project : String
  secret : DeviceSecret
  registrationId : RegistrationId
  outDirectory : String
  policy : IssuePolicy

def binaryPath (project : String) : String := project ++ ".bin"

def mapPath (project : String) : String := project ++ ".map"

section Steps

variable {m : Type → Type} [Monad m]

/-- The files of a project have to be there, the binary first. -/
def checkInputs (files : Files m) (project : String) : ExceptT EnrollmentError m Unit := do
  unless ← files.isFile (binaryPath project) do throw (.missingFile (binaryPath project))
  unless ← files.isFile (mapPath project) do throw (.missingFile (mapPath project))

def readMap (files : Files m) (path : String) : ExceptT EnrollmentError m LinkMap := do
  match ← files.read path with
  | .error cause => throw (.unreadableMap path cause)
  | .ok content =>
    match Text.Utf8.decode? content with
    | some text => return LinkMap.parse text
    | none => throw (.unreadableMap path .notUtf8)

def readBinary (files : Files m) (path : String) : ExceptT EnrollmentError m Bytes := do
  match ← files.read path with
  | .error cause => throw (.unreadableBinary path cause)
  | .ok content => return content

def readImages (files : Files m) (project : String) : ExceptT EnrollmentError m Images := do
  let map ← readMap files (mapPath project)
  let binary ← readBinary files (binaryPath project)
  ExceptT.mk (pure ((Images.cut binary map).mapError (.layout (mapPath project))))

namespace Plan

/-- Where the certificate goes. -/
def outPath (p : Plan) : String := joinPath p.outDirectory (p.registrationId.text ++ ".pem")

/-- The credentials that the device will boot with. -/
def credentials (p : Plan) (images : Images) : Except EnrollmentError Credentials :=
  (bootInMemory p.secret images.core images.firmware p.registrationId p.policy).mapError .derivation

/-- Writes the alias certificate once everything else has succeeded, and gives its path. -/
def run (files : Files m) (p : Plan) : ExceptT EnrollmentError m String := do
  checkInputs files p.project
  let images ← readImages files p.project
  let credentials ← ExceptT.mk (pure (p.credentials images))
  match ← files.write p.outPath credentials.aliasCertificate.text with
  | .ok () => return p.outPath
  | .error cause => throw (.unwritable p.outPath cause)

end Plan

end Steps

end MeasuredIdentity.Enrollment
