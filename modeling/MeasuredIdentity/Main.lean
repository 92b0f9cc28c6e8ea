import MeasuredIdentity.Enrollment.CommandLine

/-!
The enrolment tool on the streams and files of its process.
-/
namespace MeasuredIdentity.Enrollment

def FileError.ofHost : IO.Error → FileError
  | .noFileOrDirectory .. => .notFound
  | .inappropriateType _ 20 _ => .notDirectory
  | .inappropriateType _ 21 _ => .isDirectory
  | .invalidArgument _ 36 _ => .nameTooLong
  | .permissionDenied _ 13 _ => .permissionDenied
  | .permissionDenied _ code text => .other (text ++ " (os error " ++ toString code ++ ")")
  | e => .other e.toString

namespace Host

def terminal : Terminal IO where
  write text := do
    let out ← IO.getStdout
    try
      out.putStr text
      out.flush
      return true
    catch _ => return false
  readLine := do
    try
      return some (← (← IO.getStdin).getLine)
    catch _ => return none

def files : Files IO where
  isFile path := do
    try
      return (← (System.mkFilePath [path]).metadata).type == .file
    catch _ => return false
  read path := do
    try
      return .ok (← IO.FS.readBinFile path).data.toList
    catch e => return .error (.ofHost e)
  write path content := do
    try
      IO.FS.writeBinFile path ⟨content.toArray⟩
      return .ok ()
    catch e => return .error (.ofHost e)

end Host

end MeasuredIdentity.Enrollment

def main (arguments : List String) : IO UInt32 := do
  let ending ← MeasuredIdentity.Enrollment.Tool.runArguments
    MeasuredIdentity.Enrollment.Host.terminal MeasuredIdentity.Enrollment.Host.files arguments
  IO.eprint ending.errorText
  return ending.exitCode
