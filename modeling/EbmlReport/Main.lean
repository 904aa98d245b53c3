import EbmlReport.CommandLine.Outcome

/-!
# The command line

Reads the files that a request names, prints their reports, and prints what went wrong
on the error stream.
-/

namespace EbmlReport

namespace CommandLine

/-- The text of `--help`. -/
def helpText : String :=
  String.intercalate "\n"
    ["Report the structure and metadata of Matroska/WebM files",
      "",
      "Usage: [OPTIONS] <FILES>...",
      "",
      "Options:",
      "      --shallow              Read only the first Cluster in full, skip the rest",
      "      --max-depth <N>        Maximum element nesting depth [default: 64]",
      "      --strict               Fail on the first malformed element instead of recovering",
      "      --timeout-secs <N>     Cancel scans still running after this many seconds",
      "  -v, --verbose              Enable verbose logging",
      "  -h, --help                 Print help",
      "  -V, --version              Print version"]

/-- The text of `--version`. -/
def versionText : String := "0.1.0"

/-- The wording of a rejection. -/
def Rejection.message : Rejection → String
  | fileMissing => "no file to scan"
  | badValue => "invalid value for an option"
  | unknownOption => "unexpected option"
  | emptyValue => "a value is required but none was given"
  | flagWithValue => "a flag takes no value"
  | repeated => "an option is given more than once"
  | help => helpText
  | version => versionText

/-- The contents of a file. -/
def contentsOf (path : String) : IO (Except StreamError Contents) := do
  try
    return .ok (.ofByteArray (← IO.FS.readBinFile path))
  catch
    | .noFileOrDirectory .. => return .error .notFound
    | other => return .error (.device (toString other))

/-- The report on a file.  With a limit in seconds a scan still running then counts as
cancelled. -/
def reportWithin (settings : Settings) (limit : Option Nat) (path : String) :
    IO (Except Failure Matroska.Report) := do
  let contents ← contentsOf path
  match limit with
  | none => return Outcome.reportOn settings contents
  | some seconds =>
      let task := Task.spawn fun _ => Outcome.reportOn settings contents
      for _ in [0:100 * seconds] do
        if ← IO.hasFinished task then return task.get
        IO.sleep 10
      if ← IO.hasFinished task then return task.get
      return .error .cancelled

/-- Runs a request and gives the exit code. -/
def runRequest (r : Request) : IO UInt32 := do
  let mut reports := []
  for path in r.files do
    reports := (path, ← reportWithin r.settings r.timeoutSeconds path) :: reports
  let outcome := Outcome.ofReports reports.reverse
  IO.print outcome.output
  for line in outcome.errors do
    IO.eprintln line
  return UInt32.ofNat outcome.exitCode

end CommandLine

end EbmlReport

open EbmlReport.CommandLine in
/-- Runs the request that the arguments make. -/
def main (arguments : List String) : IO UInt32 := do
  match Request.ofArguments arguments with
  | .ok request => runRequest request
  | .error .help => IO.println helpText; return 0
  | .error .version => IO.println versionText; return 0
  | .error rejection => IO.eprintln ("error: " ++ rejection.message); return 2
