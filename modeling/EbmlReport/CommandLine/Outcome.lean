import EbmlReport.CommandLine.Arguments
import EbmlReport.Matroska.Report
import EbmlReport.Text.Terminal

/-!
# Outcomes of a request

Each file of a request gets its report, in the order of the request.  With several
files a line with the name stands before each report.  A file that cannot be scanned
is told of among the errors, and their count at the end.  An error line is safe for a
terminal, whatever the name of the file.
-/

namespace EbmlReport

namespace CommandLine

/-- The settings of the scans of a request. -/
def Request.settings (r : Request) : Settings where
  shallow := r.shallow
  maxDepth := r.maxDepth
  recovery := if r.strict then .strict else .bestEffort

/-- What a request comes to. -/
structure Outcome where
  exitCode : Nat
  output : String
  errors : List String
deriving DecidableEq, Repr

namespace Outcome

/-- The report on a file, when its contents can be had. -/
def reportOn (settings : Settings) (contents : Except StreamError Contents) :
    Except Failure Matroska.Report :=
  match contents with
  | .ok c => Matroska.Report.ofContents c settings
  | .error cause => .error (.stream cause)

/-- What is printed for one file. -/
def outputOf (several : Bool) (path : String) (report : Except Failure Matroska.Report) :
    String :=
  (if several then "==> " ++ path ++ " <==\n" else "") ++
    match report with
    | .ok report => report.text
    | .error _ => ""

/-- The line about a file that cannot be scanned. -/
def errorOf? (path : String) (report : Except Failure Matroska.Report) : Option String :=
  match report with
  | .ok _ => none
  | .error failure =>
      some (Terminal.text ("Failed to scan " ++ path ++ ": " ++ failure.message))

/-- The outcome of reports on named files. -/
def ofReports (reports : List (String × Except Failure Matroska.Report)) : Outcome :=
  let several := 1 < reports.length
  let errors := reports.filterMap fun (path, report) => errorOf? path report
  let output := String.join (reports.map fun (path, report) => outputOf several path report)
  if errors.isEmpty then ⟨0, output, []⟩
  else
    ⟨1, output,
      errors ++ [s!"Error: {errors.length} of {reports.length} file(s) could not be scanned"]⟩

end Outcome

/-- The outcome of a request, given the contents behind each name. -/
def Request.outcome (r : Request) (contentsOf : String → Except StreamError Contents) : Outcome :=
  .ofReports (r.files.map fun path => (path, Outcome.reportOn r.settings (contentsOf path)))

end CommandLine

end EbmlReport
