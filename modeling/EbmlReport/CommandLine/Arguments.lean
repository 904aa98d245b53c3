/-!
# Command-line arguments

The arguments name files to report on and choose settings.  Options and files may
stand in any order; after `--` everything is a file.  The value of an option is the
next argument, or is attached with `=`; short flags may be joined after one dash.

Arguments are taken one by one.  A file, or a value that stands by itself, is held
back until the next argument that is not a file, and only then checked.  So of several
mistakes an unknown option is reported before a bad value directly in front of it, and
otherwise the first mistake counts.
-/

namespace EbmlReport

namespace CommandLine

/-- What the user asked for. -/
structure Request where
  files : List String
  shallow : Bool
  maxDepth : Nat
  strict : Bool
  timeoutSeconds : Option Nat
  verbose : Bool
deriving DecidableEq, Repr

/-- Why arguments are not a request. -/
inductive Rejection
  /-- No file is named. -/
  | fileMissing
  /-- A value is not a number in range. -/
  | badValue
  | unknownOption
  /-- An option has no value, or a file has no name. -/
  | emptyValue
  /-- A flag has a value. -/
  | flagWithValue
  /-- An option or a flag is given twice. -/
  | repeated
  /-- Help was asked for. -/
  | help
  /-- The version was asked for. -/
  | version
deriving DecidableEq, Repr

/-- The options that take a number. -/
inductive Setting
  | maxDepth
  | timeoutSeconds
deriving DecidableEq, Repr

/-- The options that take no value. -/
inductive Flag
  | shallow
  | strict
  | verbose
  | help
  | version
deriving DecidableEq, Repr

/-- An option by its long name. -/
inductive Named
  | setting (s : Setting)
  | flag (f : Flag)
deriving DecidableEq, Repr

/-- The option with a given long name. -/
def Named.ofLong? (name : String) : Option Named :=
  if name = "shallow" then some (.flag .shallow)
  else if name = "max-depth" then some (.setting .maxDepth)
  else if name = "strict" then some (.flag .strict)
  else if name = "timeout-secs" then some (.setting .timeoutSeconds)
  else if name = "verbose" then some (.flag .verbose)
  else if name = "help" then some (.flag .help)
  else if name = "version" then some (.flag .version)
  else none

/-- The flag with a given letter. -/
def Flag.ofLetter? : Char → Option Flag
  | 'v' => some .verbose
  | 'h' => some .help
  | 'V' => some .version
  | _ => none

/-- Arguments that are held back. -/
inductive Pending
  | nothing
  /-- An option with its value, if that was given already. -/
  | setting (s : Setting) (value : Option String)
  | files (names : List String)
deriving DecidableEq, Repr

/-- What has been made of the arguments so far. -/
structure Progress where
  files : List String
  shallow : Bool
  maxDepth : Option Nat
  strict : Bool
  timeoutSeconds : Option Nat
  verbose : Bool
  pending : Pending
deriving DecidableEq, Repr

namespace Progress

/-- Before the first argument. -/
def start : Progress where
  files := []
  shallow := false
  maxDepth := none
  strict := false
  timeoutSeconds := none
  verbose := false
  pending := .nothing

/-- The number that decimal digits spell, the most significant first. -/
def digitsValue? (digits : List Char) : Option Nat :=
  if digits.isEmpty then none
  else
    digits.foldl
      (fun acc c => acc.bind fun n => if c.isDigit then some (10 * n + (c.toNat - 48)) else none)
      (some 0)

/-- A decimal number below `2 ^ 64`, perhaps after a plus sign. -/
def number? (text : String) : Option Nat :=
  let digits :=
    match text.toList with
    | '+' :: rest => rest
    | all => all
  match digitsValue? digits with
  | some n => if n < 2 ^ 64 then some n else none
  | none => none

/-- Takes an option with its value.  A depth has to be positive. -/
def set (p : Progress) (s : Setting) (value : String) : Except Rejection Progress :=
  match s with
  | .maxDepth =>
      if p.maxDepth.isSome then .error .repeated
      else
        match number? value with
        | some (n + 1) => .ok { p with maxDepth := some (n + 1) }
        | _ => .error .badValue
  | .timeoutSeconds =>
      if p.timeoutSeconds.isSome then .error .repeated
      else
        match number? value with
        | some n => .ok { p with timeoutSeconds := some n }
        | none => .error .badValue

/-- Takes what has been held back. -/
def settle (p : Progress) : Except Rejection Progress :=
  let rest := { p with pending := .nothing }
  match p.pending with
  | .nothing => .ok rest
  | .setting _ none => .error .emptyValue
  | .setting s (some value) => rest.set s value
  | .files names =>
      if names.contains "" then .error .emptyValue
      else .ok { rest with files := rest.files ++ names }

/-- Takes a flag. -/
def raise (p : Progress) (f : Flag) : Except Rejection Progress :=
  match p.settle with
  | .error rejection => .error rejection
  | .ok p =>
      match f with
      | .shallow => if p.shallow then .error .repeated else .ok { p with shallow := true }
      | .strict => if p.strict then .error .repeated else .ok { p with strict := true }
      | .verbose => if p.verbose then .error .repeated else .ok { p with verbose := true }
      | .help => .error .help
      | .version => .error .version

/-- Takes the letters after a single dash. -/
def raiseAll (p : Progress) : List Char → Except Rejection Progress
  | [] => .ok p
  | letter :: rest =>
      match Flag.ofLetter? letter with
      | none => .error .unknownOption
      | some f =>
          match p.raise f with
          | .error rejection => .error rejection
          | .ok p => p.raiseAll rest

/-- Takes an option by its long name, with the value attached to it, if any. -/
def takeLong (p : Progress) (name : String) (attached : Option String) :
    Except Rejection Progress :=
  match Named.ofLong? name, attached with
  | none, _ => .error .unknownOption
  | some (.flag _), some _ => .error .flagWithValue
  | some (.flag f), none => p.raise f
  | some (.setting s), some value =>
      match p.settle with
      | .error rejection => .error rejection
      | .ok p => p.set s value
  | some (.setting s), none =>
      match p.settle with
      | .error rejection => .error rejection
      | .ok p => .ok { p with pending := .setting s none }

/-- Takes a file. -/
def takeFile (p : Progress) (name : String) : Except Rejection Progress :=
  match p.pending with
  | .files names => .ok { p with pending := .files (names ++ [name]) }
  | _ =>
      match p.settle with
      | .error rejection => .error rejection
      | .ok p => .ok { p with pending := .files [name] }

/-- Takes an argument that is no option: the value of the option before it, or a
file. -/
def takePlain (p : Progress) (argument : String) : Except Rejection Progress :=
  match p.pending with
  | .setting s none => .ok { p with pending := .setting s (some argument) }
  | _ => p.takeFile argument

/-- Takes one argument in front of `--`. -/
def take (p : Progress) (argument : String) : Except Rejection Progress :=
  match argument.toList with
  | '-' :: '-' :: long =>
      let name := long.takeWhile (· != '=')
      let value := long.dropWhile (· != '=')
      p.takeLong (String.ofList name)
        (if value.isEmpty then none else some (String.ofList (value.drop 1)))
  | '-' :: letter :: letters => p.raiseAll (letter :: letters)
  | _ => p.takePlain argument

/-- Takes arguments that are all files. -/
def takeFiles (p : Progress) : List String → Except Rejection Progress
  | [] => .ok p
  | name :: rest =>
      match p.takeFile name with
      | .error rejection => .error rejection
      | .ok p => p.takeFiles rest

/-- Takes all arguments. -/
def takeAll (p : Progress) : List String → Except Rejection Progress
  | [] => .ok p
  | argument :: rest =>
      if argument = "--" then p.takeFiles rest
      else
        match p.take argument with
        | .error rejection => .error rejection
        | .ok p => p.takeAll rest

/-- The request that all arguments make up. -/
def finish (p : Progress) : Except Rejection Request :=
  match p.settle with
  | .error rejection => .error rejection
  | .ok p =>
      if p.files.isEmpty then .error .fileMissing
      else
        .ok
          { files := p.files
            shallow := p.shallow
            maxDepth := p.maxDepth.getD 64
            strict := p.strict
            timeoutSeconds := p.timeoutSeconds
            verbose := p.verbose }

end Progress

/-- The request that command-line arguments make. -/
def Request.ofArguments (arguments : List String) : Except Rejection Request :=
  match Progress.start.takeAll arguments with
  | .error rejection => .error rejection
  | .ok p => p.finish

end CommandLine

end EbmlReport
