import CircuitCompiler.Build.Progress
import CircuitCompiler.Command.Option
import CircuitCompiler.Project.Starter

/-!
# Errors of commands

Why a command ends without success. What the components of a design are rejected for is reported
separately; these are the errors of the command as a whole.
-/

namespace CircuitCompiler.Command

/-- How many plain arguments a command takes. -/
inductive Arity where
  | any
  | exactly (n : Nat)
  | atMost (n : Nat)
  deriving DecidableEq, Repr, Inhabited

/-- Whether a number of arguments is accepted. -/
def Arity.accepts : Arity → Nat → Bool
  | any, _ => true
  | exactly n, given => given == n
  | atMost n, given => given ≤ n

/-- What a command takes, in words. -/
def Arity.text : Arity → String
  | any => "any number of args"
  | exactly n => toString n ++ " arg(s)"
  | atMost n => "at most " ++ toString n ++ " arg(s)"

/-- A profile that can be taken of a run. -/
inductive Profile where
  | cpu
  | heap
  | scheduler
  deriving DecidableEq, Repr, Inhabited

/-- The name of a profile in messages. -/
def Profile.title : Profile → String
  | cpu => "cpu profile"
  | heap => "heap profile"
  | scheduler => "runtime trace"

/-- Why a command failed. -/
inductive CommandError where
  | options (error : OptionError)
  | arguments (arity : Arity) (given : Nat)
  /-- An option that is automatic, on or off has another value. -/
  | badSwitch (option value : String)
  | profile (which : Profile) (cause : FileError)
  | traceLevel (cause : String)
  | traceFormat (cause : String)
  | traceOutput (cause : FileError)
  | noSources
  | manifest (error : ManifestError)
  | badScope (value : String)
  | tokenizeFile (cause : FileError)
  | tokenizeErrors
  | parseFile (cause : FileError)
  | parseError (error : CompileError)
  | badFormat (value : String)
  | badVersionFormat (value : String)
  | buildFailed (names : List String) (errors : List Build.Failure)
  | analysisFailed (errors : List Build.Failure)
  | invalidFacts
  | file (cause : FileError)
  | makeDirectory (path : String) (cause : FileError)
  | notDirectory (path : String)
  | alreadyStarted (path : String)

/-- The error in words. -/
def CommandError.message : CommandError → String
  | options error => error.message
  | arguments arity given => "accepts " ++ arity.text ++ ", received " ++ toString given
  | badSwitch option value =>
    "invalid --" ++ option ++ " value " ++ Text.Quoted.ofString value ++ " (expected auto|on|off)"
  | profile which cause => which.title ++ ": " ++ cause.text
  | traceLevel cause => "invalid trace level: " ++ cause
  | traceFormat cause => "invalid trace format: " ++ cause
  | traceOutput cause => "failed to create tracer: failed to open trace output: " ++ cause.text
  | noSources => "no sources: pass .cdl files or directories, or run inside a project with cdl.toml"
  | manifest error => error.message
  | badScope value =>
    "unknown scope " ++ Text.Quoted.ofString value ++ " (expected general|relational|index)"
  | tokenizeFile cause => "tokenization failed: " ++ cause.text
  | tokenizeErrors => "tokenization failed with errors"
  | parseFile cause => "parsing failed: " ++ cause.text
  | parseError error => "parsing failed: " ++ error.text
  | badFormat value => "unknown format: " ++ value
  | badVersionFormat value =>
    "unsupported format " ++ Text.Quoted.ofString value ++ " (must be pretty or json)"
  | buildFailed names errors =>
    "build failed: " ++
      (if names.isEmpty then Build.Failure.textAll errors else String.intercalate ", " names)
  | analysisFailed errors => "analysis failed: " ++ Build.Failure.textAll errors
  | invalidFacts => "internal error: facts do not satisfy the schema"
  | file cause => cause.text
  | makeDirectory path cause =>
    "failed to create directory " ++ Text.Quoted.ofString path ++ ": " ++ cause.text
  | notDirectory path => Text.Quoted.ofString path ++ " is not a directory"
  | alreadyStarted path => "project already initialized: " ++ path ++ " exists"

end CircuitCompiler.Command
