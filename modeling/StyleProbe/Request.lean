import StyleProbe.Cache
import StyleProbe.Audit
import StyleProbe.Profile.Builtin
import StyleProbe.Profile.Source
import StyleProbe.Text.Lines

/-!
# Requests

What a user can ask for: a profile to probe, the way to probe it, one
command, and how much to say. Files are given by a function from paths to
texts, so that a request is answered without touching a file system.
-/

namespace StyleProbe

/-- The text of the file at a path, if there is one that can be read. -/
abbrev Files : Type := String → Option String

/-- How much to say. -/
inductive Verbosity where
  | quiet
  | normal
  | verbose
deriving DecidableEq

namespace Verbosity

def all : List Verbosity := [quiet, normal, verbose]

def text : Verbosity → String
  | quiet => "quiet"
  | normal => "normal"
  | verbose => "verbose"

/-- The least severe kind of log message that is shown. -/
def logFilter : Verbosity → String
  | quiet => "warn"
  | normal => "info"
  | verbose => "debug"

end Verbosity

/-- Where to take the profile from. -/
inductive ProfileChoice where
  | builtin (name : String)
  | file (path : String)
deriving DecidableEq

namespace ProfileChoice

/-- The name of the profile that is probed unless another one is chosen. -/
def defaultName : String := "modern"

def default : ProfileChoice := builtin defaultName

end ProfileChoice

/-- What to do with the profile. -/
inductive Command where
  | key (property : String)
  | value (property value : String)
  | resolve (property value : String)
  | audit (path : String)
  | profiles
deriving DecidableEq

/-- Everything a user asks for at once. -/
structure Request where
  profile : ProfileChoice
  strategy : Strategy
  command : Command
  verbosity : Verbosity
deriving DecidableEq

/-- What is wrong with a profile file. -/
inductive ProfileFileFault where
  | unreadable
  | malformed
  | invalid (cause : ProfileError)
deriving DecidableEq

/-- Why a request has no answer. -/
inductive RequestError where
  | builtinProfile (cause : ProfileError)
  | profileFile (path : String) (fault : ProfileFileFault)
  | emptyPropertyName
  | unreadableStylesheet (path : String)
  | stylesheet (path : String) (cause : Css.Error)
  | noSingleAnswer
deriving DecidableEq

/-- What a user is told about an error. -/
def RequestError.message : RequestError → String
  | builtinProfile cause => cause.message
  | profileFile path _ => "failed to load profile " ++ path
  | emptyPropertyName => "property name is empty"
  | unreadableStylesheet path => "failed to read " ++ path
  | stylesheet path _ => "failed to audit " ++ path
  | noSingleAnswer => "no single-line answer"

/-- The profile in the text of a profile file. -/
def Profile.ofToml (text : String) : Except ProfileFileFault Profile :=
  match ProfileSource.ofToml? text with
  | none => .error .malformed
  | some source =>
    match Profile.ofSource source with
    | .ok profile => .ok profile
    | .error cause => .error (.invalid cause)

/-- The profile that was chosen. -/
def ProfileChoice.load (files : Files) :
    ProfileChoice → Except RequestError Profile
  | builtin name =>
    match Profile.builtin name with
    | .ok profile => .ok profile
    | .error cause => .error (.builtinProfile cause)
  | file path =>
    match files path with
    | none => .error (.profileFile path .unreadable)
    | some text =>
      match Profile.ofToml text with
      | .ok profile => .ok profile
      | .error fault => .error (.profileFile path fault)

namespace Request

/-- The property name that a user typed. -/
def propertyName (text : String) : Except RequestError PropertyName :=
  match PropertyName.ofText? text with
  | some name => .ok name
  | none => .error .emptyPropertyName

/-- The built-in profiles, a line for each. -/
def profileList : String :=
  "\n".intercalate
    (ProfileSource.builtins.map fun (_, source) =>
      Text.padRight 14 source.name ++ " " ++ source.description)

/-- The resolver that a request asks for, on its profile. -/
def resolver (request : Request) (profile : Profile) : Resolver :=
  ⟨profile.surface, request.strategy⟩

/-- The answer to any command but an audit. The list of profiles needs no
profile; for all others it is loaded before anything else is looked at. -/
def answer (files : Files) (request : Request) :
    Except RequestError String :=
  match request.command with
  | .profiles => .ok profileList
  | .key property => do
    let profile ← request.profile.load files
    let key ← propertyName property
    let query := Query.askName key
    return (query.answer (request.resolver profile)).value.text
  | .value property value => do
    let profile ← request.profile.load files
    let key ← propertyName property
    let query := Query.askValue key value
    return (query.answer (request.resolver profile)).value.text
  | .resolve property value => do
    let profile ← request.profile.load files
    let key ← propertyName property
    let query := Query.resolve key value
    return (query.answer (request.resolver profile)).value.text
  | .audit _ => do
    let _ ← request.profile.load files
    throw .noSingleAnswer

/-- The audit of the style sheet at a path. The style sheet is read before
the profile. -/
def auditReport (files : Files) (request : Request) (path : String) :
    Except RequestError AuditReport :=
  match files path with
  | none => .error (.unreadableStylesheet path)
  | some css => do
    let profile ← request.profile.load files
    match Audit.ofStylesheet css with
    | .error cause => throw (.stylesheet path cause)
    | .ok query =>
      let answered := Cache.empty.answer (request.resolver profile) query
      return answered.value.1

/-- A text as it is printed. On a terminal of a known width its lines are cut
to that width, unless everything is to be said. -/
def printed (verbosity : Verbosity) (width : Option Nat) (text : String) :
    String :=
  match verbosity, width with
  | .verbose, _ => text ++ "\n"
  | _, none => text ++ "\n"
  | _, some width =>
    String.ofList
      ((Text.lines text).flatMap fun line =>
        Text.cutLine width line ++ ['\n'])

/-- What is printed for a request. -/
def output (files : Files) (width : Option Nat) (request : Request) :
    Except RequestError String :=
  match request.command with
  | .audit path => do
    let report ← request.auditReport files path
    return printed request.verbosity width report.text
  | _ => do
    let answer ← request.answer files
    return answer ++ "\n"

end Request

end StyleProbe
