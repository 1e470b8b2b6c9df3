import StyleProbe.Request

/-!
# The command line

Reads the words of a command line as a request. A command comes with its
words; options can stand before and after the command, and where both set
one, the later place wins. The value of a property may look like an option:
where a value is due, an unknown option is taken for it.
-/

namespace StyleProbe.CommandLine

/-- The commands by name. -/
inductive Verb where
  | key
  | value
  | resolve
  | audit
  | profiles
deriving DecidableEq

namespace Verb

def ofName? : String → Option Verb
  | "key" => some key
  | "value" => some value
  | "resolve" => some resolve
  | "audit" => some audit
  | "profiles" => some profiles
  | _ => none

/-- How many words the command takes. -/
def arity : Verb → Nat
  | key => 1
  | value => 2
  | resolve => 2
  | audit => 1
  | profiles => 0

/-- Whether the word at the place may look like an option. -/
def takesHyphens (verb : Verb) (place : Nat) : Bool :=
  (verb == value || verb == resolve) && place == 1

/-- Whether the command takes the word at all. The path of a style sheet is
not empty. -/
def takes (verb : Verb) (word : String) : Bool :=
  verb != audit || word != ""

/-- The command with its words, if it has as many as it takes. -/
def command? : Verb → List String → Option Command
  | key, [property] => some (.key property)
  | value, [property, v] => some (.value property v)
  | resolve, [property, v] => some (.resolve property v)
  | audit, [path] => some (.audit path)
  | profiles, [] => some .profiles
  | _, _ => none

end Verb

/-- The options that take a value. -/
inductive OptionName where
  | profile
  | profileFile
  | strategy
  | verbose
deriving DecidableEq

/-- The options that were set in one place. -/
structure Options where
  profile : Option String := none
  profileFile : Option String := none
  strategy : Option Strategy := none
  verbosity : Option Verbosity := none

namespace Options

/-- Sets an option that was not set yet; its value has to be one that the
option takes. -/
def set? (options : Options) (name : OptionName) (value : String) :
    Option Options :=
  match name with
  | .profile =>
    if options.profile.isSome then none
    else some { options with profile := some value }
  | .profileFile =>
    if options.profileFile.isSome || value == "" then none
    else some { options with profileFile := some value }
  | .strategy =>
    if options.strategy.isSome then none
    else
      (Strategy.all.find? (·.text == value)).map fun strategy =>
        { options with strategy := some strategy }
  | .verbose =>
    if options.verbosity.isSome then none
    else
      (Verbosity.all.find? (·.text == value)).map fun verbosity =>
        { options with verbosity := some verbosity }

/-- Whether the options name a profile in two ways. -/
def conflict (options : Options) : Bool :=
  options.profile.isSome && options.profileFile.isSome

/-- The options of two places; the later place wins. -/
def orElse (later earlier : Options) : Options where
  profile := later.profile.or earlier.profile
  profileFile := later.profileFile.or earlier.profileFile
  strategy := later.strategy.or earlier.strategy
  verbosity := later.verbosity.or earlier.verbosity

/-- The profile that the options choose; a file goes before a name. -/
def choice (options : Options) : ProfileChoice :=
  match options.profileFile, options.profile with
  | some path, _ => .file path
  | none, some name => .builtin name
  | none, none => .default

/-- The request for a command under the options. -/
def request (options : Options) (command : Command) : Request where
  profile := options.choice
  strategy := options.strategy.getD .default
  command
  verbosity := options.verbosity.getD .quiet

end Options

/-- Why there is no request to answer. -/
inductive Stop where
  | help
  | version
  | misuse
deriving DecidableEq

/-! ## Single words -/

/-- What a word is by its looks. -/
inductive Word where
  | plain
  | endOfOptions
  | help
  | version
  | option (name : OptionName) (attached : Option String)
  | unknownLong
  | unknownShort
  /-- A known option with a value that it does not take. -/
  | malformed

/-- Splits a text at its first equals sign. -/
def splitValue (cs : List Char) : String × Option String :=
  (String.ofList (cs.takeWhile (· != '=')),
    match cs.dropWhile (· != '=') with
    | [] => none
    | _ :: value => some (String.ofList value))

/-- A word after two hyphens. `--version` is known before the command
only. -/
def longWord (beforeCommand : Bool) (cs : List Char) : Word :=
  match splitValue cs with
  | ("profile", attached) => .option .profile attached
  | ("profile-file", attached) => .option .profileFile attached
  | ("strategy", attached) => .option .strategy attached
  | ("verbose", attached) => .option .verbose attached
  | ("help", none) => .help
  | ("help", some _) => .malformed
  | ("version", attached) =>
    if !beforeCommand then .unknownLong
    else if attached.isNone then .version
    else .malformed
  | _ => .unknownLong

/-- A word after one hyphen. What follows `v` is its value. -/
def shortWord (beforeCommand : Bool) : List Char → Word
  | ['v'] => .option .verbose none
  | 'v' :: '=' :: value => .option .verbose (some (String.ofList value))
  | 'v' :: value => .option .verbose (some (String.ofList value))
  | 'h' :: _ => .help
  | 'V' :: _ => if beforeCommand then .version else .unknownShort
  | _ => .unknownShort

/-- What a word is by its looks. A hyphen alone is an ordinary word. -/
def Word.ofString (beforeCommand : Bool) (word : String) : Word :=
  match word.toList with
  | ['-', '-'] => .endOfOptions
  | '-' :: '-' :: long => longWord beforeCommand long
  | ['-'] => .plain
  | '-' :: short => shortWord beforeCommand short
  | _ => .plain

/-- Whether a word is to be read as an option where a value is due: known
long options are, and one hyphen with letters of known options only. -/
def optionWhereValueIsDue (word : String) : Bool :=
  match word.toList with
  | ['-'] => false
  | '-' :: '-' :: long =>
    match longWord false long with
    | .unknownLong => false
    | _ => true
  | '-' :: short => short.all fun c => c == 'v' || c == 'h'
  | _ => false

/-! ## All words -/

/-- The ways in which a word can be used. -/
inductive Use where
  | word
  | endOfOptions
  | option (name : OptionName) (attached : Option String)
  | stop (stop : Stop)

/-- How a word is used; `hyphens` tells that a word that looks like an option
is due. -/
def use (beforeCommand hyphens : Bool) (word : String) : Use :=
  match Word.ofString beforeCommand word with
  | .plain => .word
  | .endOfOptions => .endOfOptions
  | looks =>
    if hyphens && !optionWhereValueIsDue word then .word
    else
      match looks with
      | .option name attached => .option name attached
      | .help => .stop .help
      | .version => .stop .version
      | _ => .stop .misuse

/-- Reads the words after a command. `words` are those that the command has
already, `pending` is an option that waits for its value, and `rest` tells
that there are no more options. Words and values are refused where they
stand, even if help is asked for after them. -/
def afterVerb (verb : Verb) (rest : Bool) (pending : Option OptionName)
    (options : Options) (words : List String) :
    List String → Except Stop (Options × List String)
  | [] => if pending.isSome then .error .misuse else .ok (options, words)
  | next :: more =>
    let used :=
      if rest then Use.word
      else use false (verb.takesHyphens words.length) next
    match used, pending with
    | .word, some name =>
      match options.set? name next with
      | some options => afterVerb verb rest none options words more
      | none => .error .misuse
    | .word, none =>
      if words.length < verb.arity && verb.takes next then
        afterVerb verb rest none options (words ++ [next]) more
      else .error .misuse
    | _, some _ => .error .misuse
    | .endOfOptions, none => afterVerb verb true none options words more
    | .option name none, none =>
      afterVerb verb rest (some name) options words more
    | .option name (some value), none =>
      match options.set? name value with
      | some options => afterVerb verb rest none options words more
      | none => .error .misuse
    | .stop stop, none => .error stop

/-- Reads the words of a command and those after it, under the options
before it. -/
def withVerb (earlier : Options) (verb : Verb) (args : List String) :
    Except Stop Request := do
  let (later, words) ← afterVerb verb false none {} [] args
  match verb.command? words with
  | none => throw .misuse
  | some command =>
    if later.conflict || earlier.conflict then throw .misuse
    else return (later.orElse earlier).request command

/-- Whether there is help on what the words name: on nothing in particular,
on one command, or on help itself. -/
def isHelpTopic : List String → Bool
  | [] => true
  | [topic] => topic == "help" || (Verb.ofName? topic).isSome
  | _ => false

/-- Reads the words up to the command, and the command. All words after
`help` are its topic, even those that look like options. -/
def beforeVerb (pending : Option OptionName) (options : Options) :
    List String → Except Stop Request
  | [] => .error .misuse
  | next :: more =>
    match use true false next, pending with
    | .word, some name =>
      match options.set? name next with
      | some options => beforeVerb none options more
      | none => .error .misuse
    | .word, none =>
      match Verb.ofName? next with
      | some verb => withVerb options verb more
      | none =>
        .error (if next = "help" && isHelpTopic more then .help else .misuse)
    | .option name none, none => beforeVerb (some name) options more
    | .option name (some value), none =>
      match options.set? name value with
      | some options => beforeVerb none options more
      | none => .error .misuse
    | .stop stop, none => .error stop
    | _, _ => .error .misuse

/-- The request that the words of a command line make. -/
def parse (args : List String) : Except Stop Request :=
  beforeVerb none {} args

/-! ## Running -/

/-- What a run of the program shows: its exit status, what it prints, and
the error it reports. -/
structure Outcome where
  status : Nat
  printed : String
  error : Option String

/-- How the program is used. -/
def usage : String :=
  "Find the vendor-prefixed CSS an environment honors\n\n" ++
  "Commands:\n" ++
  "  key PROPERTY            Resolve a property name\n" ++
  "  value PROPERTY VALUE    Resolve a value for a property\n" ++
  "  resolve PROPERTY VALUE  Resolve the name, falling back to the value\n" ++
  "  audit CSS_FILE          Resolve every declaration in a stylesheet\n" ++
  "  profiles                List the built-in profiles\n\n" ++
  "Options:\n" ++
  "  --profile NAME       Built-in profile to probe [default: modern]\n" ++
  "  --profile-file PATH  TOML profile to probe\n" ++
  "  --strategy STRATEGY  last-write-wins or isolated\n" ++
  "  -v, --verbose LEVEL  quiet, normal or verbose\n" ++
  "  -h, --help           Print this text\n" ++
  "  -V, --version        Print the version\n"

/-- The width of a terminal of so many columns, if that is a width. -/
def widthOfColumns (columns : Nat) : Option Nat :=
  if columns = 0 then none else some columns

/-- Runs the program. Misuse is told apart from a request that fails by the
exit status. -/
def run (files : Files) (width : Option Nat) (args : List String) :
    Outcome :=
  match parse args with
  | .error .help => ⟨0, usage, none⟩
  | .error .version => ⟨0, "0.1.0\n", none⟩
  | .error .misuse => ⟨2, "", none⟩
  | .ok request =>
    match request.output files width with
    | .ok text => ⟨0, text, none⟩
    | .error cause => ⟨1, "", some cause.message⟩

end StyleProbe.CommandLine
