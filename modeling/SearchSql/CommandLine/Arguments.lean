/-!
The arguments of the command line.
-/

namespace SearchSql.CommandLine

/-- The form in which results are printed. -/
inductive Format
  | table
  | json
deriving DecidableEq

def Format.ofName? (s : String) : Option Format :=
  if s = "table" then some .table else if s = "json" then some .json else none

/-- The options that stand before a subcommand. -/
structure Flags where
  dryRun : Bool
  format : Option Format
  url : Option String
  config : Option String
  mapping : Bool
  verbose : Bool

/-- No option is given. -/
def Flags.none : Flags :=
  { dryRun := false, format := .none, url := .none, config := .none, mapping := false
    verbose := false }

/-- What the program is asked to do. -/
inductive Task
  | introduce
  | query (sql : String)
  | explain (sql : String)
  | fields (index : String)
  | showSyntax

structure Invocation where
  flags : Flags
  task : Task

/-- Why the arguments do not start a run. -/
inductive Stop
  | help
  | version
  | wrong
deriving DecidableEq

/-- An option as it is recognised, before its value is read. -/
inductive Switch
  | dryRun
  | mapping
  | verbose
  | format
  | url
  | config
  | help
  | version
deriving DecidableEq

namespace Switch

def ofLong? (name : String) : Option Switch :=
  match name with
  | "dry-run" => some .dryRun
  | "mapping" => some .mapping
  | "verbose" => some .verbose
  | "format" => some .format
  | "url" => some .url
  | "config" => some .config
  | "help" => some .help
  | "version" => some .version
  | _ => none

def ofShort? (c : Char) : Option Switch :=
  match c with
  | 'd' => some .dryRun
  | 'm' => some .mapping
  | 'v' => some .verbose
  | 'f' => some .format
  | 'c' => some .config
  | 'h' => some .help
  | 'V' => some .version
  | _ => none

def takesValue : Switch → Bool
  | .format | .url | .config => true
  | .dryRun | .mapping | .verbose | .help | .version => false

end Switch

/-- Sets a flag, which may be given once. -/
def Flags.set (flags : Flags) : Switch → Except Stop Flags
  | .dryRun => if flags.dryRun then .error .wrong else .ok { flags with dryRun := true }
  | .mapping => if flags.mapping then .error .wrong else .ok { flags with mapping := true }
  | .verbose => if flags.verbose then .error .wrong else .ok { flags with verbose := true }
  | .help => .error .help
  | .version => .error .version
  | .format | .url | .config => .error .wrong

/-- Sets an option with a value, which may be given once. A path is not empty. -/
def Flags.setValue (flags : Flags) (value : String) : Switch → Except Stop Flags
  | .format =>
    match flags.format, Format.ofName? value with
    | .none, some format => .ok { flags with format := some format }
    | _, _ => .error .wrong
  | .url => if flags.url.isSome then .error .wrong else .ok { flags with url := some value }
  | .config =>
    if flags.config.isSome || value.isEmpty then .error .wrong
    else .ok { flags with config := some value }
  | .dryRun | .mapping | .verbose | .help | .version => .error .wrong

/-- What a word of the command line is. -/
inductive Word
  | escape
  | long (name : String) (value : Option String)
  | short (letters : List Char)
  | plain (text : String)

/-- A lone hyphen is a plain word. -/
def Word.ofText (s : String) : Word :=
  match s.toList with
  | ['-', '-'] => .escape
  | '-' :: '-' :: name =>
    match name.dropWhile (· != '=') with
    | [] => .long (String.ofList name) none
    | _ :: value => .long (String.ofList (name.takeWhile (· != '='))) (some (String.ofList value))
  | '-' :: c :: letters => .short (c :: letters)
  | _ => .plain s

/-- The effect of letters behind one hyphen: the flags, and the option that still needs its
value. -/
def shortSwitches (flags : Flags) : List Char → Except Stop (Flags × Option Switch)
  | [] => .ok (flags, none)
  | c :: rest =>
    match Switch.ofShort? c with
    | none => .error .wrong
    | some switch =>
      if switch.takesValue then
        match rest with
        | [] => .ok (flags, some switch)
        | '=' :: value => (flags.setValue (String.ofList value) switch).map (·, none)
        | value => (flags.setValue (String.ofList value) switch).map (·, none)
      else do shortSwitches (← flags.set switch) rest

/-- The effect of an option with a long name. -/
def longSwitch (flags : Flags) (name : String) (value : Option String) :
    Except Stop (Flags × Option Switch) :=
  match Switch.ofLong? name, value with
  | none, _ => .error .wrong
  | some switch, some value =>
    if switch.takesValue then (flags.setValue value switch).map (·, none) else .error .wrong
  | some switch, none =>
    if switch.takesValue then .ok (flags, some switch) else (flags.set switch).map (·, none)

/-- The one argument of a subcommand. It knows no option but the request for help. -/
def onlyArgument : (escaped : Bool) → (found : Option String) → List String → Except Stop String
  | _, some s, [] => .ok s
  | _, none, [] => .error .wrong
  | escaped, found, word :: rest =>
    let take : Except Stop String :=
      if found.isSome then .error .wrong else onlyArgument escaped (some word) rest
    if escaped then take
    else match Word.ofText word with
      | .escape => onlyArgument true found rest
      | .long "help" none | .short ('h' :: _) => .error .help
      | .long _ _ | .short _ => .error .wrong
      | .plain _ => take

/-- A subcommand without arguments. -/
def noArgument : List String → Except Stop Unit
  | [] => .ok ()
  | word :: rest =>
    match Word.ofText word with
    | .escape => if rest.isEmpty then .ok () else .error .wrong
    | .long "help" none | .short ('h' :: _) => .error .help
    | _ => .error .wrong

/-- The words that may follow a request for help: none, or the name of one subcommand. -/
def helpTopic : List String → Stop
  | [] => .help
  | [word] => if word ∈ ["explain", "fields", "syntax", "help"] then .help else .wrong
  | _ => .wrong

/-- The task of a subcommand with the words after it; none if the word is no subcommand. -/
def subcommand? (word : String) (rest : List String) : Option (Except Stop Task) :=
  match word with
  | "explain" => some ((onlyArgument false none rest).map .explain)
  | "fields" => some ((onlyArgument false none rest).map .fields)
  | "syntax" => some ((noArgument rest).map fun _ => .showSyntax)
  | "help" => some (.error (helpTopic rest))
  | _ => none

/-- Whether the word may be the value of an option: it does not look like an option itself. -/
def isValue (word : String) : Bool :=
  match Word.ofText word with
  | .plain _ => true
  | .escape | .long _ _ | .short _ => false

/-- The query of the words behind `--`. -/
def escapedQuery (query : Option String) : List String → Except Stop (Option String)
  | [] => .ok query
  | [word] => if query.isSome then .error .wrong else .ok (some word)
  | _ => .error .wrong

/-- Reads the words from left to right. An option without its value waits for it in `pending`. -/
def readWords (flags : Flags) (query : Option String) (pending : Option Switch) :
    List String → Except Stop Invocation
  | [] =>
    if pending.isSome then .error .wrong
    else .ok { flags, task := match query with
      | some sql => .query sql
      | none => .introduce }
  | word :: rest =>
    match pending with
    | some switch =>
      if isValue word then do readWords (← flags.setValue word switch) query none rest
      else .error .wrong
    | none =>
      match Word.ofText word with
      | .escape => do
        match ← escapedQuery query rest with
        | some sql => .ok { flags, task := .query sql }
        | none => .ok { flags, task := .introduce }
      | .long name value => do
        let (flags, pending) ← longSwitch flags name value
        readWords flags query pending rest
      | .short letters => do
        let (flags, pending) ← shortSwitches flags letters
        readWords flags query pending rest
      | .plain _ =>
        match subcommand? word rest with
        | some task => task.map fun task => { flags, task }
        | none => if query.isSome then .error .wrong else readWords flags (some word) none rest

/-- Reads the arguments of a run. -/
def Invocation.ofArguments (args : List String) : Except Stop Invocation :=
  readWords .none none none args

end SearchSql.CommandLine
