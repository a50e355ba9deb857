/-!
# Arguments of the command line

`parse` reads what a run is asked to do. Options may stand anywhere before `--`; after it everything
is an operand. An option with a value takes it from the same argument or from the next one, which
may not look like an option. No option with a value is given twice, and of the flags only `-v` may
be repeated. `--verify` and `--published` need `--output`, which `--inspect` excludes; where it
does, the need is dropped.
-/

namespace Pagewright.CommandLine

inductive ListingFormat where
  | json
  | tree
  deriving DecidableEq, Repr

/-- What a run is asked to do with a document. -/
structure Invocation where
  document : String
  output : Option String := none
  verify : Bool := false
  published : Bool := false
  /-- The components are listed and nothing is written. -/
  inspect : Option ListingFormat := none
  config : Option String := none
  verbosity : Nat := 0
  deriving DecidableEq, Repr

inductive Request where
  | help
  | version
  | run (i : Invocation)
  deriving DecidableEq, Repr

/-- Why the arguments are refused. -/
inductive UsageError where
  | unknownOption (option : String)
  | missingValue (option : String)
  | unexpectedValue (option : String)
  | repeatedOption (option : String)
  | unexpectedOperand (operand : String)
  | missingDocument
  /-- A flag needs an output. -/
  | missingOutput (option : String)
  /-- There is an output although nothing is written. -/
  | outputWithInspect
  | unknownFormat (format : String)
  deriving DecidableEq, Repr

def UsageError.message : UsageError → String
  | .unknownOption option => "unknown option " ++ option
  | .missingValue option => "option " ++ option ++ " needs a value"
  | .unexpectedValue option => "option " ++ option ++ " takes no value"
  | .repeatedOption option => "option " ++ option ++ " is given more than once"
  | .unexpectedOperand operand => "unexpected operand " ++ operand
  | .missingDocument => "no document is given"
  | .missingOutput option => "option " ++ option ++ " needs --output"
  | .outputWithInspect => "options --output and --inspect exclude each other"
  | .unknownFormat format => "unknown format " ++ format

/-- What ends the reading of arguments early. -/
inductive Interruption where
  | request (r : Request)
  | refusal (e : UsageError)

inductive Valued where
  | output
  | inspect
  | config
  deriving DecidableEq, Repr

inductive Flag where
  | verify
  | published
  | verbose
  | help
  | version
  deriving DecidableEq, Repr

inductive OptionKind where
  | valued (o : Valued)
  | flag (f : Flag)
  deriving DecidableEq, Repr

def longOption? : String → Option OptionKind
  | "output" => some (.valued .output)
  | "inspect" => some (.valued .inspect)
  | "config" => some (.valued .config)
  | "verify" => some (.flag .verify)
  | "published" => some (.flag .published)
  | "verbose" => some (.flag .verbose)
  | "help" => some (.flag .help)
  | "version" => some (.flag .version)
  | _ => none

def shortOption? : Char → Option OptionKind
  | 'o' => some (.valued .output)
  | 'c' => some (.valued .config)
  | 'v' => some (.flag .verbose)
  | 'h' => some (.flag .help)
  | 'V' => some (.flag .version)
  | _ => none

/-- What has been read so far. -/
structure Draft where
  document : Option String := none
  output : Option String := none
  verify : Bool := false
  published : Bool := false
  inspect : Option ListingFormat := none
  config : Option String := none
  verbosity : Nat := 0

def looksLikeOption (a : String) : Bool :=
  match a.toList with
  | '-' :: _ :: _ => true
  | _ => false

def ListingFormat.ofName? : String → Option ListingFormat
  | "json" => some .json
  | "tree" => some .tree
  | _ => none

namespace Draft

/-- Reads an operand. -/
def addOperand (d : Draft) (a : String) : Except Interruption Draft :=
  match d.document with
  | none => .ok { d with document := some a }
  | some _ => .error (.refusal (.unexpectedOperand a))

def addValue (d : Draft) (o : Valued) (name value : String) : Except Interruption Draft :=
  match o with
  | .output =>
    if d.output.isSome then .error (.refusal (.repeatedOption name))
    else .ok { d with output := some value }
  | .config =>
    if d.config.isSome then .error (.refusal (.repeatedOption name))
    else .ok { d with config := some value }
  | .inspect =>
    if d.inspect.isSome then .error (.refusal (.repeatedOption name))
    else
      match ListingFormat.ofName? value with
      | some format => .ok { d with inspect := some format }
      | none => .error (.refusal (.unknownFormat value))

def addFlag (d : Draft) (f : Flag) (name : String) : Except Interruption Draft :=
  match f with
  | .verify =>
    if d.verify then .error (.refusal (.repeatedOption name)) else .ok { d with verify := true }
  | .published =>
    if d.published then .error (.refusal (.repeatedOption name))
    else .ok { d with published := true }
  | .verbose => .ok { d with verbosity := d.verbosity + 1 }
  | .help => .error (.request .help)
  | .version => .error (.request .version)

/-- Reads the letters of an argument. The last of them may be an option whose value is the next
argument. -/
def addLetters (d : Draft) : List Char → Except Interruption (Draft × Option (Valued × String))
  | [] => .ok (d, none)
  | c :: cs =>
    let name := String.ofList ['-', c]
    match shortOption? c with
    | none => .error (.refusal (.unknownOption name))
    | some (.flag f) =>
      match d.addFlag f name with
      | .ok d => d.addLetters cs
      | .error e => .error e
    | some (.valued o) =>
      match cs with
      | [] => .ok (d, some (o, name))
      | '=' :: value => (d.addValue o name (String.ofList value)).map (·, none)
      | value => (d.addValue o name (String.ofList value)).map (·, none)

def addLong (d : Draft) (cs : List Char) : Except Interruption (Draft × Option (Valued × String)) :=
  let bare := String.ofList (cs.takeWhile (· != '='))
  let name := "--" ++ bare
  match longOption? bare, cs.dropWhile (· != '=') with
  | none, _ => .error (.refusal (.unknownOption name))
  | some (.flag f), [] => (d.addFlag f name).map (·, none)
  | some (.flag _), _ => .error (.refusal (.unexpectedValue name))
  | some (.valued o), [] => .ok (d, some (o, name))
  | some (.valued o), _ :: value => (d.addValue o name (String.ofList value)).map (·, none)

/-- Reads an argument: what it adds, and the option that waits for its value. -/
def addArgument (d : Draft) (a : String) :
    Except Interruption (Draft × Option (Valued × String)) :=
  match a.toList with
  | '-' :: '-' :: cs => d.addLong cs
  | '-' :: c :: cs => d.addLetters (c :: cs)
  | _ => (d.addOperand a).map (·, none)

/-- Reads arguments; `waiting` is an option whose value comes next. -/
def addAll (d : Draft) (waiting : Option (Valued × String)) :
    List String → Except Interruption Draft
  | [] =>
    match waiting with
    | none => .ok d
    | some (_, name) => .error (.refusal (.missingValue name))
  | a :: rest =>
    match waiting with
    | some (o, name) =>
      if looksLikeOption a then .error (.refusal (.missingValue name))
      else
        match d.addValue o name a with
        | .ok d => d.addAll none rest
        | .error e => .error e
    | none =>
      if a = "--" then rest.foldlM addOperand d
      else
        match d.addArgument a with
        | .ok (d, waiting) => d.addAll waiting rest
        | .error e => .error e

def finish (d : Draft) : Except UsageError Invocation :=
  match d.document with
  | none => .error .missingDocument
  | some document =>
    if d.inspect.isSome && d.output.isSome then .error .outputWithInspect
    else if d.verify && d.output.isNone && d.inspect.isNone then .error (.missingOutput "--verify")
    else if d.published && d.output.isNone && d.inspect.isNone then
      .error (.missingOutput "--published")
    else
      .ok {
        document
        output := d.output
        verify := d.verify
        published := d.published
        inspect := d.inspect
        config := d.config
        verbosity := d.verbosity }

end Draft

/-- What the arguments ask for. -/
def parse (args : List String) : Except UsageError Request :=
  match Draft.addAll {} none args with
  | .error (.request r) => .ok r
  | .error (.refusal e) => .error e
  | .ok d => d.finish.map .run

end Pagewright.CommandLine
