/-!
# Options of the shell

The options that a shell is started with or sets for itself, each known by a name and most of them
by a letter too. Those that change nothing of what is modelled here are taken and forgotten.
-/

namespace Pagewright.Shell

/-- The options of a shell that are set, by their names. -/
structure Options where
  on : List String := []
  deriving DecidableEq, Repr

namespace Options

/-- The names of the options and the letters of those that have one, in the order in which they are
listed. -/
def known : List (String × Option Char) :=
  [("errexit", some 'e'), ("noglob", some 'f'), ("ignoreeof", some 'I'), ("interactive", some 'i'),
    ("monitor", some 'm'), ("noexec", some 'n'), ("stdin", some 's'), ("xtrace", some 'x'),
    ("verbose", some 'v'), ("vi", some 'V'), ("emacs", some 'E'), ("noclobber", some 'C'),
    ("allexport", some 'a'), ("notify", some 'b'), ("nounset", some 'u'), ("privileged", some 'p'),
    ("nolog", none), ("debug", none)]

def set (o : Options) (name : String) (on : Bool) : Options :=
  ⟨if on then name :: o.on else o.on.filter (· != name)⟩

def named? (letter : Char) : Option String :=
  (known.find? (·.2 == some letter)).map Prod.fst

/-- The letters of the options that are set, the last option first. -/
def letters (o : Options) : String :=
  String.ofList (known.reverse.filterMap fun (name, letter) =>
    if o.on.contains name then letter else none)

def endsOnFailure (o : Options) : Bool := o.on.contains "errexit"

def keepsPatterns (o : Options) : Bool := o.on.contains "noglob"

def onlyReads (o : Options) : Bool := o.on.contains "noexec"

def readsInput (o : Options) : Bool := o.on.contains "stdin"

def traces (o : Options) : Bool := o.on.contains "xtrace"

def showsLines (o : Options) : Bool := o.on.contains "verbose"

def needsValues (o : Options) : Bool := o.on.contains "nounset"

def keepsFiles (o : Options) : Bool := o.on.contains "noclobber"

def exportsAll (o : Options) : Bool := o.on.contains "allexport"

/-- All options with their states: as a table, or as the commands that set them so. -/
def listing (o : Options) (asTable : Bool) : String :=
  let lines := known.map fun (name, _) =>
    let isOn := o.on.contains name
    if asTable then
      name ++ String.ofList (List.replicate (16 - name.length) ' ') ++
        (if isOn then "on" else "off")
    else "set " ++ (if isOn then "-o " else "+o ") ++ name
  String.join (((if asTable then ["Current option settings"] else []) ++ lines).map (· ++ "\n"))

end Options

/-- Options that are read from arguments. -/
structure OptionArguments where
  options : Options
  others : List Char := []
  listing : String := ""
  /-- The arguments after the options, if they end in a sign or in an argument. -/
  operands : Option (List String) := none
  deriving DecidableEq, Repr

namespace OptionArguments

/-- Sets what the letters behind a sign stand for, apart from `o`; those in `others` are only noted.
A letter that is none is given back as it is refused. -/
def setLetters (others : List Char) (on : Bool) (told : OptionArguments) :
    List Char → Except String OptionArguments
  | [] => .ok told
  | c :: cs =>
    if c = 'o' then setLetters others on told cs
    else if others.contains c then setLetters others on { told with others := c :: told.others } cs
    else
      match Options.named? c with
      | some name => setLetters others on { told with options := told.options.set name on } cs
      | none => .error ("-" ++ String.singleton c)

/-- Reads the options in front of arguments: groups of letters behind a sign. For each `o` an option
is given by its name after the group; `names` of them are still to come, and without one all options
are listed. -/
def readFrom (others : List Char) (on : Bool) : (names : Nat) → OptionArguments → List String →
    Except String OptionArguments
  | names, told, [] =>
    .ok { told with
      listing := told.listing ++ String.join (List.replicate names (told.options.listing on)) }
  | names + 1, told, name :: rest =>
    if Options.known.any (·.1 == name) then
      readFrom others on names { told with options := told.options.set name on } rest
    else .error ("-o " ++ name)
  | 0, told, a :: rest =>
    match a.toList with
    | ['-'] => .ok { told with operands := if rest.isEmpty then none else some rest }
    | ['-', '-'] => .ok { told with operands := some rest }
    | '-' :: cs => do
      readFrom others true (cs.count 'o') (← setLetters others true told cs) rest
    | '+' :: cs => do
      readFrom others false (cs.count 'o') (← setLetters others false told cs) rest
    | _ => .ok { told with operands := some (a :: rest) }

def read (others : List Char) (options : Options) (args : List String) :
    Except String OptionArguments :=
  readFrom others true 0 { options } args

end OptionArguments

end Pagewright.Shell
