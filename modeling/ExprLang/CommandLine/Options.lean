/-!
# Command-line options

Arguments are read from left to right, and the first fault or the first request for
help or for the version decides.  An option that takes a value has it attached or as
the next argument; short options may be joined.  After `--` every argument is a
file.
-/

namespace ExprLang.CommandLine

inductive Format where
  | text
  | json
  deriving DecidableEq, Repr

namespace Format

def ofName? (name : String) : Option Format :=
  if name = "text" then some .text else if name = "json" then some .json else none

end Format

inductive Switch where
  | eval
  | dumpTokens
  | dumpTree
  | dumpTypedTree
  | format
  | verbose
  | help
  | version
  deriving DecidableEq, Repr

namespace Switch

def takesValue : Switch → Bool
  | .eval | .format => true
  | _ => false

def ofLong? (name : String) : Option Switch :=
  if name = "eval" then some .eval
  else if name = "dump-tokens" then some .dumpTokens
  else if name = "dump-ast" then some .dumpTree
  else if name = "dump-typed-ast" then some .dumpTypedTree
  else if name = "format" then some .format
  else if name = "verbose" then some .verbose
  else if name = "help" then some .help
  else if name = "version" then some .version
  else none

def ofShort? (letter : Char) : Option Switch :=
  if letter = 'e' then some .eval
  else if letter = 'v' then some .verbose
  else if letter = 'h' then some .help
  else if letter = 'V' then some .version
  else none

end Switch

inductive UsageError where
  | unknownOption (argument : String)
  | missingValue
  | unexpectedValue (argument : String)
  | repeated
  | unknownFormat (name : String)
  | emptyFileName
  | severalFiles
  | fileAndText
  | noInput
  deriving DecidableEq, Repr

namespace UsageError

def message : UsageError → String
  | .unknownOption argument =>
      "error: unexpected argument '" ++ argument ++ "' found"
  | .missingValue =>
      "error: a value is required for an option but none was supplied"
  | .unexpectedValue argument => "error: unexpected value in '" ++ argument ++ "'"
  | .repeated => "error: an option cannot be used multiple times"
  | .unknownFormat name =>
      "error: invalid value '" ++ name ++ "' for '--format <FORMAT>'"
  | .emptyFileName =>
      "error: a value is required for '[FILE]' but none was supplied"
  | .severalFiles => "error: only one FILE can be given"
  | .fileAndText =>
      "error: the argument '[FILE]' cannot be used with '--eval <EVAL>'"
  | .noInput => "error: neither FILE nor --eval was given"

end UsageError

structure Options where
  file? : Option String
  eval? : Option String
  format? : Option Format
  switches : List Switch
  deriving DecidableEq, Repr

namespace Options

def initial : Options := ⟨none, none, none, []⟩

def has (options : Options) (switch : Switch) : Bool :=
  options.switches.contains switch

def addFile (options : Options) (name : String) : Except UsageError Options :=
  if options.file?.isSome then .error .severalFiles
  else if name.isEmpty then .error .emptyFileName
  else .ok { options with file? := some name }

def addSwitch (options : Options) (switch : Switch) : Except UsageError Options :=
  if options.has switch then .error .repeated
  else .ok { options with switches := switch :: options.switches }

def addValue (options : Options) (switch : Switch) (value : String) :
    Except UsageError Options :=
  if switch = .format then
    match options.format?, Format.ofName? value with
    | some _, _ => .error .repeated
    | none, some format => .ok { options with format? := some format }
    | none, none => .error (.unknownFormat value)
  else
    match options.eval? with
    | some _ => .error .repeated
    | none => .ok { options with eval? := some value }

end Options

/-! ## Reading arguments -/

inductive Request where
  | help
  | version
  | run (options : Options)
  deriving DecidableEq, Repr

inductive Progress where
  | reading (options : Options)
  | awaiting (options : Options) (switch : Switch)
  | decided (request : Request)
  deriving DecidableEq, Repr

def looksLikeOption (argument : String) : Bool :=
  argument.toList.head? = some '-' && argument ≠ "-"

def plain (options : Options) (switch : Switch) : Except UsageError Progress :=
  match switch with
  | .help => .ok (.decided .help)
  | .version => .ok (.decided .version)
  | _ => (options.addSwitch switch).map .reading

def longOption (options : Options) (argument : String) :
    Except UsageError Progress :=
  let body := argument.toList.drop 2
  let name := body.takeWhile (· ≠ '=')
  let value? :=
    match body.drop name.length with
    | [] => none
    | _ :: value => some (String.ofList value)
  match Switch.ofLong? (String.ofList name), value? with
  | none, _ => .error (.unknownOption argument)
  | some switch, some value =>
      if switch.takesValue then (options.addValue switch value).map .reading
      else .error (.unexpectedValue argument)
  | some switch, none =>
      if switch.takesValue then .ok (.awaiting options switch)
      else plain options switch

/-- Joined short options; what follows an option with a value is its value. -/
def shortOptions (options : Options) : List Char → Except UsageError Progress
  | [] => .ok (.reading options)
  | letter :: letters =>
      match Switch.ofShort? letter with
      | none => .error (.unknownOption (String.ofList ['-', letter]))
      | some switch =>
          if switch.takesValue then
            match letters with
            | [] => .ok (.awaiting options switch)
            | '=' :: value =>
                (options.addValue switch (String.ofList value)).map .reading
            | value => (options.addValue switch (String.ofList value)).map .reading
          else
            match plain options switch with
            | .ok (.reading options) => shortOptions options letters
            | outcome => outcome

def finish (options : Options) : Except UsageError Request :=
  match options.file?, options.eval? with
  | some _, some _ => .error .fileAndText
  | none, none => .error .noInput
  | _, _ => .ok (.run options)

def files (options : Options) : List String → Except UsageError Request
  | [] => finish options
  | name :: names => do files (← options.addFile name) names

def requestFrom (progress : Progress) (arguments : List String) :
    Except UsageError Request :=
  match progress, arguments with
  | .decided request, _ => .ok request
  | .reading options, [] => finish options
  | .awaiting _ _, [] => .error .missingValue
  | .awaiting options switch, argument :: arguments =>
      if looksLikeOption argument then .error .missingValue
      else do requestFrom (.reading (← options.addValue switch argument)) arguments
  | .reading options, argument :: arguments =>
      if argument = "--" then files options arguments
      else if argument.startsWith "--" then do
        requestFrom (← longOption options argument) arguments
      else if looksLikeOption argument then do
        requestFrom (← shortOptions options (argument.toList.drop 1)) arguments
      else do requestFrom (.reading (← options.addFile argument)) arguments

def Request.ofArguments (arguments : List String) : Except UsageError Request :=
  requestFrom (.reading .initial) arguments

end ExprLang.CommandLine
