import ExprLang.Analysis
import ExprLang.CommandLine.Options
import ExprLang.Json.Printer
import ExprLang.Tree.Json

/-!
# The command line

What the program writes and with which code it ends, given its arguments and a way
to read files.
-/

namespace ExprLang.CommandLine

inductive FileError where
  | notFound
  | isDirectory
  | notDirectory
  | notText
  | other (message : String)
  deriving DecidableEq, Repr

namespace FileError

def message : FileError → String
  | .notFound => "No such file or directory (os error 2)"
  | .isDirectory => "Is a directory (os error 21)"
  | .notDirectory => "Not a directory (os error 20)"
  | .notText => "stream did not contain valid UTF-8"
  | .other message => message

end FileError

structure Outcome where
  code : Nat
  stdout : String
  stderr : String
  deriving DecidableEq, Repr

namespace Outcome

def success (text : String) : Outcome := ⟨0, text, ""⟩

def failure (message : String) : Outcome := ⟨1, "", message ++ "\n"⟩

def usage (error : UsageError) : Outcome := ⟨2, "", error.message ++ "\n"⟩

end Outcome

def unlines (lines : List String) : String := String.join (lines.map (· ++ "\n"))

def versionText : String := "bang 0.1.0\n"

def helpText : String := unlines [
  "Front end for the bang language: tokens, AST and types",
  "",
  "Usage: bang [OPTIONS] <FILE>",
  "",
  "Arguments:",
  "  [FILE]  Source file",
  "",
  "Options:",
  "  -e, --eval <EVAL>      Program text given inline",
  "      --dump-tokens      Print KIND:text:line for every token and stop",
  "      --dump-ast         Print the parsed, untyped AST as JSON and stop",
  "      --dump-typed-ast   Print the validated AST as JSON",
  "      --format <FORMAT>  Output format for the binding summary [default: text] [possible values: text, json]",
  "  -v, --verbose          Debug logging",
  "  -h, --help             Print help",
  "  -V, --version          Print version"]

/-! ## Output -/

def bindingsText (bindings : List (String × Ty)) : String :=
  unlines (bindings.map fun binding => binding.1 ++ " : " ++ binding.2.render)

def bindingsJson (bindings : List (String × Ty)) : Json :=
  .array (bindings.map fun binding =>
    .object [("name", .string binding.1), ("type", .string binding.2.render)])

/-- What the options ask for of a program text: its tokens, its tree, its typed tree
or its bindings. -/
def process (options : Options) (text : String) : Outcome :=
  if options.has .dumpTokens then
    .success (unlines ((tokenize text).map Token.listing))
  else if options.has .dumpTree then
    match Program.ofString text with
    | .ok program => .success (program.toJson.print ++ "\n")
    | .error error => .failure error.message
  else
    match Analysis.ofString text with
    | .error error => .failure error.message
    | .ok analysis =>
        if options.has .dumpTypedTree then
          .success (analysis.program.toJson.print ++ "\n")
        else
          match options.format?.getD .text with
          | .text => .success (bindingsText analysis.bindings)
          | .json => .success ((bindingsJson analysis.bindings).print ++ "\n")

def source (options : Options) (read : String → Except FileError String) :
    Except String String :=
  match options.eval?, options.file? with
  | some text, _ => .ok text
  | none, some name =>
      match read name with
      | .ok text => .ok text
      | .error error =>
          .error ("error: cannot read " ++ name ++ ": " ++ error.message)
  | none, none => .error "error: no input given"

def perform (read : String → Except FileError String) : Request → Outcome
  | .help => .success helpText
  | .version => .success versionText
  | .run options =>
      match source options read with
      | .ok text => process options text
      | .error message => .failure message

def run (arguments : List String) (read : String → Except FileError String) :
    Outcome :=
  match Request.ofArguments arguments with
  | .error error => .usage error
  | .ok request => perform read request

end ExprLang.CommandLine
