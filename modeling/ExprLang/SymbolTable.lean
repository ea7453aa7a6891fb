import ExprLang.Ty.Basic

/-!
# Symbol tables

One global scope for a whole program and a stack of frames, one for each function
body that is being checked.  Global symbols take their indices from two counters,
one for functions and one for all other values; the symbols of a frame are numbered
from zero, arguments first.  Counters have 32 bits and wrap around.
-/

namespace ExprLang

structure Symbol where
  name : String
  type : Ty
  index : UInt32
  deriving Repr

/-! ## Scopes -/

/-- The symbols of a scope in the order in which their names were first defined. -/
abbrev Scope := List Symbol

namespace Scope

def find? (name : String) (scope : Scope) : Option Symbol :=
  List.find? (fun symbol => symbol.name = name) scope

def insert (symbol : Symbol) : Scope → Scope
  | [] => [symbol]
  | other :: scope =>
      if other.name = symbol.name then symbol :: scope
      else other :: insert symbol scope

end Scope

structure Frame where
  symbols : Scope
  nextIndex : UInt32
  deriving Repr

namespace Frame

def empty : Frame := ⟨[], 0⟩

/-- A name that is defined again keeps its index. -/
def define (frame : Frame) (name : String) (type : Ty) : Symbol × Frame :=
  match frame.symbols.find? name with
  | some existing =>
      let symbol := ⟨name, type, existing.index⟩
      (symbol, { frame with symbols := frame.symbols.insert symbol })
  | none =>
      let symbol := ⟨name, type, frame.nextIndex⟩
      (symbol, ⟨frame.symbols.insert symbol, frame.nextIndex + 1⟩)

def ofArguments (arguments : List (String × Ty)) : Frame :=
  arguments.foldl (fun frame argument =>
    (frame.define argument.1 argument.2).2) empty

end Frame

/-! ## The table -/

inductive Level where
  | global
  | frame
  deriving DecidableEq, Repr

structure SymbolTable where
  globals : Scope
  values : UInt32
  functions : UInt32
  /-- The innermost frame comes first. -/
  frames : List Frame
  deriving Repr

namespace SymbolTable

def empty : SymbolTable := ⟨[], 0, 0, []⟩

def depth (table : SymbolTable) : Nat := table.frames.length

/-- Looks in the innermost frame, then among the globals. -/
def resolve? (table : SymbolTable) (name : String) : Option (Symbol × Level) :=
  match table.frames.head?.bind (·.symbols.find? name) with
  | some symbol => some (symbol, .frame)
  | none => (table.globals.find? name).map (·, .global)

def defineGlobal (table : SymbolTable) (name : String) (type : Ty) :
    Symbol × SymbolTable :=
  match table.globals.find? name with
  | some existing =>
      let symbol := ⟨name, type, existing.index⟩
      (symbol, { table with globals := table.globals.insert symbol })
  | none =>
      if type.isFunction then
        let symbol := ⟨name, type, table.functions⟩
        (symbol, { table with
          globals := table.globals.insert symbol,
          functions := table.functions + 1 })
      else
        let symbol := ⟨name, type, table.values⟩
        (symbol, { table with
          globals := table.globals.insert symbol,
          values := table.values + 1 })

def define (table : SymbolTable) (name : String) (type : Ty) :
    Symbol × SymbolTable :=
  match table.frames with
  | [] => table.defineGlobal name type
  | frame :: frames =>
      let (symbol, frame) := frame.define name type
      (symbol, { table with frames := frame :: frames })

/-- Takes a function index for a function that has no name. -/
def reserve (table : SymbolTable) : UInt32 × SymbolTable :=
  (table.functions, { table with functions := table.functions + 1 })

def enter (table : SymbolTable) (arguments : List (String × Ty)) : SymbolTable :=
  { table with frames := Frame.ofArguments arguments :: table.frames }

def leave (table : SymbolTable) : SymbolTable :=
  { table with frames := table.frames.tail }

end SymbolTable

end ExprLang
