import Retrace.Number.Read
/-!
Arguments of a command line: options with and without values, and one file. Every argument is read
once, from the left, and the first mistake or request for help ends the reading.
-/
namespace Retrace

open Number

/-- An option: its name, the letter that may stand for it, what its value is called if it has one,
and what it is for. -/
structure Flag where
  long : String
  short : Option Char
  value : Option String
  about : String
  deriving DecidableEq, Repr

/-- The option that every command has. -/
def Flag.help : Flag := ⟨"help", some 'h', none, "Print help"⟩

/-- Why the reading of arguments ends early. -/
inductive Stop where
  | help
  | mistake
  deriving DecidableEq, Repr

/-- An argument by its form. A value may stand behind the name of an option, after an equals sign or,
where a letter is the name, also without it. After the divider there are only files. -/
inductive Argument where
  | divider
  | long (name : String) (value : Option String)
  | short (letter : Char) (value : Option String)
  | file (name : String)
  deriving DecidableEq, Repr

/-- What is given on a command line: the file, and the options with their values, which are
numbers. -/
structure Given where
  file : Option String
  options : List (String × Option Nat)
  deriving DecidableEq, Repr

namespace Argument

/-- Splits what follows two dashes at its first equals sign. -/
def ofLong (s : List Char) : Argument :=
  let name := String.ofList (s.takeWhile (· != '='))
  match s.dropWhile (· != '=') with
  | _ :: value => long name (some (String.ofList value))
  | [] => long name none

/-- What follows the letter of an option in the same argument. -/
def attached : List Char → Option String
  | [] => none
  | '=' :: value => some (String.ofList value)
  | value => some (String.ofList value)

/-- The form of an argument. A single dash is a file. -/
def ofString (s : String) : Argument :=
  match s.toList with
  | ['-', '-'] => divider
  | '-' :: '-' :: r => ofLong r
  | '-' :: c :: r => short c (attached r)
  | _ => file s

end Argument

namespace Given

def nothing : Given := ⟨none, []⟩

/-- Adds an option, which may be given only once. -/
def addOption (g : Given) (name : String) (value : Option Nat) : Except Stop Given :=
  if (g.options.lookup name).isSome then .error .mistake
  else .ok { g with options := g.options ++ [(name, value)] }

/-- Adds an option with its value, a natural number of sixty-four bits. -/
def addValue (g : Given) (name value : String) : Except Stop Given :=
  match readInt? 0 0xFFFFFFFFFFFFFFFF value.toList with
  | some n => g.addOption name (some n.toNat)
  | none => .error .mistake

/-- Adds a file. There is one file only, and it has a name. -/
def addFile (g : Given) (name : String) : Except Stop Given :=
  if name.isEmpty ∨ g.file.isSome then .error .mistake else .ok { g with file := some name }

def value? (g : Given) (name : String) : Option Nat := (g.options.lookup name).join

def has (g : Given) (name : String) : Bool := (g.options.lookup name).isSome

/-- Adds an option that an argument names. The answer has the option too if its value is still to
come. -/
def take (g : Given) (flag : Flag) (value : Option String) :
    Except Stop (Given × Option Flag) :=
  match flag.value, value with
  | some _, some v => (g.addValue flag.long v).map (·, none)
  | some _, none => .ok (g, some flag)
  | none, some _ => .error .mistake
  | none, none =>
    if flag = .help then .error .help else (g.addOption flag.long none).map (·, none)

/-- Goes through the arguments, while the value of an option may be awaited. What looks like an
option is no value. -/
def scan (flags : List Flag) : Given → Option Flag → List String → Except Stop Given
  | g, none, [] => .ok g
  | _, some _, [] => .error .mistake
  | g, some flag, arg :: rest =>
    if Argument.ofString arg = .file arg then do
      let g ← g.addValue flag.long arg
      scan flags g none rest
    else .error .mistake
  | g, none, arg :: rest =>
    let named (flag? : Option Flag) (value : Option String) : Except Stop Given :=
      match flag? with
      | none => .error .mistake
      | some flag => do
        let (g, awaited) ← g.take flag value
        scan flags g awaited rest
    match Argument.ofString arg with
    | .divider => rest.foldlM addFile g
    | .long name value => named (flags.find? fun f => f.long == name) value
    | .short letter value =>
      let flag? := flags.find? fun f => f.short == some letter
      named flag? (if flag? = some .help then none else value)
    | .file name => do
      let g ← g.addFile name
      scan flags g none rest

/-- Reads the arguments of a command that has some options. -/
def read (flags : List Flag) (args : List String) : Except Stop Given :=
  scan (flags ++ [.help]) nothing none args

end Given

end Retrace
