import TapeRing.Machine.Config

/-! # Arguments

The arguments of the command line and how they are read. Tokens are read from left to right. The
value of an option that is a token of its own is judged only when the next option, the next
positional or the end is reached, and so is the value of the positional; a token that cannot be
read at all is reported before that. -/

namespace TapeRing.CommandLine

/-- The arguments of a run. -/
structure Arguments where
  /-- The path of the program. -/
  program : Option String := none
  /-- The text of the program, instead of a path. -/
  eval : Option String := none
  processors : Nat := 1
  halt : HaltPolicy := .firstFinished
  jumpTable : Bool := false
  /-- The path of the file the final state is written to. -/
  dumpState : Option String := none
deriving DecidableEq, Repr

/-- What is wrong with a row of arguments, or that it asks for help. -/
inductive ArgumentFault
  | unknownArgument
  /-- A value is missing, empty, or none of those that are possible. -/
  | invalidValue
  /-- A value is not a number that fits. -/
  | valueValidation
  /-- An argument is given twice, or together with one that excludes it. -/
  | argumentConflict
  /-- A value is attached to a flag. -/
  | tooManyValues
  | displayHelp
deriving DecidableEq, Repr

/-- A token by its form. -/
inductive Token
  /-- Two dashes, after which every token is a positional. -/
  | separator
  /-- Two dashes and a name, with the value after the first equals sign. -/
  | long (name : String) (value : Option String)
  /-- A dash, a letter and what follows it. -/
  | short (letter : Char) (rest : List Char)
  /-- Any other text, a dash by itself included. -/
  | plain (text : String)
deriving DecidableEq, Repr

/-- The form of a token. -/
def Token.ofString (text : String) : Token :=
  match text.toList with
  | ['-', '-'] => .separator
  | '-' :: '-' :: body =>
      let name := body.takeWhile (· ≠ '=')
      match body.dropWhile (· ≠ '=') with
      | [] => .long (String.ofList name) none
      | _ :: value => .long (String.ofList name) (some (String.ofList value))
  | '-' :: letter :: rest => .short letter rest
  | _ => .plain text

/-- An argument that has a value. -/
inductive Slot
  | program
  | eval
  | processors
  | halt
  | dumpState
deriving DecidableEq, Repr

/-- What an option is for. -/
inductive Role
  | takes (slot : Slot)
  | jumpTable
  | help
deriving DecidableEq, Repr

/-- What the option with a long name is for. -/
def Role.ofName? : String → Option Role
  | "eval" => some (.takes .eval)
  | "processors" => some (.takes .processors)
  | "halt" => some (.takes .halt)
  | "jump-table" => some .jumpTable
  | "dump-state" => some (.takes .dumpState)
  | "help" => some .help
  | _ => none

/-- What the option with a letter is for. -/
def Role.ofLetter? : Char → Option Role
  | 'e' => some (.takes .eval)
  | 'n' => some (.takes .processors)
  | 'h' => some .help
  | _ => none

/-- The count a text stands for: decimal digits, possibly after a plus sign, below 2 ^ 64. -/
def parseCount? (text : String) : Option Nat :=
  let digits := match text.toList with
    | '+' :: rest => rest
    | cs => cs
  if digits.isEmpty || !digits.all Char.isDigit then none
  else
    let n := digits.foldl (fun n d => 10 * n + (d.toNat - '0'.toNat)) 0
    if n < UInt64.size then some n else none

/-- The policy with a name. -/
def parseHalt? : String → Option HaltPolicy
  | "first-finished" => some .firstFinished
  | "all-finished" => some .allFinished
  | _ => none

/-- The arguments given so far. -/
structure Draft where
  program : Option String := none
  eval : Option String := none
  processors : Option Nat := none
  halt : Option HaltPolicy := none
  jumpTable : Bool := false
  dumpState : Option String := none
deriving DecidableEq, Repr

namespace Draft

/-- An argument has been given a value. -/
def holds (d : Draft) : Slot → Bool
  | .program => d.program.isSome
  | .eval => d.eval.isSome
  | .processors => d.processors.isSome
  | .halt => d.halt.isSome
  | .dumpState => d.dumpState.isSome

/-- Judges a value and stores it. -/
def store (d : Draft) (slot : Slot) (value : String) : Except ArgumentFault Draft :=
  match slot with
  | .program =>
      if value.isEmpty then .error .invalidValue else .ok { d with program := some value }
  | .eval => .ok { d with eval := some value }
  | .processors =>
      match parseCount? value with
      | some n => .ok { d with processors := some n }
      | none => .error .valueValidation
  | .halt =>
      match parseHalt? value with
      | some policy => .ok { d with halt := some policy }
      | none => .error .invalidValue
  | .dumpState =>
      if value.isEmpty then .error .invalidValue else .ok { d with dumpState := some value }

/-- Gives an argument its value, unless it has one already. -/
def give (d : Draft) (slot : Slot) (value : String) : Except ArgumentFault Draft :=
  if d.holds slot then .error .argumentConflict else d.store slot value

/-- Sets the flag, unless it is set already. -/
def setJumpTable (d : Draft) : Except ArgumentFault Draft :=
  if d.jumpTable then .error .argumentConflict else .ok { d with jumpTable := true }

/-- The arguments of a complete draft. A path and a text of the program exclude each other. -/
def finish (d : Draft) : Except ArgumentFault Arguments :=
  if d.program.isSome && d.eval.isSome then .error .argumentConflict
  else .ok {
    program := d.program
    eval := d.eval
    processors := d.processors.getD 1
    halt := d.halt.getD .firstFinished
    jumpTable := d.jumpTable
    dumpState := d.dumpState }

end Draft

/-- The state between two tokens. -/
structure Reading where
  draft : Draft := {}
  /-- An argument that is not judged yet, with its value unless that is still to come. -/
  pending : Option (Slot × Option String) := none
  /-- The positional has been met. -/
  metPositional : Bool := false
deriving DecidableEq, Repr

namespace Reading

/-- Judges the pending argument. -/
def settle (r : Reading) : Except ArgumentFault Reading :=
  match r.pending with
  | none => .ok r
  | some (_, none) => .error .invalidValue
  | some (slot, some value) =>
      match r.draft.give slot value with
      | .ok draft => .ok { r with draft := draft, pending := none }
      | .error fault => .error fault

/-- Meets a positional, of which there can be one. -/
def positional (r : Reading) (text : String) : Except ArgumentFault Reading :=
  if r.metPositional then .error .unknownArgument
  else
    match r.settle with
    | .ok r => .ok { r with pending := some (.program, some text), metPositional := true }
    | .error fault => .error fault

/-- Meets an option, with the value that is attached to it. -/
def option (r : Reading) (role : Option Role) (attached : Option String) :
    Except ArgumentFault Reading :=
  match role, attached with
  | none, _ => .error .unknownArgument
  | some .jumpTable, some _ => .error .tooManyValues
  | some .help, some _ => .error .tooManyValues
  | some role, attached =>
      match r.settle with
      | .error fault => .error fault
      | .ok r =>
          match role, attached with
          | .help, _ => .error .displayHelp
          | .jumpTable, _ =>
              match r.draft.setJumpTable with
              | .ok draft => .ok { r with draft := draft }
              | .error fault => .error fault
          | .takes slot, none => .ok { r with pending := some (slot, none) }
          | .takes slot, some value =>
              match r.draft.give slot value with
              | .ok draft => .ok { r with draft := draft }
              | .error fault => .error fault

/-- What is attached to a letter: what follows it, an equals sign taken off. Nothing can be
    attached to the letter of a flag. -/
def attachedTo (role : Option Role) (rest : List Char) : Option String :=
  match role, rest with
  | some (.takes _), '=' :: value => some (String.ofList value)
  | some (.takes _), c :: value => some (String.ofList (c :: value))
  | _, _ => none

/-- Meets a text that is no option: the value that is waited for, or a positional. -/
def plain (r : Reading) (text : String) : Except ArgumentFault Reading :=
  match r.pending with
  | some (slot, none) => .ok { r with pending := some (slot, some text) }
  | _ => r.positional text

/-- Meets the tokens after the separator. -/
def positionals (r : Reading) : List String → Except ArgumentFault Reading
  | [] => .ok r
  | text :: rest =>
      match r.positional text with
      | .ok r => positionals r rest
      | .error fault => .error fault

/-- Meets a row of tokens. -/
def tokens (r : Reading) : List String → Except ArgumentFault Reading
  | [] => .ok r
  | text :: rest =>
      let met := match Token.ofString text with
        | .separator => none
        | .long name value => some (r.option (Role.ofName? name) value)
        | .short letter tail =>
            let role := Role.ofLetter? letter
            some (r.option role (attachedTo role tail))
        | .plain text => some (r.plain text)
      match met with
      | none => r.positionals rest
      | some (.ok r) => tokens r rest
      | some (.error fault) => .error fault

end Reading

/-- The arguments a row of tokens stands for. -/
def Arguments.parse (tokens : List String) : Except ArgumentFault Arguments :=
  match Reading.tokens {} tokens with
  | .error fault => .error fault
  | .ok r =>
      match r.settle with
      | .error fault => .error fault
      | .ok r => r.draft.finish

/-- The configuration the arguments ask for. -/
def Arguments.config (a : Arguments) : MachineConfig where
  processors := a.processors
  halt := a.halt
  brackets := if a.jumpTable then .table else .scan

end TapeRing.CommandLine
