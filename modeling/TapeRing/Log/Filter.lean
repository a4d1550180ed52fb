import TapeRing.Text.Split

/-! # Log filters

A filter says up to which level the events of a target are shown. It is written as directives
with commas between them: a level for all targets, or a prefix of targets with a level. The
directive with the longest prefix decides, of two with the same prefix the later one. -/

namespace TapeRing.Log

/-- How grave an event is, from the gravest to the least. -/
inductive Level
  | error
  | warn
  | info
  | debug
  | trace
deriving DecidableEq, Repr

namespace Level

/-- The rank of a level, counted from 1 for the gravest. -/
def rank : Level → Nat
  | .error => 1
  | .warn => 2
  | .info => 3
  | .debug => 4
  | .trace => 5

/-- The label of a level in a line, right-aligned to five characters. -/
def label : Level → String
  | .error => "ERROR"
  | .warn => " WARN"
  | .info => " INFO"
  | .debug => "DEBUG"
  | .trace => "TRACE"

end Level

/-- A rule for the targets that start with a prefix: events are shown up to a rank. -/
structure Directive where
  target : String
  rank : Nat
deriving DecidableEq, Repr

/-- The rank a text stands for: the name of a level in any case, `off`, or the rank itself. -/
def rankOf? (text : String) : Option Nat :=
  match String.ofList (text.toList.map Char.toLower) with
  | "off" => some 0
  | "error" => some 1
  | "warn" => some 2
  | "info" => some 3
  | "debug" => some 4
  | "trace" => some 5
  | "0" => some 0
  | "1" => some 1
  | "2" => some 2
  | "3" => some 3
  | "4" => some 4
  | "5" => some 5
  | _ => none

/-- A directive can start with a character. -/
def opensDirective (c : Char) : Bool :=
  c.isAlphanum || 128 ≤ c.toNat || c = '-' || c = ':' || c = '_'

/-- The directive a text stands for. A target without a level is shown in full. -/
def Directive.parse? (text : String) : Option Directive :=
  let chars := text.toList
  if !(chars.head?.map opensDirective).getD false then none
  else
    let target := String.ofList (chars.takeWhile (· ≠ '='))
    match chars.dropWhile (· ≠ '=') with
    | [] =>
        match rankOf? text with
        | some rank => some ⟨"", rank⟩
        | none => some ⟨target, 5⟩
    | [_] => some ⟨target, 5⟩
    | _ :: level => (rankOf? (String.ofList level)).map fun rank => ⟨target, rank⟩

/-- A row of directives. -/
structure Filter where
  directives : List Directive
deriving DecidableEq, Repr

namespace Filter

/-- Shows events up to a level. -/
def upTo (level : Level) : Filter := ⟨[⟨"", level.rank⟩]⟩

/-- The filter without any setting. -/
def default : Filter := upTo .warn

/-- The filter a text stands for. Without directives only errors are shown; a directive that cannot
    be read makes the whole text void. -/
def parse? (text : String) : Option Filter :=
  match (splitParts ',' text).mapM Directive.parse? with
  | none => none
  | some [] => some (upTo .error)
  | some directives => some ⟨directives⟩

/-- The filter of a setting that may be absent. -/
def ofSetting (setting : Option String) : Filter :=
  (setting.bind parse?).getD default

/-- The longer prefix decides, and of two equally long ones the later. -/
def stronger (d : Option Directive) (e : Directive) : Option Directive :=
  match d with
  | none => some e
  | some d => if e.target.length < d.target.length then some d else some e

/-- The directive that decides about a target. -/
def directiveFor (f : Filter) (target : String) : Option Directive :=
  (f.directives.filter fun d => d.target.toList.isPrefixOf target.toList).foldl stronger none

/-- Events of a level and a target are shown. -/
def shows (f : Filter) (level : Level) (target : String) : Bool :=
  match f.directiveFor target with
  | none => false
  | some d => level.rank ≤ d.rank

end Filter

end TapeRing.Log
