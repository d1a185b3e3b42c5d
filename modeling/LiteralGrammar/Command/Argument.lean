import LiteralGrammar.Command.Error
import LiteralGrammar.Preset

namespace LiteralGrammar.Command

inductive Argument
  | separator (b : Byte)
  | preset (p : Preset)
  | exponent (b : Byte)
  | secondExponent (b : Option Byte)
  | rule (r : Rule) (on : Bool)
  deriving DecidableEq

namespace Argument

def after? (head s : String) : Option String :=
  (head.toList.isPrefixOf? s.toList).map String.ofList

def byte (text : String) : Except Error Byte :=
  match Byte.ofText? text with
  | some b => .ok b
  | none => .error (.notOneCharacter text)

def optionalByte (text : String) : Except Error (Option Byte) :=
  if text = "none" then .ok none else (byte text).map some

def presetNamed (name : String) : Except Error Preset :=
  match Preset.ofName? name with
  | some p => .ok p
  | none => .error (.unknownPreset name)

def ruleNamed (name : String) : Except Error Rule :=
  match Rule.ofName? name with
  | some r => .ok r
  | none => .error (.unknownRule name)

def options : List (String × (String → Except Error Argument)) :=
  [("--separator=", fun text => (byte text).map .separator),
    ("--preset=", fun text => (presetNamed text).map .preset),
    ("--exponent=", fun text => (byte text).map .exponent),
    ("--exponent-backup=", fun text => (optionalByte text).map .secondExponent)]

def readRule (s : String) : Except Error Argument :=
  match after? "!" s with
  | some name => (ruleNamed name).map (.rule · false)
  | none => (ruleNamed s).map (.rule · true)

def read (s : String) : Except Error Argument :=
  match options.findSome? fun (head, reader) => (after? head s).map reader with
  | some argument => argument
  | none => if (after? "--" s).isSome then .error (.unknownOption s) else readRule s

end Argument

end LiteralGrammar.Command
