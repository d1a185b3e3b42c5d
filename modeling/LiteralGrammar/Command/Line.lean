import LiteralGrammar.Command.Answer

namespace LiteralGrammar.Command

structure Outcome where
  status : UInt32 := 0
  out : String := ""
  err : String := ""
  deriving DecidableEq

def version : String := "0.1.0-alpha.1"

def usage : String := Text.lines [
  "numgram - numeric-literal grammar formats",
  "",
  "Usage: numgram <command> [options]",
  "",
  "Commands:",
  "  list                 List every preset and its format word",
  "  show <preset>        Decode a preset (e.g. rust-literal, json)",
  "  compile <rule>...    Compile grammar rules into a format word",
  "  check <hex>          Re-validate and decode a raw format word",
  "  help                 Show this help message",
  "  version              Show version information",
  "",
  "Compile options:",
  "  --separator=<c>        Digit separator (default: _)",
  "  --preset=<name>        Start from a preset's rules",
  "  --exponent=<c>         Exponent marker (default: e)",
  "  --exponent-backup=<c>  Secondary exponent marker, or `none` (default: ^)",
  "",
  "Rules use kebab-case names, e.g. `no-special` or",
  "`integer-internal-digit-separator`. Prefix with `!` to clear a rule.",
  "",
  "Set RUST_LOG=debug to trace rejected rule sets."]

namespace Outcome

def printed (text : String) : Outcome := { out := text }

def failed (text : String) : Outcome := { status := 1, err := text }

def ofAnswer : Except Error String → Outcome
  | .ok text => printed text
  | .error e => failed (Text.lines ["error: " ++ e.message])

end Outcome

def run : List String → Outcome
  | [] => .printed usage
  | command :: args =>
    match command, args with
    | "list", _ => .printed list
    | "show", [] => .failed (Text.lines ["Usage: numgram show <preset>"])
    | "show", name :: _ => .ofAnswer (preset name)
    | "compile", _ => .ofAnswer (compile args)
    | "check", [] => .failed (Text.lines ["Usage: numgram check <hex>"])
    | "check", text :: _ => .ofAnswer (check text)
    | "help", _ | "--help", _ | "-h", _ => .printed usage
    | "version", _ | "--version", _ | "-V", _ =>
      .printed (Text.lines ["numgram " ++ version])
    | _, _ =>
      { status := 1, out := usage, err := Text.lines ["Unknown command: " ++ command, ""] }

end LiteralGrammar.Command
