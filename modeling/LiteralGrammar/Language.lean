import LiteralGrammar.Format

namespace LiteralGrammar

def Draft.ofGroups (groups : List Selector) : Draft :=
  ({} : Draft).run (groups.map (.switch · true))

inductive Language
  | rust
  | python3 | python2
  | cxx17 | cxx14 | cxx11 | cxx03 | cxx98
  | c18 | c11 | c99 | c90 | c89
  | ruby | swift | go | haskell
  | javascript | perl | php
  | java | r | kotlin | julia
  | csharp7 | csharp6 | csharp5 | csharp4 | csharp3 | csharp2 | csharp1
  | kawa | gambitc | guile | clojure
  | erlang | elm | scala | elixir
  | fortran | d | coffeescript | cobol
  | fsharp | vb | ocaml | objectivec | reasonml
  | octave | matlab | zig | sage
  deriving DecidableEq

namespace Language

def all : List Language :=
  [.rust, .python3, .python2, .cxx17, .cxx14, .cxx11, .cxx03, .cxx98, .c18, .c11, .c99, .c90,
    .c89, .ruby, .swift, .go, .haskell, .javascript, .perl, .php, .java, .r, .kotlin, .julia,
    .csharp7, .csharp6, .csharp5, .csharp4, .csharp3, .csharp2, .csharp1, .kawa, .gambitc, .guile,
    .clojure, .erlang, .elm, .scala, .elixir, .fortran, .d, .coffeescript, .cobol, .fsharp, .vb,
    .ocaml, .objectivec, .reasonml, .octave, .matlab, .zig, .sage]

theorem mem_all (l : Language) : l ∈ all := by cases l <;> decide

def name : Language → String
  | .rust => "rust"
  | .python3 => "python3"
  | .python2 => "python2"
  | .cxx17 => "cxx17"
  | .cxx14 => "cxx14"
  | .cxx11 => "cxx11"
  | .cxx03 => "cxx03"
  | .cxx98 => "cxx98"
  | .c18 => "c18"
  | .c11 => "c11"
  | .c99 => "c99"
  | .c90 => "c90"
  | .c89 => "c89"
  | .ruby => "ruby"
  | .swift => "swift"
  | .go => "go"
  | .haskell => "haskell"
  | .javascript => "javascript"
  | .perl => "perl"
  | .php => "php"
  | .java => "java"
  | .r => "r"
  | .kotlin => "kotlin"
  | .julia => "julia"
  | .csharp7 => "csharp7"
  | .csharp6 => "csharp6"
  | .csharp5 => "csharp5"
  | .csharp4 => "csharp4"
  | .csharp3 => "csharp3"
  | .csharp2 => "csharp2"
  | .csharp1 => "csharp1"
  | .kawa => "kawa"
  | .gambitc => "gambitc"
  | .guile => "guile"
  | .clojure => "clojure"
  | .erlang => "erlang"
  | .elm => "elm"
  | .scala => "scala"
  | .elixir => "elixir"
  | .fortran => "fortran"
  | .d => "d"
  | .coffeescript => "coffeescript"
  | .cobol => "cobol"
  | .fsharp => "fsharp"
  | .vb => "vb"
  | .ocaml => "ocaml"
  | .objectivec => "objectivec"
  | .reasonml => "reasonml"
  | .octave => "octave"
  | .matlab => "matlab"
  | .zig => "zig"
  | .sage => "sage"

section

open Rule (requiredDigits noPositiveMantissaSign requiredExponentSign noExponentWithoutFraction
  noSpecial caseSensitiveSpecial noIntegerLeadingZeros noFloatLeadingZeros separator
  specialSeparator)
open Selector (digits placement)

/-- Numbers in source text; `string` is for those that the language reads while a program runs. -/
def literal : Language → Draft
  | .rust => .ofGroups [digits, noPositiveMantissaSign, noSpecial, placement .internal,
      placement .trailing, placement .consecutive]
  | .python3 => .ofGroups [requiredDigits .exponent, noSpecial, noIntegerLeadingZeros]
  | .cxx17 | .cxx14 =>
    (Draft.ofGroups [requiredDigits .exponent, caseSensitiveSpecial, placement .internal])
      |>.withSeparator (.ofChar '\'')
  | .python2 | .cxx03 | .cxx98 | .c90 | .c89 | .kawa | .gambitc | .guile | .fortran
  | .objectivec => .ofGroups [requiredDigits .exponent, noSpecial]
  | .cxx11 | .c18 | .c11 | .c99 | .php | .r | .sage =>
    .ofGroups [requiredDigits .exponent, caseSensitiveSpecial]
  | .ruby => .ofGroups [digits, noSpecial, noFloatLeadingZeros, placement .internal]
  | .swift => .ofGroups [digits, noSpecial, placement .internal, placement .trailing,
      placement .consecutive]
  | .go => .ofGroups [requiredDigits .fraction, noSpecial]
  | .haskell => .ofGroups [digits, noPositiveMantissaSign, noSpecial]
  | .javascript =>
    .ofGroups [requiredDigits .exponent, caseSensitiveSpecial, noFloatLeadingZeros]
  | .perl => .ofGroups [requiredDigits .exponent, noSpecial, placement .internal,
      separator .fraction .leading, separator .exponent .leading, placement .trailing,
      placement .consecutive]
  | .java => .ofGroups [requiredDigits .exponent, noSpecial, placement .internal,
      placement .consecutive]
  | .kotlin => .ofGroups [requiredDigits .exponent, noSpecial, noIntegerLeadingZeros,
      placement .internal, placement .consecutive]
  | .julia => .ofGroups [requiredDigits .exponent, caseSensitiveSpecial,
      separator .integer .internal, separator .fraction .internal]
  | .csharp7 => .ofGroups [requiredDigits .fraction, requiredDigits .exponent, noSpecial,
      placement .internal, placement .consecutive]
  | .csharp6 | .csharp5 | .csharp4 | .csharp3 | .csharp2 | .csharp1 | .vb =>
    .ofGroups [requiredDigits .fraction, requiredDigits .exponent, noSpecial]
  | .clojure => .ofGroups [requiredDigits .integer, requiredDigits .exponent, noSpecial]
  | .erlang => .ofGroups [digits, noExponentWithoutFraction, caseSensitiveSpecial]
  | .elm =>
    .ofGroups [digits, noPositiveMantissaSign, noIntegerLeadingZeros, noFloatLeadingZeros]
  | .scala => .ofGroups [digits, noSpecial, noIntegerLeadingZeros, noFloatLeadingZeros]
  | .elixir => .ofGroups [digits, noExponentWithoutFraction, noSpecial, placement .internal]
  | .d => .ofGroups [requiredDigits .exponent, noSpecial, noIntegerLeadingZeros,
      placement .internal, placement .trailing, placement .consecutive]
  | .coffeescript => .ofGroups [requiredDigits .exponent, caseSensitiveSpecial,
      noIntegerLeadingZeros, noFloatLeadingZeros]
  | .cobol => .ofGroups [requiredDigits .fraction, requiredDigits .exponent,
      noExponentWithoutFraction, noSpecial]
  | .fsharp => .ofGroups [requiredDigits .integer, requiredDigits .exponent, caseSensitiveSpecial,
      placement .internal, placement .consecutive]
  | .ocaml => .ofGroups [requiredDigits .integer, requiredDigits .exponent,
      noPositiveMantissaSign, caseSensitiveSpecial, placement .internal,
      separator .fraction .leading, placement .trailing, placement .consecutive]
  | .reasonml => .ofGroups [requiredDigits .integer, requiredDigits .exponent,
      caseSensitiveSpecial, placement .internal, separator .fraction .leading,
      placement .trailing, placement .consecutive]
  | .octave | .matlab => .ofGroups [requiredDigits .exponent, caseSensitiveSpecial,
      placement .internal, separator .fraction .leading, placement .trailing,
      placement .consecutive]
  | .zig => .ofGroups [requiredDigits .integer, noPositiveMantissaSign, noSpecial]

def string : Language → Draft
  | .rust | .python3 | .python2 | .cxx17 | .cxx14 | .cxx11 | .cxx03 | .cxx98 | .c18 | .c11 | .c99
  | .c90 | .c89 | .julia | .fortran => .ofGroups [requiredDigits .exponent]
  | .ruby => .ofGroups [noSpecial, placement .internal]
  | .swift | .go => .ofGroups [requiredDigits .fraction]
  | .haskell => .ofGroups [digits, noPositiveMantissaSign, caseSensitiveSpecial]
  | .javascript | .coffeescript => .ofGroups [caseSensitiveSpecial]
  | .perl | .r | .zig => .ofGroups []
  | .php => .ofGroups [noSpecial]
  | .java | .kotlin | .csharp7 | .csharp6 | .csharp5 | .csharp4 | .csharp3 | .csharp2 | .csharp1
  | .clojure | .elm | .scala | .vb => .ofGroups [requiredDigits .exponent, caseSensitiveSpecial]
  | .kawa | .gambitc | .guile | .objectivec => .ofGroups [requiredDigits .exponent, noSpecial]
  | .erlang | .elixir => .ofGroups [digits, noExponentWithoutFraction, noSpecial]
  | .d => .ofGroups [requiredDigits .exponent, separator .integer .internal,
      separator .fraction .internal, separator .integer .trailing, separator .fraction .trailing]
  | .cobol => .ofGroups [requiredExponentSign, noSpecial]
  | .fsharp => .ofGroups [requiredDigits .exponent, caseSensitiveSpecial, placement .internal,
      placement .leading, placement .trailing, placement .consecutive, specialSeparator]
  | .ocaml | .reasonml => .ofGroups [requiredDigits .exponent, placement .internal,
      placement .leading, placement .trailing, placement .consecutive, specialSeparator]
  -- Thousands are set off by commas.
  | .octave | .matlab =>
    (Draft.ofGroups [requiredDigits .exponent, placement .internal, placement .leading,
      placement .trailing, placement .consecutive]) |>.withSeparator (.ofChar ',')
  | .sage => .ofGroups [requiredDigits .exponent, placement .internal]

end

end Language

inductive DataFormat
  | json
  | toml
  | xml
  | sqlite
  | postgresql
  | mysql
  | mongodb
  deriving DecidableEq

namespace DataFormat

def all : List DataFormat := [.json, .toml, .xml, .sqlite, .postgresql, .mysql, .mongodb]

theorem mem_all (t : DataFormat) : t ∈ all := by cases t <;> decide

def name : DataFormat → String
  | .json => "json"
  | .toml => "toml"
  | .xml => "xml"
  | .sqlite => "sqlite"
  | .postgresql => "postgresql"
  | .mysql => "mysql"
  | .mongodb => "mongodb"

section

open Rule (requiredDigits noPositiveMantissaSign noSpecial caseSensitiveSpecial
  noIntegerLeadingZeros noFloatLeadingZeros)
open Selector (digits placement)

def draft : DataFormat → Draft
  | .json => .ofGroups [digits, noPositiveMantissaSign, noSpecial, noIntegerLeadingZeros,
      noFloatLeadingZeros]
  | .toml => .ofGroups [digits, noSpecial, placement .internal, noIntegerLeadingZeros,
      noFloatLeadingZeros]
  | .xml => .ofGroups [caseSensitiveSpecial]
  | .sqlite | .postgresql | .mysql => .ofGroups [requiredDigits .exponent, noSpecial]
  | .mongodb => .ofGroups [requiredDigits .exponent, caseSensitiveSpecial, noFloatLeadingZeros]

end

end DataFormat

end LiteralGrammar
