/-
# Words of a command line

A word of a command line is an option, a flag, the mark that ends both, or a
plain word. An option takes a value, which may be attached to it: after an
equals sign, or right behind the letter of a short option. Names are written in
full. A single dash is a plain word.
-/

namespace DiagramCheck.CommandLine

/-- An option, which takes a value. -/
inductive Setting
  | format
  | config
  | targetVersion
  | logLevel
  deriving DecidableEq, Repr

/-- A flag, which takes none. -/
inductive Flag
  | help
  | version
  deriving DecidableEq, Repr

/-- What a long or a short name stands for. -/
inductive Name
  | setting (setting : Setting)
  | flag (flag : Flag)
  deriving DecidableEq, Repr

namespace Name

/-- What a long name stands for. -/
def ofLong? : String → Option Name
  | "format" => some (.setting .format)
  | "config" => some (.setting .config)
  | "target-version" => some (.setting .targetVersion)
  | "log-level" => some (.setting .logLevel)
  | "help" => some (.flag .help)
  | "version" => some (.flag .version)
  | _ => none

/-- What a short name stands for. -/
def ofShort? : Char → Option Name
  | 'f' => some (.setting .format)
  | 'c' => some (.setting .config)
  | 'h' => some (.flag .help)
  | 'V' => some (.flag .version)
  | _ => none

end Name

/-- A word of a command line. -/
inductive Word
  | plain (text : String)
  /-- Everything after it is plain. -/
  | separator
  /-- An option, with its value if that is attached. -/
  | setting (setting : Setting) (attached : Option String)
  | flag (flag : Flag)
  /-- A flag with a value attached. -/
  | flagWithValue (flag : Flag)
  | unknown (text : String)
  deriving DecidableEq, Repr

namespace Word

/-- The value after an equals sign. -/
def attached? : List Char → Option String
  | '=' :: value => some (String.ofList value)
  | _ => none

/-- The word that begins with two dashes and goes on with `text`. -/
def ofLong (text : List Char) : Word :=
  let value := attached? (text.dropWhile (· != '='))
  match Name.ofLong? (String.ofList (text.takeWhile (· != '='))) with
  | some (.setting named) => .setting named value
  | some (.flag named) => if value.isSome then .flagWithValue named else .flag named
  | none => .unknown (String.ofList ('-' :: '-' :: text))

/-- The word that begins with one dash and goes on with `letter`. The first flag among several
letters counts. -/
def ofShort (letter : Char) (rest : List Char) : Word :=
  match Name.ofShort? letter with
  | some (.setting named) =>
    match rest with
    | [] => .setting named none
    | '=' :: value => .setting named (some (String.ofList value))
    | value => .setting named (some (String.ofList value))
  | some (.flag named) => .flag named
  | none => .unknown (String.ofList ('-' :: letter :: rest))

/-- The word that a text is. -/
def ofText (text : String) : Word :=
  match text.toList with
  | ['-', '-'] => .separator
  | '-' :: '-' :: rest => ofLong rest
  | '-' :: letter :: rest => ofShort letter rest
  | _ => .plain text

end Word

end DiagramCheck.CommandLine
