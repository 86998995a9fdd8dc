import HyperSchema.Command.Configuration

/-!
# Command lines

What the words behind the program's name ask for.  This file defines:

* `Command` and `Invocation`, a command with its arguments;
* `Request`, what a command line asks for, and `Request.ofWords`;
* `CommandLine.readOptions`, the options at one level.

An option is given once at each level, as `--name value` or `--name=value`; a value of its own does
not start with a hyphen.  `--config` may stand before and behind the command; the last one counts.
-/

namespace HyperSchema

/-- A command with its arguments. -/
inductive Command where
  | generate (overrides : Overrides)
  | applyRules (input output : String)
deriving DecidableEq, Repr

/-- A command and the configuration that is named for it. -/
structure Invocation where
  config : Option String
  command : Command
deriving DecidableEq, Repr

/-- What a command line asks for. -/
inductive Request where
  | version
  | help
  /-- Nothing that the program knows. -/
  | invalid
  | run (invocation : Invocation)
deriving DecidableEq, Repr

namespace CommandLine

/-! ## Words -/

/-- What kind of word stands on a command line. -/
inductive Word where
  /-- The word `--`, behind which no options stand. -/
  | endOfOptions
  /-- A long option, with the value behind its equals sign. -/
  | long (name : String) (value : Option String)
  /-- Short options. -/
  | short (letters : List Char)
  | plain
deriving DecidableEq, Repr

/-- The parts of a long option. -/
def longOption (text : List Char) : Word :=
  let name := text.takeWhile fun c => c != '='
  match text.drop name.length with
  | [] => .long (String.ofList name) none
  | _ :: value => .long (String.ofList name) (some (String.ofList value))

/-- The kind of a word. -/
def word (text : String) : Word :=
  match text.toList with
  | ['-', '-'] => .endOfOptions
  | '-' :: '-' :: rest => longOption rest
  | ['-'] => .plain
  | '-' :: letters => .short letters
  | _ => .plain

/-! ## Values -/

/-- What an option takes. -/
inductive ValueKind where
  | text
  /-- A text that is not empty. -/
  | path
  /-- A number below `2 ^ 64`. -/
  | seconds
deriving DecidableEq, Repr

/-- A number in decimal digits, with or without a plus sign. -/
def seconds? (text : String) : Option Nat :=
  let digits := match text.toList with
    | '+' :: rest => rest
    | chars => chars
  if digits.isEmpty || !digits.all Char.isDigit then none
  else
    let value := digits.foldl (fun n c => n * 10 + (c.toNat - '0'.toNat)) 0
    if value < Nat.pow 2 64 then some value else none

/-- Whether an option takes a value. -/
def ValueKind.accepts : ValueKind → String → Bool
  | text, _ => true
  | path, value => !value.isEmpty
  | seconds, value => (seconds? value).isSome

/-! ## Options -/

/-- The options at one level: their names and what they take. -/
abbrev Options := List (String × ValueKind)

/-- The values of options, with one more; an option that has a value already is refused. -/
def addValue (options : Options) (found : Entries String) (name value : String) :
    Option (Entries String) :=
  match options.lookup name with
  | none => none
  | some kind =>
      if kind.accepts value && !found.contains name then some (found.insert name value) else none

/-- What a word asks for where no option of the level is given. -/
def stop (hasVersion : Bool) : Word → Request
  | .long "help" none => .help
  | .long "version" none => if hasVersion then .version else .invalid
  | .short ('h' :: _) => .help
  | .short ('V' :: _) => if hasVersion then .version else .invalid
  | _ => .invalid

/-- Reads the options at one level: their values, and the words from the first one that is no
option. -/
def readOptions (options : Options) (hasVersion : Bool) (found : Entries String) :
    List String → Except Request (Entries String × List String)
  | [] => .ok (found, [])
  | text :: rest =>
      match word text with
      | .plain => .ok (found, text :: rest)
      | .endOfOptions => if rest.isEmpty then .ok (found, []) else .error .invalid
      | .short letters => .error (stop hasVersion (.short letters))
      | .long name (some value) =>
          match addValue options found name value with
          | some found => readOptions options hasVersion found rest
          | none => .error .invalid
      | .long name none =>
          if (options.lookup name).isNone then .error (stop hasVersion (.long name none))
          else
            match rest with
            | [] => .error .invalid
            | value :: rest =>
                -- A word that looks like an option is none of its values.
                if word value == .plain then
                  match addValue options found name value with
                  | some found => readOptions options hasVersion found rest
                  | none => .error .invalid
                else .error .invalid

/-! ## Commands -/

/-- The option that every level has. -/
def sharedOptions : Options := [("config", .path)]

/-- The options of `generate`. -/
def generateOptions : Options :=
  [("source", .text), ("out-dir", .path), ("docs-base-url", .text), ("timeout", .seconds)]

/-- The options of the command that applies rules. -/
def ruleOptions : Options := [("input", .path), ("output", .path)]

/-- The command `generate` with the values of its options. -/
def generateCommand (found : Entries String) : Command :=
  .generate {
    source := found.get? "source"
    outDir := found.get? "out-dir"
    docsBase := found.get? "docs-base-url"
    fetchTimeout := (found.get? "timeout").bind seconds? }

/-- The command that applies rules, with the values of its options, if none is missing. -/
def ruleCommand? (found : Entries String) : Option Command := do
  return .applyRules (← found.get? "input") (← found.get? "output")

/-- The command behind its name, with the configuration named before it. -/
def readCommand (options : Options) (command? : Entries String → Option Command)
    (config : Option String) (words : List String) : Request :=
  match readOptions (sharedOptions ++ options) false [] words with
  | .error request => request
  | .ok (_, _ :: _) => .invalid
  | .ok (found, []) =>
      match command? found with
      | some command => .run ⟨(found.get? "config").or config, command⟩
      | none => .invalid

/-- The words behind `help`: nothing, or the name of a command. -/
def readHelp : List String → Request
  | [] => .help
  | [name] => if ["generate", "rewrite", "help"].contains name then .help else .invalid
  | _ => .invalid

end CommandLine

open CommandLine in
/-- What a command line asks for. -/
def Request.ofWords (words : List String) : Request :=
  match readOptions sharedOptions true [] words with
  | .error request => request
  | .ok (found, rest) =>
      let config := found.get? "config"
      match rest with
      | "generate" :: words => readCommand generateOptions (some ∘ generateCommand) config words
      | "rewrite" :: words => readCommand ruleOptions ruleCommand? config words
      | "help" :: words => readHelp words
      | _ => .invalid

end HyperSchema
