import Quire.Text.Cut

/-! Arguments of a command line: options, and words between them.

An option is given by its name, `--name value` or `--name=value`, or by its letter, `-n value`,
`-nvalue` or `-n=value`. After `--` everything is a word. Reading goes from left to right and
stops at the first mistake, or where help or the version is asked for. -/
namespace Quire.Command

/-- Why the arguments are no command. -/
inductive Stop
  | mistake
  | help
  | version
  deriving DecidableEq, Repr

structure Opt where
  name : String
  letter : Option Char
  /-- Which values are accepted; none if the option has no value. -/
  accepts : Option (String → Bool)

namespace Opt

/-- An option with any value. -/
def text (name : String) : Opt := ⟨name, none, some fun _ => true⟩

/-- An option whose value can be read in some way. -/
def read (name : String) (parse : String → Option α) : Opt :=
  ⟨name, none, some fun s => (parse s).isSome⟩

/-- An option without a value. -/
def flag (name : String) : Opt := ⟨name, none, none⟩

end Opt

/-- What is accepted in a place. -/
structure Grammar where
  options : List Opt
  /-- How many words there may be. -/
  words : Nat
  /-- The version can be asked for. -/
  hasVersion : Bool

/-- What has been given so far. -/
structure Given where
  values : List (String × String)
  words : List String
  deriving DecidableEq, Repr

namespace Given

def nothing : Given := ⟨[], []⟩

def value? (g : Given) (name : String) : Option String := g.values.lookup name

def has (g : Given) (name : String) : Bool := (g.value? name).isSome

end Given

namespace Grammar

/-- Something new has been read: what is given now, and an option that waits for its value. -/
abbrev Read := Except Stop (Given × Option Opt)

/-- A value for an option, which must be its first. -/
def record (g : Given) (o : Opt) (value : String) : Read :=
  if g.has o.name then .error .mistake
  else match o.accepts with
    | some accepts =>
      if accepts value then .ok ({ g with values := g.values ++ [(o.name, value)] }, none)
      else .error .mistake
    | none => .ok ({ g with values := g.values ++ [(o.name, value)] }, none)

/-- An option, perhaps with a value behind an equals sign. -/
def option (g : Given) (o : Opt) (value : Option String) : Read :=
  match o.accepts, value with
  | some _, some v => record g o v
  | some _, none => if g.has o.name then .error .mistake else .ok (g, some o)
  | none, none => record g o ""
  | none, some _ => .error .mistake

/-- What follows `--`. -/
def long (gr : Grammar) (g : Given) (body : List Char) : Read :=
  let name := String.ofList (body.takeWhile (· != '='))
  let value :=
    match body.dropWhile (· != '=') with
    | [] => none
    | _ :: value => some (String.ofList value)
  match gr.options.find? (·.name == name), name with
  | some o, _ => option g o value
  | none, "help" => .error (if value.isNone then .help else .mistake)
  | none, "version" => .error (if value.isNone && gr.hasVersion then .version else .mistake)
  | none, _ => .error .mistake

/-- What follows a single dash. -/
def short (gr : Grammar) (g : Given) (letter : Char) (rest : List Char) : Read :=
  match gr.options.find? (·.letter == some letter) with
  | some o =>
    match rest with
    | [] => option g o none
    | '=' :: value => option g o (some (String.ofList value))
    | value => option g o (some (String.ofList value))
  | none =>
    if letter == 'h' then .error .help
    else if letter == 'V' && gr.hasVersion then .error .version
    else .error .mistake

def word (gr : Grammar) (g : Given) (w : String) : Read :=
  if g.words.length < gr.words then .ok ({ g with words := g.words ++ [w] }, none)
  else .error .mistake

/-- An argument that stands where an option may stand. -/
def argument (gr : Grammar) (g : Given) (arg : String) : Read :=
  match arg.toList with
  | '-' :: '-' :: body => gr.long g body
  | '-' :: letter :: rest => gr.short g letter rest
  | _ => gr.word g arg

/-- Whether an argument looks like an option. -/
def looksLikeOption (arg : String) : Bool := Text.startsWith "-" arg && arg != "-"

/-- Reads arguments while `waiting` may wait for its value. -/
def scan (gr : Grammar) (g : Given) (waiting : Option Opt) : List String → Except Stop Given
  | [] => if waiting.isSome then .error .mistake else .ok g
  | arg :: rest =>
    match waiting with
    | some o =>
      if looksLikeOption arg then .error .mistake
      else do
        let (g, waiting) ← record g o arg
        scan gr g waiting rest
    | none =>
      if arg == "--" then rest.foldlM (fun g w => (gr.word g w).map Prod.fst) g
      else do
        let (g, waiting) ← gr.argument g arg
        scan gr g waiting rest

/-- Reads options up to the first word; gives that word and what follows it. -/
def upToWord (gr : Grammar) (g : Given) (waiting : Option Opt) :
    List String → Except Stop (Given × String × List String)
  | [] => .error .mistake
  | arg :: rest =>
    match waiting with
    | some o =>
      if looksLikeOption arg then .error .mistake
      else do
        let (g, waiting) ← record g o arg
        upToWord gr g waiting rest
    | none =>
      if arg == "--" then .error .mistake
      else if looksLikeOption arg then do
        let (g, waiting) ← gr.argument g arg
        upToWord gr g waiting rest
      else .ok (g, arg, rest)

end Grammar
end Quire.Command
