/-! # Command-line arguments

A command takes options with a value, switches and positional arguments.  An option
is written `--name value`, `--name=value`, `-n value`, `-nvalue` or `-n=value`; a
value does not start with a dash unless it is attached or is a lone dash.  After
`--` everything is positional.  No option or switch may be given twice.  Arguments
are read from left to right, and a value is checked where it stands: a wrong value
before a call for help counts, one after it does not. -/
set_option autoImplicit false

namespace SecureInbox

/-- An option with a value: its letter, its name, and the values that it accepts. -/
structure OptionForm where
  letter : Char
  name : String
  accepts : String → Bool

/-- What a command takes.  Each positional argument has the values that it accepts. -/
structure ArgumentForm where
  options : List OptionForm
  switches : List String
  positionals : List (String → Bool)

/-- A command without arguments. -/
def ArgumentForm.bare : ArgumentForm := ⟨[], [], []⟩

structure Arguments where
  values : List (String × String)
  switches : List String
  positionals : List String

/-- Why arguments give no command. -/
inductive ArgumentFault where
  | help
  | wrong
deriving DecidableEq

namespace Arguments

def none : Arguments := ⟨[], [], []⟩

def value? (a : Arguments) (name : String) : Option String := a.values.lookup name

/-- Adds the value of an option that has none yet. -/
def addValue (option : OptionForm) (a : Arguments) (value : String) :
    Except ArgumentFault Arguments :=
  if (a.value? option.name).isSome || !option.accepts value then .error .wrong
  else .ok { a with values := (option.name, value) :: a.values }

def addSwitch (a : Arguments) (name : String) : Except ArgumentFault Arguments :=
  if name ∈ a.switches then .error .wrong else .ok { a with switches := name :: a.switches }

def addPositional (form : ArgumentForm) (a : Arguments) (value : String) :
    Except ArgumentFault Arguments :=
  match form.positionals[a.positionals.length]? with
  | some accepts =>
    if accepts value then .ok { a with positionals := a.positionals ++ [value] }
    else .error .wrong
  | Option.none => .error .wrong

/-- An option that is to get its value from the next argument. -/
def await (option : OptionForm) (a : Arguments) :
    Except ArgumentFault (Option OptionForm × Arguments) :=
  if (a.value? option.name).isSome then .error .wrong else .ok (some option, a)

/-- An option or switch by name, perhaps with a value attached.  An option without
a value waits for one. -/
def addNamed (form : ArgumentForm) (a : Arguments) (cs : List Char) :
    Except ArgumentFault (Option OptionForm × Arguments) := do
  let name := String.ofList (cs.takeWhile (· != '='))
  let attached :=
    match cs.dropWhile (· != '=') with
    | _ :: value => some (String.ofList value)
    | [] => Option.none
  match form.options.find? (·.name == name), attached with
  | some option, some value => return (Option.none, ← addValue option a value)
  | some option, Option.none => await option a
  | Option.none, some _ => throw .wrong
  | Option.none, Option.none =>
    if form.switches.contains name then return (Option.none, ← a.addSwitch name)
    else throw (if name = "help" then .help else .wrong)

/-- An option by its letter, perhaps with a value attached. -/
def addLetter (form : ArgumentForm) (a : Arguments) (letter : Char) (rest : List Char) :
    Except ArgumentFault (Option OptionForm × Arguments) :=
  match form.options.find? (·.letter == letter), rest with
  | some option, [] => await option a
  | some option, '=' :: value => (addValue option a (String.ofList value)).map (Option.none, ·)
  | some option, value => (addValue option a (String.ofList value)).map (Option.none, ·)
  | Option.none, _ => .error (if letter = 'h' then .help else .wrong)

/-- Reads arguments after those in `a`; `pending` is an option that waits for its
value. -/
def read (form : ArgumentForm) : Option OptionForm → Arguments → List String →
    Except ArgumentFault Arguments
  | some _, _, [] => .error .wrong
  | Option.none, a, [] => .ok a
  | pending, a, word :: rest =>
    match word.toList with
    | ['-', '-'] =>
      if pending.isSome then .error .wrong
      else rest.foldlM (fun a value => a.addPositional form value) a
    | '-' :: '-' :: name =>
      if pending.isSome then .error .wrong
      else do
        let (pending, a) ← a.addNamed form name
        read form pending a rest
    | '-' :: letter :: more =>
      if pending.isSome then .error .wrong
      else do
        let (pending, a) ← a.addLetter form letter more
        read form pending a rest
    | _ => do
      match pending with
      | some option => read form Option.none (← addValue option a word) rest
      | Option.none => read form Option.none (← a.addPositional form word) rest

end Arguments

end SecureInbox
