import TieredUdf.CommandLine.Number

/-!
# Forms of commands

A form says which options, which arguments and which commands below it a command takes.  Words are
read from left to right.  An option's value is its own word or attached to the option; a word of
its own may not begin with a minus sign, unless it is nothing else.  A value is judged when the
next option or argument is met, and after `--` every word is an argument.
-/

namespace TieredUdf.CommandLine

inductive ValueKind where
  /-- A path of at least one character. -/
  | path
  | text
  | word32
  | word64
  | real
  deriving DecidableEq, Repr, Inhabited

/-- A text that is asked for instead of a command. -/
inductive Page where
  | help
  | version
  deriving DecidableEq, Repr, Inhabited

inductive OptionRole where
  /-- Count how often it is given. -/
  | count
  /-- Take a value; only some options take several. -/
  | value (kind : ValueKind) (repeats : Bool)
  /-- Ask for a page. -/
  | ask (page : Page)
  deriving DecidableEq, Repr, Inhabited

structure OptionForm where
  name : String
  letter : Option Char
  role : OptionRole
  deriving DecidableEq, Repr, Inhabited

structure CommandForm where
  options : List OptionForm
  /-- The names and kinds of the arguments; each of them has to be given. -/
  arguments : List (String × ValueKind)
  /-- The names of the commands below this one. -/
  commands : List String
  deriving DecidableEq, Repr, Inhabited

/-- Why reading ends before a command is known. -/
inductive Refusal where
  | usage
  | page (page : Page)
  deriving DecidableEq, Repr, Inhabited

namespace ValueKind

def accepts : ValueKind → String → Bool
  | .path, s => !s.isEmpty
  | .text, _ => true
  | .word32, s => (word32? s).isSome
  | .word64, s => (word64? s).isSome
  | .real, s => (real? s).isSome

end ValueKind

/-- A value that is expected. -/
structure Slot where
  name : String
  kind : ValueKind
  repeats : Bool
  deriving DecidableEq, Repr, Inhabited

structure Reading where
  /-- The values by name, the first one first.  An option that is counted has an empty value each
  time. -/
  values : List (String × String)
  /-- The latest value, which has not been judged, or the option that waits for one. -/
  pending : Option (Slot × Option String)
  /-- How many arguments have been met. -/
  arguments : Nat
  deriving DecidableEq, Repr, Inhabited

namespace Reading

def empty : Reading := ⟨[], none, 0⟩

def values? (r : Reading) (name : String) : List String :=
  (r.values.filter fun v => v.1 == name).map Prod.snd

/-- The value of a name that has at most one. -/
def value? (r : Reading) (name : String) : Option String := (r.values? name).head?

def isWaiting (r : Reading) : Bool := (r.pending.map fun p => p.2.isNone).getD false

/-- Judge the latest value. -/
def settle (r : Reading) : Except Refusal Reading :=
  match r.pending with
  | none => .ok r
  | some (_, none) => .error .usage
  | some (slot, some text) =>
      if slot.kind.accepts text && (slot.repeats || (r.value? slot.name).isNone) then
        .ok { r with values := r.values ++ [(slot.name, text)], pending := none }
      else .error .usage

def meetOption (r : Reading) (o : OptionForm) (attached : Option String) :
    Except Refusal Reading := do
  match o.role, attached with
  | .count, none =>
      let r ← r.settle
      return { r with values := r.values ++ [(o.name, "")] }
  | .ask page, none =>
      let _ ← r.settle
      throw (.page page)
  | .count, some _ | .ask _, some _ => throw .usage
  | .value kind repeats, text =>
      let r ← r.settle
      let r := { r with pending := some (⟨o.name, kind, repeats⟩, text) }
      if text.isSome then r.settle else return r

def meetArgument (form : CommandForm) (r : Reading) (text : String) :
    Except Refusal Reading := do
  match form.arguments[r.arguments]? with
  | none => throw .usage
  | some (name, kind) =>
      let r ← r.settle
      return { r with
        pending := some (⟨name, kind, false⟩, some text)
        arguments := r.arguments + 1 }

/-- The value that is attached to a letter, with or without an equals sign. -/
def attachedValue : List Char → Option String
  | [] => none
  | '=' :: rest => some (String.ofList rest)
  | rest => some (String.ofList rest)

def meetLetters (form : CommandForm) (r : Reading) : List Char → Except Refusal Reading
  | [] => .ok r
  | c :: rest =>
      match form.options.find? fun o => o.letter == some c with
      | none => .error .usage
      | some o =>
          match o.role with
          | .value _ _ => r.meetOption o (attachedValue rest)
          | _ => do meetLetters form (← r.meetOption o none) rest

/-- Meet an option that is written as a name, perhaps with a value after an equals sign. -/
def meetName (form : CommandForm) (r : Reading) (word : List Char) : Except Refusal Reading :=
  let name := word.takeWhile (· != '=')
  let attached := match word.dropWhile (· != '=') with
    | [] => none
    | _ :: value => some (String.ofList value)
  match form.options.find? fun o => o.name == String.ofList name with
  | some o => r.meetOption o attached
  | none => .error .usage

/-- Meet a word that is neither a command nor `--`. -/
def meetWord (form : CommandForm) (r : Reading) (word : String) : Except Refusal Reading :=
  match word.toList, r.pending with
  | '-' :: '-' :: name, _ => r.meetName form name
  | '-' :: c :: letters, _ => r.meetLetters form (c :: letters)
  | _, some (slot, none) => .ok { r with pending := some (slot, some word) }
  | _, _ => r.meetArgument form word

/-- The command that is named below a form, with the words after its name. -/
abbrev Below : Type := Option (String × List String)

/-- Read words up to the name of a command or to their end. -/
def read (form : CommandForm) : Reading → List String → Except Refusal (Reading × Below)
  | r, [] => .ok (r, none)
  | r, word :: rest =>
      if !r.isWaiting && form.commands.contains word then .ok (r, some (word, rest))
      else if word = "--" then do return (← rest.foldlM (meetArgument form) r, none)
      else do read form (← r.meetWord form word) rest

/-- Judge the last value, and that no argument is missing. -/
def complete (form : CommandForm) (r : Reading) : Except Refusal Reading := do
  let r ← r.settle
  if r.arguments < form.arguments.length then throw .usage
  return r

end Reading

end TieredUdf.CommandLine
