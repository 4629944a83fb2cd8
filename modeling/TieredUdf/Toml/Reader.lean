import TieredUdf.Toml.Scalar

/-!
# Reading keys and values

A reader takes characters off the front of a text.  Recursion into arrays and inline tables is
bounded by the length of the text.
-/

namespace TieredUdf.Toml

/-- Takes a value off the front of a text, or refuses it. -/
abbrev Reader (α : Type) : Type := StateT (List Char) Option α

namespace Reader

def refuse {α : Type} : Reader α := fun _ => none

def ofOption {α : Type} : Option α → Reader α
  | some value => return value
  | none => refuse

/-- The text that is left, and leave it. -/
def peek : Reader (List Char) := fun cs => some (cs, cs)

def goOn (cs : List Char) : Reader Unit := fun _ => some ((), cs)

/-! ### Blanks and comments -/

def isBlank (c : Char) : Bool := c == ' ' || c == '\t'

/-- Whether a character may not stand in a comment or a string: the control characters but the
tab. -/
def isControl (c : Char) : Bool := (decide (c.toNat < 0x20) && c != '\t') || c.toNat == 0x7f

def skipBlanks : Reader Unit := fun cs => some ((), cs.dropWhile isBlank)

def skipComment : Reader Unit := fun cs =>
  match cs with
  | '#' :: rest => some ((), rest.dropWhile fun c => !isControl c)
  | cs => some ((), cs)

def lineBreak? : List Char → Option (List Char)
  | '\n' :: rest => some rest
  | '\r' :: '\n' :: rest => some rest
  | _ => none

/-- What is left after blanks, comments and, between values, line breaks. -/
def dropFiller : Nat → List Char → List Char
  | 0, cs => cs
  | fuel + 1, cs =>
      let cs := cs.dropWhile isBlank
      let cs := match cs with
        | '#' :: rest => rest.dropWhile fun c => !isControl c
        | cs => cs
      match lineBreak? cs with
      | some rest => dropFiller fuel rest
      | none => cs

def skipFiller : Reader Unit := fun cs => some ((), dropFiller cs.length cs)

/-- The rest of a line may hold blanks and a comment. -/
def endOfLine : Reader Unit := do
  skipBlanks
  skipComment
  match ← peek with
  | [] => return ()
  | cs => goOn (← ofOption (lineBreak? cs))

/-! ### Strings -/

def unicode? (count : Nat) (cs : List Char) : Option (Char × List Char) :=
  let digits := cs.take count
  if digits.length = count ∧ digits.all fun c => (digit? 16 c).isSome then
    let n := valueOf 16 digits
    if n < 0xd800 ∨ (0xe000 ≤ n ∧ n < 0x110000) then some (Char.ofNat n, cs.drop count) else none
  else none

def escape? : List Char → Option (Char × List Char)
  | 'b' :: rest => some ('\x08', rest)
  | 't' :: rest => some ('\t', rest)
  | 'n' :: rest => some ('\n', rest)
  | 'f' :: rest => some ('\x0c', rest)
  | 'r' :: rest => some ('\r', rest)
  | '"' :: rest => some ('"', rest)
  | '\\' :: rest => some ('\\', rest)
  | 'u' :: rest => unicode? 4 rest
  | 'U' :: rest => unicode? 8 rest
  | _ => none

/-- The rest of a string on one line; escapes count when `escapes` holds. -/
def lineString? (quote : Char) (escapes : Bool) :
    Nat → List Char → List Char → Option (List Char × List Char)
  | 0, _, _ => none
  | _ + 1, _, [] => none
  | fuel + 1, read, c :: rest =>
      if c = quote then some (read.reverse, rest)
      else if escapes ∧ c = '\\' then
        match escape? rest with
        | some (e, rest) => lineString? quote escapes fuel (e :: read) rest
        | none => none
      else if isControl c then none
      else lineString? quote escapes fuel (c :: read) rest

/-- What follows a backslash at the end of a line: all blanks and line breaks are dropped. -/
def dropSpace : Nat → List Char → List Char
  | 0, cs => cs
  | fuel + 1, cs =>
      match lineBreak? (cs.dropWhile isBlank) with
      | some rest => dropSpace fuel rest
      | none => cs.dropWhile isBlank

def endsLine? (cs : List Char) : Option (List Char) := lineBreak? (cs.dropWhile isBlank)

/-- The rest of a string over several lines.  Up to two quotes belong to it before the three
that end it. -/
def linesString? (quote : Char) (escapes : Bool) :
    Nat → List Char → List Char → Option (List Char × List Char)
  | 0, _, _ => none
  | _ + 1, _, [] => none
  | fuel + 1, read, c :: rest =>
      if c = quote then
        let quotes := 1 + (rest.takeWhile (· == quote)).length
        if quotes < 3 then linesString? quote escapes fuel (c :: read) rest
        else if 5 < quotes then none
        else some ((List.replicate (quotes - 3) quote ++ read).reverse, rest.drop (quotes - 1))
      else if escapes ∧ c = '\\' then
        match endsLine? rest with
        | some rest => linesString? quote escapes fuel read (dropSpace rest.length rest)
        | none =>
            match escape? rest with
            | some (e, rest) => linesString? quote escapes fuel (e :: read) rest
            | none => none
      else
        match lineBreak? (c :: rest) with
        | some rest => linesString? quote escapes fuel ('\n' :: read) rest
        | none =>
            if isControl c then none
            else linesString? quote escapes fuel (c :: read) rest

/-- The rest of a string after its first quote. -/
def stringRest? (quote : Char) (escapes : Bool) (cs : List Char) :
    Option (List Char × List Char) :=
  match cs with
  | a :: b :: rest =>
      if a = quote ∧ b = quote then
        let rest := (lineBreak? rest).getD rest
        linesString? quote escapes (rest.length + 1) [] rest
      else lineString? quote escapes (cs.length + 1) [] cs
  | cs => lineString? quote escapes (cs.length + 1) [] cs

/-- The rest of a string that may not span lines, after its first quote. -/
def keyString? (quote : Char) (escapes : Bool) (cs : List Char) :
    Option (List Char × List Char) :=
  lineString? quote escapes (cs.length + 1) [] cs

/-! ### Keys -/

def isBareChar (c : Char) : Bool := c.isAlphanum || c == '_' || c == '-'

def simpleKey : Reader String := fun cs =>
  match cs with
  | '"' :: rest => (keyString? '"' true rest).map fun (s, rest) => (String.ofList s, rest)
  | '\'' :: rest => (keyString? '\'' false rest).map fun (s, rest) => (String.ofList s, rest)
  | cs =>
      let (name, rest) := cs.span isBareChar
      if name = [] then none else some (String.ofList name, rest)

/-- The parts of a key after those already read. -/
def keyParts : Nat → List String → Reader (List String)
  | 0, _ => refuse
  | fuel + 1, read => do
      skipBlanks
      let part ← simpleKey
      skipBlanks
      match ← peek with
      | '.' :: rest => do
          goOn rest
          keyParts fuel (part :: read)
      | _ => return (part :: read).reverse

/-- A key: parts with points between them, and blanks around each. -/
def key : Reader (List String) := do keyParts ((← peek).length + 1) []

/-! ### Values -/

def isScalarChar (c : Char) : Bool :=
  c.isAlphanum || c == '_' || c == '-' || c == '+' || c == '.' || c == ':'

/-- A scalar without quotes.  A time may follow a date after one blank. -/
def bareScalar : Reader Toml := fun cs =>
  let (text, rest) := cs.span isScalarChar
  match date? text, rest with
  | some [], ' ' :: a :: more =>
      if a.isDigit then
        let (time, rest) := (a :: more).span isScalarChar
        if isDatetime (text ++ ' ' :: time) then some (.datetime, rest) else none
      else some (.datetime, rest)
  | _, _ => (scalar? text).map fun v => (v, rest)

end Reader

/-! ### Tables that grow -/

/-- How a table came about. -/
inductive Origin where
  /-- As a part of a header before the last one. -/
  | implied
  /-- By a header of its own. -/
  | header
  /-- As a part of a dotted key before the last one. -/
  | dotted
  deriving DecidableEq, Repr

inductive Node where
  | value (v : Toml)
  | table (origin : Origin) (entries : List (String × Node))
  /-- The tables of one array, the last one first. -/
  | tables (items : List (List (String × Node)))
  deriving Inhabited

namespace Node

/-- Change the entry of a name by a function that gets what is there. -/
def update? (name : String) (f : Option Node → Option Node) :
    List (String × Node) → Option (List (String × Node))
  | [] => (f none).map fun n => [(name, n)]
  | (n, node) :: rest =>
      if n = name then (f (some node)).map fun node => (n, node) :: rest
      else (update? name f rest).map ((n, node) :: ·)

/-- Whether a path may pass a table.  A dotted key passes no table with a header of its own, and
ends only in a table that came about by a dotted key. -/
def passes (origin : Origin) (isLast : Bool) (o : Origin) : Bool :=
  origin != .dotted || (if isLast then o == .dotted else o != .header)

/-- Change the entries that a path leads to.  A table on the way is made when it is missing, and
an array of tables stands for its last table. -/
def descend? (origin : Origin) (f : List (String × Node) → Option (List (String × Node))) :
    List String → List (String × Node) → Option (List (String × Node))
  | [], entries => f entries
  | name :: path, entries =>
      update? name (fun
        | none => (descend? origin f path []).map (.table origin)
        | some (.table o inner) =>
            if passes origin path.isEmpty o then
              (descend? origin f path inner).map (.table o)
            else none
        | some (.tables (last :: before)) =>
            if passes origin path.isEmpty .implied then
              (descend? origin f path last).map fun last => .tables (last :: before)
            else none
        | some (.tables []) => none
        | some (.value _) => none) entries

def put? (name : String) (v : Toml) (entries : List (String × Node)) :
    Option (List (String × Node)) :=
  update? name (fun
    | none => some (.value v)
    | some _ => none) entries

def openTable? (name : String) (entries : List (String × Node)) :
    Option (List (String × Node)) :=
  update? name (fun
    | none => some (.table .header [])
    | some (.table .implied inner) => some (.table .header inner)
    | some _ => none) entries

def openItem? (name : String) (entries : List (String × Node)) : Option (List (String × Node)) :=
  update? name (fun
    | none => some (.tables [[]])
    | some (.tables items) => some (.tables ([] :: items))
    | some _ => none) entries

def insert? (path : List String) (v : Toml) (entries : List (String × Node)) :
    Option (List (String × Node)) :=
  match path.getLast? with
  | some name => descend? .dotted (put? name v) path.dropLast entries
  | none => none

mutual

/-- The value of a node that grows no more. -/
def toToml : Node → Toml
  | .value v => v
  | .table _ entries => .table (entriesToToml entries)
  | .tables items => .array (itemsToToml items).reverse

def entriesToToml : List (String × Node) → List (String × Toml)
  | [] => []
  | (name, node) :: rest => (name, toToml node) :: entriesToToml rest

def itemsToToml : List (List (String × Node)) → List Toml
  | [] => []
  | entries :: rest => .table (entriesToToml entries) :: itemsToToml rest

end

end Node

namespace Reader

mutual

def value : Nat → Reader Toml
  | 0 => refuse
  | fuel + 1 => do
      match ← peek with
      | '"' :: rest =>
          let (s, rest) ← ofOption (stringRest? '"' true rest)
          goOn rest
          return .string (String.ofList s)
      | '\'' :: rest =>
          let (s, rest) ← ofOption (stringRest? '\'' false rest)
          goOn rest
          return .string (String.ofList s)
      | '[' :: rest =>
          goOn rest
          return .array (← items fuel [])
      | '\x7b' :: rest =>
          goOn rest
          skipBlanks
          match ← peek with
          | '\x7d' :: rest =>
              goOn rest
              return .table []
          | _ => return (Node.table .header (← members fuel [])).toToml
      | _ => bareScalar

/-- The items of an array up to its bracket; a comma may stand before it. -/
def items : Nat → List Toml → Reader (List Toml)
  | 0, _ => refuse
  | fuel + 1, read => do
      skipFiller
      match ← peek with
      | ']' :: rest =>
          goOn rest
          return read.reverse
      | _ =>
          let item ← value fuel
          skipFiller
          match ← peek with
          | ',' :: rest =>
              goOn rest
              items fuel (item :: read)
          | ']' :: rest =>
              goOn rest
              return (item :: read).reverse
          | _ => refuse

/-- The members of an inline table up to its brace; it stays on one line. -/
def members : Nat → List (String × Node) → Reader (List (String × Node))
  | 0, _ => refuse
  | fuel + 1, entries => do
      let path ← key
      match ← peek with
      | '=' :: rest =>
          goOn rest
          skipBlanks
          let v ← value fuel
          skipBlanks
          let entries ← ofOption (Node.insert? path v entries)
          match ← peek with
          | ',' :: rest =>
              goOn rest
              members fuel entries
          | '\x7d' :: rest =>
              goOn rest
              return entries
          | _ => refuse
      | _ => refuse

end

end Reader

end TieredUdf.Toml
