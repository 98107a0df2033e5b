import JsonnetLens.Text.Quoted
import JsonnetLens.Text.Digit
/-!
# Reading a command line

A grammar has options and one operand, which is one argument or takes everything from its first
argument on.  Long options may be cut short where that is unambiguous.  A value follows its option
as the next argument, after an equals sign or joined to a short option; what is joined to a short
flag names further short options.  Two dashes end the options.  Arguments with no place are left
over.
-/
namespace JsonnetLens.CommandLine

inductive OptionKind where
  /-- Shows the help and ends the program. -/
  | help
  | flag
  /-- Takes a value; if there are choices, one of them. -/
  | value (choices : List Text)
  deriving DecidableEq, Repr

/-- An option by its names, the one it is known by first. -/
structure OptionSpec where
  names : List Text
  kind : OptionKind
  deriving DecidableEq, Repr

structure Grammar where
  program : Text
  usage : Text
  help : Text
  options : List OptionSpec
  operand : Text
  /-- Whether the operand takes all further arguments, options included. -/
  takesRest : Bool

/-- An option as given: the name in full, and the text joined to it.  An equals sign that parts the
name from the text belongs to neither. -/
structure Given where
  spec : OptionSpec
  name : Text
  joined : Option Text

/-- Whether the name is one dash and one character. -/
def Given.isShort (given : Given) : Bool := given.name[1]? ≠ some '-'

inductive Item where
  /-- An option, or what looks like one and is unknown. -/
  | option (text : Text) (given : Option Given)
  | plain (text : Text)
  /-- The two dashes that end the options. -/
  | dashes

namespace Item

def isOption : Item → Bool
  | option .. => true
  | _ => false

def text : Item → Text
  | option t _ => t
  | plain t => t
  | dashes => "--".toList

end Item

namespace Grammar

variable (g : Grammar)

def names : List (Text × OptionSpec) := g.options.flatMap fun spec => spec.names.map (·, spec)

def find? (name : Text) : Option OptionSpec := g.names.lookup name

/-- How the options are called together. -/
def title (spec : OptionSpec) : Text := Text.join ['/'] spec.names

/-! ## Telling options from other arguments -/

/-- A minus sign and a number; that is no option. -/
def isNegativeNumber (t : Text) : Bool :=
  let body := if t.getLast? = some '\n' then t.dropLast else t
  match body with
  | '-' :: rest =>
    let whole := rest.takeWhile Text.isDigit
    match rest.dropWhile Text.isDigit with
    | [] => !whole.isEmpty
    | '.' :: fraction => !fraction.isEmpty && fraction.all Text.isDigit
    | _ => false
  | _ => false

/-- The options that an argument may mean which is not the full name of one. -/
def candidates (t : Text) : List Given :=
  match t with
  | '-' :: '-' :: _ =>
    let (start, joined) :=
      match Text.cutFirst? '=' t with
      | some (start, value) => (start, some value)
      | none => (t, none)
    (g.names.filter fun (name, _) => (Text.after? start name).isSome).map fun (name, spec) =>
      { spec, name, joined }
  | _ =>
    (g.names.filter fun (name, _) => name = t.take 2).map fun (name, spec) =>
      { spec, name, joined := some (t.drop 2) }

/-- The option whose full name stands before an equals sign. -/
def beforeEquals? (t : Text) : Option Given :=
  match Text.cutFirst? '=' t with
  | some (name, value) => (g.find? name).map fun spec => { spec, name, joined := some value }
  | none => none

def ambiguous (t : Text) (found : List Given) : Text :=
  "ambiguous option: ".toList ++ t ++ " could match ".toList ++
    Text.join ", ".toList (found.map Given.name)

def classify (t : Text) : Except Text Item :=
  if t.head? ≠ some '-' then .ok (.plain t)
  else
    match g.find? t with
    | some spec => .ok (.option t (some ⟨spec, t, none⟩))
    | none =>
      if t.length = 1 then .ok (.plain t)
      else
        match g.beforeEquals? t with
        | some given => .ok (.option t (some given))
        | none =>
          match g.candidates t with
          | [] => .ok (if isNegativeNumber t || t.contains ' ' then .plain t else .option t none)
          | [given] => .ok (.option t (some given))
          | found => .error (ambiguous t found)

def classifyAll : List Text → Except Text (List Item)
  | [] => .ok []
  | t :: rest =>
    if t = "--".toList then .ok (.dashes :: rest.map Item.plain)
    else do
      let item ← g.classify t
      return item :: (← classifyAll rest)

/-! ## Options and their values -/

/-- The options that one argument gives, and whether the next argument is the value of the last
one. -/
structure Expansion where
  taken : List (OptionSpec × Option Text)
  usesNext : Bool := false

def expectedOne (spec : OptionSpec) : Text :=
  "argument ".toList ++ title spec ++ ": expected one argument".toList

def ignoredValue (spec : OptionSpec) (value : Text) : Text :=
  "argument ".toList ++ title spec ++ ": ignored explicit argument ".toList ++
    Quoted.quote (WideText.ofText value)

def expandAlone (spec : OptionSpec) (next : Option Item) : Except Text Expansion :=
  match spec.kind with
  | .value _ =>
    match next with
    | some (.plain value) => .ok { taken := [(spec, some value)], usesNext := true }
    | _ => .error (expectedOne spec)
  | _ => .ok { taken := [(spec, none)] }

/-- The value in a text joined to an option.  Two dashes are no value: the option counts as given,
and a value that was given before them is taken back. -/
def joinedValue? (t : Text) : Option Text := if t = "--".toList then none else some t

/-- Expands an option with a text joined to it.  An option that takes a value takes the whole text;
a short flag lets the first character name the next option, with the remainder joined to that
one. -/
def expandJoined (next : Option Item) (spec : OptionSpec) (isShort : Bool) :
    Text → Except Text Expansion
  | [] =>
    match spec.kind with
    | .value _ => .ok { taken := [(spec, some [])] }
    | _ => .error (ignoredValue spec [])
  | c :: rest =>
    match spec.kind with
    | .value _ => .ok { taken := [(spec, joinedValue? (c :: rest))] }
    | _ =>
      match if isShort then g.find? ['-', c] else none with
      | none => .error (ignoredValue spec (c :: rest))
      | some further => do
        let expansion ←
          if rest.isEmpty then expandAlone further next
          else expandJoined next further true rest
        return { expansion with taken := (spec, none) :: expansion.taken }

def expand (given : Given) (next : Option Item) : Except Text Expansion :=
  match given.joined with
  | none => expandAlone given.spec next
  | some t => g.expandJoined next given.spec given.isShort t

/-! ## The whole line -/

/-- What has been read so far. -/
structure Reading where
  /-- The arguments of the operand, once it has been read. -/
  operand : Option (List Text) := none
  /-- The options in order, each with its value. -/
  options : List (OptionSpec × Option Text) := []
  leftOver : List Text := []

inductive Stop where
  | help
  | failure (message : Text)

def badChoice (subject value : Text) (choices : List Text) : Text :=
  "argument ".toList ++ subject ++ ": invalid choice: ".toList ++
    Quoted.quote (WideText.ofText value) ++ " (choose from ".toList ++
    Text.join ", ".toList (choices.map fun c => Quoted.quote (WideText.ofText c)) ++ [')']

/-- Acts on one option. -/
def act (spec : OptionSpec) (value : Option Text) (r : Reading) : Except Stop Reading :=
  match spec.kind, value with
  | .help, _ => .error .help
  | .value choices, some v =>
    if choices.isEmpty || choices.contains v then
      .ok { r with options := r.options ++ [(spec, some v)] }
    else .error (.failure (badChoice (title spec) v choices))
  | _, value => .ok { r with options := r.options ++ [(spec, value)] }

def actAll (r : Reading) (taken : List (OptionSpec × Option Text)) : Except Stop Reading :=
  taken.foldlM (fun r (spec, value) => act spec value r) r

/-- The operand at the end of the options: its arguments and those after it. -/
def lastOperand? : List Item → Option (List Text × List Item)
  | .plain t :: .dashes :: rest =>
    if g.takesRest then some (t :: "--".toList :: rest.map Item.text, []) else some ([t], rest)
  | .plain t :: rest =>
    if g.takesRest then some (t :: rest.map Item.text, []) else some ([t], rest)
  | .dashes :: .plain t :: rest =>
    if g.takesRest then some ("--".toList :: t :: rest.map Item.text, []) else some ([t], rest)
  | _ => none

/-- Reads what follows the last option. -/
def finish (items : List Item) (r : Reading) : Reading :=
  match r.operand with
  | some _ => { r with leftOver := r.leftOver ++ items.map Item.text }
  | none =>
    match g.lastOperand? items with
    | some (operand, rest) =>
      { r with operand := some operand, leftOver := r.leftOver ++ rest.map Item.text }
    | none => { r with leftOver := r.leftOver ++ items.map Item.text }

def readItems : (skip : Bool) → List Item → Reading → Except Stop Reading
  | _, [], r => .ok (g.finish [] r)
  | true, _ :: rest, r => readItems false rest r
  | false, item :: rest, r =>
    if !(item :: rest).any Item.isOption then .ok (g.finish (item :: rest) r)
    else
      match item with
      | .option t none => readItems false rest { r with leftOver := r.leftOver ++ [t] }
      | .option _ (some given) =>
        match g.expand given rest.head? with
        | .error message => .error (.failure message)
        | .ok expansion =>
          match actAll r expansion.taken with
          | .error stop => .error stop
          | .ok r => readItems expansion.usesNext rest r
      | item =>
        match r.operand with
        | some _ => readItems false rest { r with leftOver := r.leftOver ++ [item.text] }
        | none =>
          if g.takesRest then .ok { r with operand := some ((item :: rest).map Item.text) }
          else readItems false rest { r with operand := some [item.text] }

def missing (operand : Text) : Text :=
  "the following arguments are required: ".toList ++ operand

/-- Reads the arguments; the operand is required. -/
def read (arguments : List Text) : Except Stop (List Text × Reading) :=
  match g.classifyAll arguments with
  | .error message => .error (.failure message)
  | .ok items =>
    match g.readItems false items {} with
    | .error stop => .error stop
    | .ok r =>
      match r.operand with
      | some operand => .ok (operand, r)
      | none => .error (.failure (missing g.operand))

end Grammar
end JsonnetLens.CommandLine
