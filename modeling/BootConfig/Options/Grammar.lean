import BootConfig.Text.Digit
import BootConfig.Text.Quoted

/-!
# Option grammar

How a list of arguments is split into options and their values. The grammar knows the spellings of
the options and how many values each takes; what an option does is not its concern.

* `classify`: what one argument is. An option may be shortened to a part of its spelling that no
  other spelling starts with, and its value may be attached with an equals sign.
* `scan`: the options that occur in a list of arguments, in order, with the texts of their values.
-/

namespace BootConfig.Options

/-- How many values an option takes. -/
inductive Arity where
  | none
  | one
  | optional
  | many
deriving DecidableEq, Inhabited

/-- An option: its spellings, how many values it takes, and what it stands for. -/
structure OptionForm (α : Type) where
  spellings : List String
  arity : Arity
  meaning : α
deriving Inhabited

/-- Options in the order in which they were declared. -/
abbrev Table (α : Type) := List (OptionForm α)

/-- Why arguments are refused by the grammar. -/
inductive GrammarFault where
  /-- An argument that several spellings start with. -/
  | ambiguous (arg : String) (candidates : List String)
  /-- An option without the values it has to have. -/
  | missingValue (spellings : List String) (arity : Arity)
  /-- A value attached to an option that takes none. -/
  | ignoredValue (spellings : List String) (value : String)
deriving DecidableEq

def optionName (spellings : List String) : String := "argument " ++ "/".intercalate spellings

def GrammarFault.message : GrammarFault → String
  | .ambiguous arg candidates =>
    let listed := ", ".intercalate candidates
    s!"ambiguous option: {arg} could match {listed}"
  | .missingValue spellings arity =>
    let count := if arity == .many then "at least one" else "one"
    s!"{optionName spellings}: expected {count} argument"
  | .ignoredValue spellings value =>
    s!"{optionName spellings}: ignored explicit argument {Quoted.ofString value}"

/-! ## Single arguments -/

/-- An argument recognised as an option. -/
structure Spelled (α : Type) where
  option : OptionForm α
  spelling : String
  /-- The value attached to it. -/
  attached : Option String

/-- What an argument is. -/
inductive Reading (α : Type) where
  /-- It may be the value of an option. -/
  | plain
  /-- Two hyphens: no options follow. -/
  | separator
  /-- It looks like an option but is none. -/
  | unknown
  | option (s : Spelled α)

namespace Reading

def isPlain {α : Type} : Reading α → Bool
  | .plain => true
  | _ => false

end Reading

def separator : String := "--"

def startsWith (s start : String) : Bool := start.toList.isPrefixOf s.toList

def find? {α : Type} (table : Table α) (spelling : String) : Option (OptionForm α) :=
  table.find? fun o => o.spellings.contains spelling

/-- All spellings with their options, in the order of declaration. -/
def spellings {α : Type} (table : Table α) : List (String × OptionForm α) :=
  table.flatMap fun o => o.spellings.map fun s => (s, o)

/-- The parts of an argument before and after its first equals sign. -/
def cutAtEquals (arg : String) : Option (String × String) :=
  let cs := arg.toList
  match cs.dropWhile (· != '=') with
  | [] => none
  | _ :: value => some (String.ofList (cs.takeWhile (· != '=')), String.ofList value)

def isDigit (c : Char) : Bool := Digit.isDigit (CodePoint.ofChar c)

/-- Digits, or digits with a point before the last of them. -/
def isUnsignedNumber (cs : List Char) : Bool :=
  match cs.dropWhile isDigit with
  | [] => !cs.isEmpty
  | c :: rest => c == '.' && !rest.isEmpty && rest.all isDigit

/-- A negative number is a value, not an option. One line feed may follow it. -/
def isNegativeNumber (arg : String) : Bool :=
  match arg.toList with
  | '-' :: cs =>
    isUnsignedNumber cs || (cs.getLast? == some '\n' && isUnsignedNumber cs.dropLast)
  | _ => false

/-- The options that an argument may be short for. After two hyphens a value may be attached with an
equals sign; after one hyphen and one letter it may follow directly. -/
def candidates {α : Type} (table : Table α) (abbreviations : Bool) (arg : String) :
    List (Spelled α) :=
  if startsWith arg separator then
    if abbreviations then
      let (start, attached) := match cutAtEquals arg with
        | some (start, value) => (start, some value)
        | none => (arg, none)
      ((spellings table).filter fun p => startsWith p.1 start).map fun p => ⟨p.2, p.1, attached⟩
    else []
  else
    let letter := String.ofList (arg.toList.take 2)
    let tail := String.ofList (arg.toList.drop 2)
    (spellings table).filterMap fun p =>
      if p.1 == letter then some ⟨p.2, p.1, some tail⟩
      else if startsWith p.1 arg then some ⟨p.2, p.1, none⟩
      else none

/-- What an argument is. -/
def classify {α : Type} (table : Table α) (abbreviations : Bool) (arg : String) :
    Except GrammarFault (Reading α) :=
  if !startsWith arg "-" then .ok .plain
  else match find? table arg with
    | some o => .ok (.option ⟨o, arg, none⟩)
    | none =>
      if arg == "-" then .ok .plain
      else
        let exact := (cutAtEquals arg).bind fun p =>
          (find? table p.1).map fun o => Spelled.mk o p.1 (some p.2)
        match exact with
        | some s => .ok (.option s)
        | none =>
          match candidates table abbreviations arg with
          | [s] => .ok (.option s)
          | [] =>
            if isNegativeNumber arg || arg.toList.contains ' ' then .ok .plain else .ok .unknown
          | several => .error (.ambiguous arg (several.map Spelled.spelling))

/-- What each argument is. Behind a separator all are plain. -/
def classifyAll {α : Type} (table : Table α) (abbreviations : Bool) :
    List String → Except GrammarFault (List (String × Reading α))
  | [] => .ok []
  | arg :: rest =>
    if arg == separator then
      .ok ((arg, .separator) :: rest.map fun r => (r, .plain))
    else do
      let reading ← classify table abbreviations arg
      return (arg, reading) :: (← classifyAll table abbreviations rest)

/-! ## Options with their values -/

/-- An option that occurs among the arguments, with the texts of its values. -/
structure Occurrence (α : Type) where
  option : OptionForm α
  values : List String

/-- The options that occur among the arguments, up to the first fault, and what belongs to none. -/
structure Scan (α : Type) where
  occurrences : List (Occurrence α)
  leftover : List String
  fault : Option GrammarFault

namespace Scan

def stop {α : Type} (f : GrammarFault) : Scan α := ⟨[], [], some f⟩

def after {α : Type} (s : Scan α) (os : List (Occurrence α)) : Scan α :=
  { s with occurrences := os ++ s.occurrences }

def leaving {α : Type} (s : Scan α) (arg : String) : Scan α :=
  { s with leftover := arg :: s.leftover }

end Scan

/-- A value given as two hyphens counts as no value. -/
def attachedValues (value : String) : List String := if value == separator then [] else [value]

/-- An option with a text attached. Letters attached to an option that takes no value are options of
their own; the last of them may still need values. -/
def cluster {α : Type} (table : Table α) (o : OptionForm α) (singleHyphen : Bool) :
    List Char → Except GrammarFault (List (Occurrence α) × Option (OptionForm α))
  | [] =>
    if o.arity != .none then .ok ([⟨o, attachedValues ""⟩], none)
    else .error (.ignoredValue o.spellings "")
  | c :: rest =>
    let text := String.ofList (c :: rest)
    if o.arity != .none then .ok ([⟨o, attachedValues text⟩], none)
    else match singleHyphen, find? table (String.ofList ['-', c]) with
      | true, some next =>
        if rest.isEmpty then .ok ([⟨o, []⟩], some next)
        else (cluster table next true rest).map fun p => (⟨o, []⟩ :: p.1, p.2)
      | _, _ => .error (.ignoredValue o.spellings text)

/-- How many of the values that follow an option belong to it. -/
def valueCount (arity : Arity) (available : Nat) : Option Nat :=
  match arity with
  | .none => some 0
  | .one => if available = 0 then none else some 1
  | .optional => some (min 1 available)
  | .many => if available = 0 then none else some available

/-- The options that occur among classified arguments. -/
def collect {α : Type} (table : Table α) : List (String × Reading α) → Scan α
  | [] => ⟨[], [], none⟩
  | (arg, reading) :: rest =>
    match reading with
    | .option s =>
      let start := match s.attached with
        | some value => cluster table s.option (!startsWith s.spelling separator) value.toList
        | none => .ok ([], some s.option)
      match start with
      | .error f => .stop f
      | .ok (done, none) => (collect table rest).after done
      | .ok (done, some o) =>
        let following := (rest.takeWhile fun r => r.2.isPlain).map Prod.fst
        match valueCount o.arity following.length with
        | none => .stop (.missingValue o.spellings o.arity)
        | some n => (collect table (rest.drop n)).after (done ++ [⟨o, following.take n⟩])
    | _ => (collect table rest).leaving arg
termination_by args => args.length
decreasing_by all_goals simp only [List.length_cons, List.length_drop]; omega

/-- The options that occur among the arguments. An ambiguous argument anywhere spoils the whole
list. -/
def scan {α : Type} (table : Table α) (abbreviations : Bool) (args : List String) :
    Except GrammarFault (Scan α) :=
  (classifyAll table abbreviations args).map (collect table)

end BootConfig.Options
