import Reckoner.Text.Digit

/-!
# Arguments of a command line

An argument is an option, a word, or the divider `--`, behind which every argument is a word.  A
long option may be shortened as long as only one option begins that way, and short options without
values may be written together.

* `Switch` — an option that a command knows.
* `Argument` — an argument with the role that it plays.
* `Argument.ofTexts?` — the roles of arguments, unless one of them could be several options.
* `spell` — the switches in one argument.
* `Reading.ofArguments` — what arguments say.
-/

namespace Reckoner.CommandLine

open Reckoner.Text

/-- What an option stands for. -/
inductive Use (α : Type) where
  | flag (flag : α)
  /-- The option has a value. -/
  | value (flag : String → α)

/-- An option that a command knows. -/
structure Switch (α : Type) where
  names : List String
  use : Use α

/-- The role of an argument. -/
inductive Role (α : Type) where
  | word
  | divider
  /-- An option, whose name begins with two dashes if it is long, and the text that is attached to
      it, if any. -/
  | switch (use : Use α) (isLong : Bool) (attached : Option (List Char))
  /-- It looks like an option, but the command does not know it. -/
  | unknown

/-- An argument with its role. -/
structure Argument (α : Type) where
  text : String
  role : Role α

variable {α : Type}

/-! ### Roles -/

/-- What the option with a name stands for. -/
def use? (switches : List (Switch α)) (name : List Char) : Option (Use α) :=
  (switches.find? fun s => s.names.contains (String.ofList name)).map (·.use)

/-- What the options whose names begin in some way stand for. -/
def usesFrom (switches : List (Switch α)) (start : List Char) : List (Use α) :=
  switches.flatMap fun s => (s.names.filter fun n => start.isPrefixOf n.toList).map fun _ => s.use

/-- The name of an option and the text behind its first equals sign. -/
def cutAtEquals (arg : List Char) : List Char × Option (List Char) :=
  match arg.dropWhile (· != '=') with
  | _ :: value => (arg.takeWhile (· != '='), some value)
  | [] => (arg, none)

/-- Whether characters are digits, at least one of them. -/
def areDigits (s : List Char) : Bool := !s.isEmpty && s.all isDigit

/-- Whether what follows a minus sign is a number, which may have a line break behind it. -/
def isNumeral (s : List Char) : Bool :=
  let s := if s.getLast? = some '\n' then s.dropLast else s
  match s.dropWhile isDigit with
  | [] => areDigits s
  | c :: fraction => c == '.' && areDigits fraction

/-- The role of an argument that begins with a dash and is no option as it stands. -/
def dashedRole? (switches : List (Switch α)) (arg : List Char) : Option (Role α) :=
  let isLong := (arg.drop 1).head? = some '-'
  let (name, attached) := cutAtEquals arg
  let candidates :=
    match attached, use? switches name with
    | some a, some u => [(u, some a)]
    | _, _ =>
      if isLong then (usesFrom switches name).map fun u => (u, attached)
      else ((use? switches (arg.take 2)).map fun u => (u, some (arg.drop 2))).toList
  match candidates with
  | [] => some (if isNumeral (arg.drop 1) || arg.contains ' ' then .word else .unknown)
  | [(u, a)] => some (.switch u isLong a)
  | _ => none

/-- The role of an argument, unless it could be several options. -/
def role? (switches : List (Switch α)) (arg : List Char) : Option (Role α) :=
  match arg with
  | '-' :: rest =>
    match use? switches arg with
    | some u => some (.switch u (rest.head? = some '-') none)
    | none => if rest.isEmpty then some .word else dashedRole? switches arg
  | _ => some .word

/-- The roles of arguments, unless one of them could be several options. -/
def Argument.ofTexts? (switches : List (Switch α)) : List String → Option (List (Argument α))
  | [] => some []
  | arg :: args =>
    if arg = "--" then some (⟨arg, .divider⟩ :: args.map fun word => ⟨word, .word⟩)
    else do
      let role ← role? switches arg.toList
      return ⟨arg, role⟩ :: (← ofTexts? switches args)

/-! ### Options -/

/-- The switches in one argument. -/
inductive Spelled (α : Type) where
  | complete (flags : List α)
  /-- The last one needs a value. -/
  | wanting (flags : List α) (last : String → α)
  /-- A text is attached to an option that has no value, and it is not made of options. -/
  | faulty

/-- The switches in an argument that begins with one more flag. -/
def Spelled.after (flag : α) : Spelled α → Spelled α
  | complete flags => complete (flag :: flags)
  | wanting flags last => wanting (flag :: flags) last
  | faulty => faulty

/-- The value that an attached text is.  The divider says nothing as a value. -/
def valueText (attached : List Char) : String :=
  if attached = "--".toList then "" else String.ofList attached

/-- The switches in an argument that begins with a short option without a value, to which a text is
    attached: every letter has to be one more option, up to one that has the rest for its value. -/
def spellLetters (switches : List (Switch α)) (flag : α) : List Char → Spelled α
  | [] => .faulty
  | c :: rest =>
    match use? switches ['-', c], rest with
    | none, _ => .faulty
    | some (.flag next), [] => .complete [flag, next]
    | some (.flag next), d :: rest => (spellLetters switches next (d :: rest)).after flag
    | some (.value last), [] => .wanting [flag] last
    | some (.value last), d :: rest => .complete [flag, last (valueText (d :: rest))]

/-- The switches in one argument. -/
def spell (switches : List (Switch α)) (use : Use α) (isLong : Bool)
    (attached : Option (List Char)) : Spelled α :=
  match use, attached with
  | .flag flag, none => .complete [flag]
  | .value last, none => .wanting [] last
  | .value last, some text => .complete [last (valueText text)]
  | .flag flag, some text => if isLong then .faulty else spellLetters switches flag text

/-! ### Readings -/

/-- Which words are expected. -/
inductive Expected where
  /-- The name of a command, and whatever follows it. -/
  | command
  /-- Words, which follow each other without options among them. -/
  | words
  /-- More words of those that have begun. -/
  | moreWords
  | nothing
deriving DecidableEq

/-- What arguments say. -/
structure Reading (α : Type) where
  /-- The flags, up to the first fault. -/
  flags : List α
  words : List String
  /-- Whether there are arguments that are not expected. -/
  hasStrays : Bool
  /-- Whether an option is written in a way that it cannot be. -/
  isFaulty : Bool

namespace Reading

/-- No arguments say nothing. -/
def empty : Reading α := ⟨[], [], false, false⟩

/-- A fault, behind which nothing is read. -/
def fault : Reading α := ⟨[], [], false, true⟩

/-- The reading of arguments that begin with flags. -/
def withFlags (flags : List α) (r : Reading α) : Reading α := { r with flags := flags ++ r.flags }

/-- The reading of arguments that begin with a word. -/
def withWord (word : String) (r : Reading α) : Reading α := { r with words := word :: r.words }

/-- The reading of arguments with one that is not expected. -/
def withStray (r : Reading α) : Reading α := { r with hasStrays := true }

/-- What is expected behind an option. -/
def afterSwitch : Expected → Expected
  | .moreWords => .nothing
  | e => e

/-- What arguments say. -/
def ofArguments (switches : List (Switch α)) : Expected → List (Argument α) → Reading α
  | _, [] => empty
  | expected, ⟨text, .word⟩ :: rest =>
    match expected with
    | .command => { (empty : Reading α) with words := text :: rest.map (·.text) }
    | .words | .moreWords => (ofArguments switches .moreWords rest).withWord text
    | .nothing => (ofArguments switches .nothing rest).withStray
  | expected, ⟨_, .divider⟩ :: rest =>
    match expected with
    | .command => fault
    | .words =>
      if rest.isEmpty then withStray empty else ofArguments switches .moreWords rest
    | .moreWords => ofArguments switches .moreWords rest
    | .nothing => (ofArguments switches .nothing rest).withStray
  | expected, ⟨_, .unknown⟩ :: rest =>
    (ofArguments switches (afterSwitch expected) rest).withStray
  | expected, ⟨_, .switch use isLong attached⟩ :: rest =>
    let next := afterSwitch expected
    match spell switches use isLong attached with
    | .complete flags => (ofArguments switches next rest).withFlags flags
    | .faulty => fault
    | .wanting flags last =>
      match rest with
      | ⟨text, .word⟩ :: rest => (ofArguments switches next rest).withFlags (flags ++ [last text])
      | _ => fault

end Reading

end Reckoner.CommandLine
