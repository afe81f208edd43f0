import AttributeViews.Text.Split

/-!
# Command-line arguments

Arguments are options, which start with a dash, and words.  An option has a long name and perhaps a
letter.  The value of an option that takes one follows as the next argument or in the same one,
behind an equals sign after a long name and directly after a letter.  Letters of options without a
value can be run together.  A lone dash is a word, and `--` ends the options.

* `OptionSpec` — what is known of an option.
* `readArguments` — options and words.  A command takes options between its words; a group stops at
  its first word, which names a command.
-/

namespace AttributeViews

/-- An option: its long name without the dashes, its letter, and whether it takes a value. -/
structure OptionSpec where
  long : String
  letter : Option Char
  takesValue : Bool

/-- Arguments sorted out: the options with their values, and the words, both in order. -/
structure Arguments where
  options : List (String × Option String)
  words : List String

namespace Arguments

/-- No arguments. -/
def none : Arguments := ⟨[], []⟩

/-- Put an option in front. -/
def withOption (name : String) (value : Option String) (a : Arguments) : Arguments :=
  { a with options := (name, value) :: a.options }

/-- Put a word in front. -/
def withWord (word : String) (a : Arguments) : Arguments := { a with words := word :: a.words }

/-- Whether an option is given. -/
def has (a : Arguments) (name : String) : Bool := a.options.any (·.1 == name)

/-- The values that an option is given, in order. -/
def valuesOf (a : Arguments) (name : String) : List String :=
  a.options.filterMap fun o => if o.1 = name then o.2 else .none

/-- The value of an option; if it is given several times, the last one counts. -/
def lastValue? (a : Arguments) (name : String) : Option String := (a.valuesOf name).getLast?

end Arguments

/-- What an argument is, as far as its own text tells. -/
inductive ArgumentForm where
  | word
  | endOfOptions
  /-- An option by its long name, with the value in the same argument. -/
  | long (name : String) (value : Option String)
  /-- Options by their letters. -/
  | letters (cs : List Char)

/-- The form of an argument, by the dashes in front. -/
def ArgumentForm.of (argument : String) : ArgumentForm :=
  match argument.toList with
  | ['-', '-'] => .endOfOptions
  | '-' :: '-' :: rest =>
      match Text.cutChars? '=' rest with
      | some (name, value) => .long (String.ofList name) (some (String.ofList value))
      | none => .long (String.ofList rest) none
  | ['-'] => .word
  | '-' :: rest => .letters rest
  | _ => .word

/-- Read the letters of an argument: the options, and the one that still needs the next argument as
its value. -/
def readLetters (specs : List OptionSpec) :
    List Char → Option (List (String × Option String) × Option String)
  | [] => some ([], none)
  | c :: rest => do
      let spec ← specs.find? (·.letter == some c)
      if spec.takesValue then
        if rest.isEmpty then return ([], some spec.long)
        else return ([(spec.long, some (String.ofList rest))], none)
      else
        let (options, open?) ← readLetters specs rest
        return ((spec.long, none) :: options, open?)

/-- Sort arguments out; nothing if one of them is not understood.  `mixed` says whether options may
stand behind words.  `awaiting` is the option whose value is the next argument. -/
def readArguments (specs : List OptionSpec) (mixed : Bool) (awaiting : Option String) :
    List String → Option Arguments
  | [] => if awaiting.isSome then none else some .none
  | argument :: rest =>
      match awaiting with
      | some name => (readArguments specs mixed none rest).map (·.withOption name (some argument))
      | none =>
          match ArgumentForm.of argument with
          | .endOfOptions => some ⟨[], rest⟩
          | .word =>
              if mixed then (readArguments specs mixed none rest).map (·.withWord argument)
              else some ⟨[], argument :: rest⟩
          | .long name value => do
              let spec ← specs.find? (·.long == name)
              match spec.takesValue, value with
              | true, none => readArguments specs mixed (some name) rest
              | true, some v => return (← readArguments specs mixed none rest).withOption name (some v)
              | false, none => return (← readArguments specs mixed none rest).withOption name none
              | false, some _ => none
          | .letters cs => do
              let (options, open?) ← readLetters specs cs
              let a ← readArguments specs mixed open? rest
              return { a with options := options ++ a.options }

end AttributeViews
