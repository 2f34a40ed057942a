/-!
# The command line

The program has two commands, `convert` and `check`. Options may stand before or after the
command; each may be given once on either side, and the one after the command wins. Short options
can be joined, a value can follow its option directly, and after `--` everything is a name.
-/

namespace Liquefy.Command

/-- What the program is asked to do. -/
inductive Task where
  | convert (file : String) (output : Option String)
  | check (files : List String) (strict : Bool)
  deriving DecidableEq, Repr

/-- A command line that was understood. -/
structure Invocation where
  verbose : Bool
  color : String
  task : Task
  deriving DecidableEq, Repr

/-- The stretches of a command line: before the command, or after the one or the other. -/
inductive Stretch where
  | program
  | convert
  | check
  deriving DecidableEq, Repr

/-- Why a command line leads to no task. -/
inductive Stop where
  /-- It was not understood. -/
  | usage
  /-- It asks for help with the program or with a command. -/
  | help (topic : Stretch)
  /-- It asks for the version. -/
  | version
  deriving DecidableEq, Repr

/-- An option. -/
inductive Switch where
  | verbose
  | color
  | output
  | strict
  | help
  | version
  deriving DecidableEq, Repr

namespace Switch

/-- Whether an option has a value. -/
def takesValue : Switch → Bool
  | .color => true
  | .output => true
  | _ => false

/-- The long name of an option. -/
def longName : Switch → String
  | .verbose => "verbose"
  | .color => "color"
  | .output => "output"
  | .strict => "strict"
  | .help => "help"
  | .version => "version"

/-- The letter of an option. -/
def letter? : Switch → Option Char
  | .verbose => some 'v'
  | .color => none
  | .output => some 'o'
  | .strict => some 's'
  | .help => some 'h'
  | .version => some 'V'

end Switch

namespace Stretch

/-- The options of each stretch. -/
def switches : Stretch → List Switch
  | .program => [.verbose, .color, .help, .version]
  | .convert => [.verbose, .color, .help, .output]
  | .check => [.verbose, .color, .help, .strict]

/-- The option of a long name. -/
def ofLongName? (stretch : Stretch) (name : String) : Option Switch :=
  stretch.switches.find? fun switch => switch.longName == name

/-- The option of a letter. -/
def ofLetter? (stretch : Stretch) (c : Char) : Option Switch :=
  stretch.switches.find? fun switch => switch.letter? == some c

/-- The command of a name. -/
def ofCommand? (name : String) : Option Stretch :=
  if name = "convert" then some .convert
  else if name = "check" then some .check
  else none

end Stretch

/-- What a stretch has given so far. -/
structure Given where
  verbose : Bool
  color : Option String
  output : Option String
  strict : Bool
  /-- The names that belong to no option, latest first. -/
  names : List String
  deriving DecidableEq, Repr

namespace Given

/-- Nothing yet. -/
def nothing : Given := ⟨false, none, none, false, []⟩

/-- Take an option without a value; giving it twice is refused. -/
def set (stretch : Stretch) (given : Given) : Switch → Except Stop Given
  | .verbose => if given.verbose then .error .usage else .ok { given with verbose := true }
  | .strict => if given.strict then .error .usage else .ok { given with strict := true }
  | .help => .error (.help stretch)
  | .version => .error .version
  | _ => .error .usage

/-- Take an option with its value; giving it twice is refused, and so is an output without a
name. -/
def assign (given : Given) (switch : Switch) (value : String) : Except Stop Given :=
  match switch with
  | .color =>
      if given.color.isSome then .error .usage else .ok { given with color := some value }
  | .output =>
      if given.output.isSome ∨ value = "" then .error .usage
      else .ok { given with output := some value }
  | _ => .error .usage

/-- Take a name. Only `check` takes more than one, and no file has an empty name. -/
def addName (stretch : Stretch) (given : Given) (name : String) : Except Stop Given :=
  if name = "" then .error .usage
  else
    match stretch, given.names with
    | .program, _ => .error .usage
    | .convert, _ :: _ => .error .usage
    | _, names => .ok { given with names := name :: names }

end Given

/-- What a word of the command line comes to. -/
inductive Reading where
  | taken (given : Given)
  /-- The next word is the value of an option. -/
  | awaits (given : Given) (switch : Switch)

/-- The letters of joined short options. -/
def readLetters (stretch : Stretch) (given : Given) : List Char → Except Stop Reading
  | [] => .ok (.taken given)
  | c :: cs =>
      match stretch.ofLetter? c with
      | none => .error .usage
      | some switch =>
          if switch.takesValue then
            match cs with
            | [] => .ok (.awaits given switch)
            | '=' :: value => (given.assign switch (String.ofList value)).map .taken
            | value => (given.assign switch (String.ofList value)).map .taken
          else
            match given.set stretch switch with
            | .error stop => .error stop
            | .ok given' => readLetters stretch given' cs

/-- A long option, from after its dashes. -/
def readLong (stretch : Stretch) (given : Given) (cs : List Char) : Except Stop Reading :=
  let name := String.ofList (cs.takeWhile (· ≠ '='))
  match stretch.ofLongName? name with
  | none => .error .usage
  | some switch =>
      match cs.dropWhile (· ≠ '=') with
      | [] =>
          if switch.takesValue then .ok (.awaits given switch)
          else (given.set stretch switch).map .taken
      | _ :: value =>
          if switch.takesValue then (given.assign switch (String.ofList value)).map .taken
          else .error .usage

/-- A word that can be the value of the option before it: not itself an option. -/
def isValue (word : String) : Bool :=
  match word.toList with
  | '-' :: _ :: _ => false
  | _ => true

/-- Names one after the other. -/
def addNames (stretch : Stretch) (given : Given) : List String → Except Stop Given
  | [] => .ok given
  | name :: names =>
      match given.addName stretch name with
      | .error stop => .error stop
      | .ok given' => addNames stretch given' names

/-- Read the words of a stretch. The one before the command ends with it; the command and the
words after it are then given back. -/
def readWords (stretch : Stretch) (given : Given) :
    List String → Except Stop (Given × Option (String × List String))
  | [] => .ok (given, none)
  | word :: words =>
      match word.toList with
      | ['-', '-'] => (addNames stretch given words).map fun given => (given, none)
      | '-' :: c :: cs =>
          match (if c = '-' then readLong stretch given cs else readLetters stretch given (c :: cs)) with
          | .error stop => .error stop
          | .ok (.taken given') => readWords stretch given' words
          | .ok (.awaits given' switch) =>
              match words with
              | [] => .error .usage
              | value :: words' =>
                  if isValue value then
                    match given'.assign switch value with
                    | .error stop => .error stop
                    | .ok given'' => readWords stretch given'' words'
                  else .error .usage
      | _ =>
          if stretch = .program then .ok (given, some (word, words))
          else
            match given.addName stretch word with
            | .error stop => .error stop
            | .ok given' => readWords stretch given' words

/-- The task of a command from what the words after it give. -/
def taskOf (stretch : Stretch) (given : Given) : Except Stop Task :=
  match stretch, given.names with
  | .convert, [file] => .ok (.convert file given.output)
  | .check, names => .ok (.check names.reverse given.strict)
  | _, _ => .error .usage

/-- Put together what stands before and after the command. -/
def combine (outer inner : Given) (task : Task) : Invocation where
  verbose := outer.verbose || inner.verbose
  color := (inner.color <|> outer.color).getD "auto"
  task := task

/-- The words after `help`: at most the name of a command. -/
def readHelp : List String → Stop
  | [] => .help .program
  | [name] =>
      match Stretch.ofCommand? name with
      | some topic => .help topic
      | none => if name = "help" then .help .program else .usage
  | _ => .usage

/-- The words after a command. -/
def readCommand (outer : Given) (stretch : Stretch) (words : List String) :
    Except Stop Invocation :=
  match readWords stretch .nothing words with
  | .error stop => .error stop
  | .ok (inner, _) => (taskOf stretch inner).map (combine outer inner)

/-- Understand a command line. -/
def parse (words : List String) : Except Stop Invocation :=
  match readWords .program .nothing words with
  | .error stop => .error stop
  | .ok (_, none) => .error .usage
  | .ok (outer, some (name, words')) =>
      match Stretch.ofCommand? name with
      | some stretch => readCommand outer stretch words'
      | none => .error (if name = "help" then readHelp words' else .usage)

end Liquefy.Command
