import Tabletop.Calculator.Report

/-!
# The command line

Arguments are taken in order: options with a value, switches, and one input. A value is attached to
its option by `=` or is the next argument, which then must not look like an option. Behind `--` no
argument is an option. An option may be given once only.

* **Arguments.parse** reads a whole command line;
* **Options.answer** answers what was asked, and **Complaint.text** words why that failed.
-/

namespace Tabletop.Calculator

/-- Options that take a value. -/
inductive OptionName where
  | mode
  | target
  | rolls
  | seed
  | base
  | report
  | output
  | config
deriving DecidableEq, Repr

/-- Options without a value. -/
inductive Switch where
  | simplify
  | verbose
  | help
  | version
deriving DecidableEq, Repr

/-- What a word behind two dashes names. -/
def longName? : String → Option (OptionName ⊕ Switch)
  | "mode" => some (.inl .mode)
  | "to" => some (.inl .target)
  | "rolls" => some (.inl .rolls)
  | "seed" => some (.inl .seed)
  | "base" => some (.inl .base)
  | "report" => some (.inl .report)
  | "output" => some (.inl .output)
  | "config" => some (.inl .config)
  | "simplify" => some (.inr .simplify)
  | "verbose" => some (.inr .verbose)
  | "help" => some (.inr .help)
  | "version" => some (.inr .version)
  | _ => none

/-- What a letter behind one dash names. -/
def shortName? : Char → Option Switch
  | 'v' => some .verbose
  | 'h' => some .help
  | 'V' => some .version
  | _ => none

/-- What a command line may give, so far as it was given. -/
structure Arguments where
  mode : Option Mode
  input : Option String
  target : Option String
  simplify : Bool
  rolls : Option Nat
  seed : Option Nat
  base : Option String
  report : Option ReportForm
  output : Option String
  config : Option String
  verbose : Bool

/-- What a complete command line asks for. -/
structure Options where
  mode : Mode
  request : Request
  report : ReportForm
  output : Option String
  config : Option String

/-- What a command line comes to: an end before anything is calculated, or options. -/
inductive Invocation where
  | version
  | help
  | misused
  | run (options : Options)

namespace Arguments

/-- Nothing was given. -/
def none : Arguments :=
  ⟨.none, .none, .none, false, .none, .none, .none, .none, .none, .none, false⟩

/-- A field with its value, if it had none and the value could be read. -/
def once {α : Type} : Option α → Option α → Option (Option α)
  | .none, some value => some (some value)
  | _, _ => .none

/-- A path, which is not empty. -/
def path? (value : String) : Option String := if value = "" then .none else some value

/-- A number that fits into 64 bits. -/
def number? (value : String) : Option Nat := Numeral.nat? (Nat.pow 2 64 - 1) value.toList

/-- The arguments with an option, if it is new and its value can be read. -/
def give (a : Arguments) (name : OptionName) (value : String) : Option Arguments :=
  match name with
  | .mode => (once a.mode (Mode.ofName? value)).map fun mode => { a with mode }
  | .target => (once a.target (some value)).map fun target => { a with target }
  | .rolls => (once a.rolls (number? value)).map fun rolls => { a with rolls }
  | .seed => (once a.seed (number? value)).map fun seed => { a with seed }
  | .base => (once a.base (some value)).map fun base => { a with base }
  | .report => (once a.report (ReportForm.ofName? value)).map fun report => { a with report }
  | .output => (once a.output (path? value)).map fun output => { a with output }
  | .config => (once a.config (path? value)).map fun config => { a with config }

/-- The arguments with the input, if that is new. -/
def giveInput (a : Arguments) (value : String) : Option Arguments :=
  (once a.input (some value)).map fun input => { a with input }

/-- The arguments with a switch, if it is new, or the end that the switch asks for. -/
def switch (a : Arguments) : Switch → Except Invocation Arguments
  | .simplify => if a.simplify then .error .misused else .ok { a with simplify := true }
  | .verbose => if a.verbose then .error .misused else .ok { a with verbose := true }
  | .help => .error .help
  | .version => .error .version

/-- The arguments with a row of switches. -/
def switches (a : Arguments) : List Char → Except Invocation Arguments
  | [] => .ok a
  | c :: cs =>
    match shortName? c with
    | some name => do (← a.switch name).switches cs
    | .none => .error .misused

/-- Success, or a misused command line. -/
def orMisused : Option Arguments → Except Invocation Arguments
  | some a => .ok a
  | .none => .error .misused

/-- The forms of an argument. -/
inductive Shape where
  /-- Two dashes alone. -/
  | divider
  /-- Two dashes, a name, and a value behind `=`. -/
  | long (name : String) (value : Option String)
  /-- One dash and letters. -/
  | short (letters : List Char)
  | plain

/-- The form of an argument. -/
def shape (argument : String) : Shape :=
  match argument.toList with
  | ['-', '-'] => .divider
  | '-' :: '-' :: long =>
    match Text.splitOnce '=' long with
    | some (name, value) => .long (String.ofList name) (some (String.ofList value))
    | .none => .long (String.ofList long) .none
  | '-' :: c :: cs => .short (c :: cs)
  | _ => .plain

/-- Whether an argument can be the value of the option in front of it. -/
def isValue (argument : String) : Bool :=
  match shape argument with
  | .plain => true
  | _ => false

/-- Takes arguments behind `--`, which can only be the input. -/
def collectPlain (a : Arguments) (arguments : List String) : Except Invocation Arguments :=
  arguments.foldlM (fun a argument => orMisused (a.giveInput argument)) a

/-- Takes arguments in order. -/
def collect (a : Arguments) : List String → Except Invocation Arguments
  | [] => .ok a
  | argument :: rest =>
    match shape argument with
    | .divider => a.collectPlain rest
    | .plain => do (← orMisused (a.giveInput argument)).collect rest
    | .short letters => do (← a.switches letters).collect rest
    | .long name attached =>
      match longName? name, attached, rest with
      | some (.inl option), some value, rest => do (← orMisused (a.give option value)).collect rest
      | some (.inl option), .none, value :: rest =>
        if isValue value then do (← orMisused (a.give option value)).collect rest
        else .error .misused
      | some (.inr name), .none, rest => do (← a.switch name).collect rest
      | _, _, _ => .error .misused

/-- The options with what was not given filled in; there must be an input. -/
def complete (a : Arguments) : Invocation :=
  match a.input with
  | .none => .misused
  | some input =>
    .run
      { mode := a.mode.getD .rational
        request := ⟨input, a.target, a.simplify, a.rolls.getD 0, a.seed, a.base⟩
        report := a.report.getD .console
        output := a.output
        config := a.config }

/-- Reads a command line. -/
def parse (arguments : List String) : Invocation :=
  match none.collect arguments with
  | .ok a => a.complete
  | .error invocation => invocation

end Arguments

/-- A failure in the words told to the user, with the cause behind it. -/
structure Complaint where
  message : String
  cause : Option String
deriving DecidableEq, Repr

namespace Complaint

/-- A fault of a calculation. -/
def ofFault (f : Fault) : Complaint := ⟨f.message, f.cause?.map Failure.message⟩

/-- A file of settings that cannot be read. -/
def unreadFile (path reason : String) : Complaint := ⟨"failed to read " ++ path, some reason⟩

/-- A file that cannot be written. -/
def unmadeFile (path reason : String) : Complaint := ⟨"failed to create " ++ path, some reason⟩

/-- Settings that were not admitted. -/
def ofSettings (path : String) (f : SettingsFailure) : Complaint :=
  ⟨"invalid configuration in " ++ path, some f.message⟩

/-- A complaint on one line. -/
def line (c : Complaint) : String :=
  match c.cause with
  | some cause => c.message ++ ": " ++ cause
  | none => c.message

/-- A complaint with its cause, each line of which is indented. -/
def text (c : Complaint) : String :=
  "Error: " ++ c.message ++
    match c.cause with
    | some cause =>
      "\n\nCaused by:\n    " ++ String.intercalate "\n    "
        ((cause.toList.splitOn '\n').map String.ofList) ++ "\n"
    | none => "\n"

end Complaint

namespace Options

/-- The settings in the file at `path`, of which the contents or the reason why there are none is
given. -/
def settingsOf (path : String) : Except String String → Except Complaint Settings
  | .error reason => .error (.unreadFile path reason)
  | .ok source =>
    match Settings.ofJson source with
    | .ok settings => .ok settings
    | .error f => .error (.ofSettings path f)

/-- The report asked for, given what the file of settings contains if one is named. -/
def answer (o : Options) (config : Except String String) (entropy : Nat) : Except Complaint String := do
  let settings ← match o.config with
    | some path => settingsOf path config
    | none => .ok .standard
  match evaluate o.mode o.request settings entropy with
  | .ok calculation => return o.report.write calculation
  | .error f => throw (.ofFault f)

end Options

/-- The name and version of the program. -/
def versionText : String := "dma-calc 0.1.0\n"

end Tabletop.Calculator
