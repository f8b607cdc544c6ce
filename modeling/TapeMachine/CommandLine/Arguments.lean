import TapeMachine.Numeral
import TapeMachine.Text.Quoted

/-!
# Command-line arguments

The command line takes one program and five options.  Options may stand before or after the
program.  Short options may be joined, the last one with its value; a long option may be cut short
as long as it stays unambiguous; a value may follow its option after an equals sign, at once, or in
the next word; a word `--` ends the options.

`Arguments.classify` says what each word is, on its own, and `Arguments.parse` then takes the words
from left to right.  `Arguments.Fault` has the ways in which a command line is refused.
-/

namespace TapeMachine

namespace CommandLine

/-- The options. -/
inductive Flag where
  | help
  | console
  | modem
  | debug
  | frame
deriving DecidableEq, Repr

namespace Flag

/-- The ways to write every option, in the order in which they are listed. -/
def spellings : List (String × Flag) :=
  [("-h", .help), ("--help", .help), ("-c", .console), ("-m", .modem), ("-d", .debug),
   ("--debug", .debug), ("-f", .frame)]

/-- The option with exactly this spelling. -/
def ofSpelling? (s : String) : Option Flag := (spellings.find? fun p => p.1 == s).map (·.2)

/-- The option as messages name it. -/
def name (f : Flag) : String :=
  String.intercalate "/" ((spellings.filter fun p => p.2 == f).map (·.1))

/-- The option has a value. -/
def takesValue : Flag → Bool
  | .frame => true
  | _ => false

/-- The options that may not stand beside an option. -/
def rivals : Flag → List Flag
  | .console => [.modem]
  | .modem => [.console]
  | _ => []

end Flag

namespace Arguments

/-- Why a command line is refused. -/
inductive Fault where
  /-- A long option was cut too short. -/
  | ambiguous (word : String) (candidates : List String)
  /-- Two options exclude each other; the later one comes first. -/
  | conflict (later earlier : Flag)
  /-- The value of an option is missing. -/
  | missingValue (flag : Flag)
  /-- An option without value was given one. -/
  | ignoredValue (flag : Flag) (value : String)
  /-- The value of an option is no number. -/
  | notANumber (flag : Flag) (value : String)
  /-- The program is missing. -/
  | missingProgram
  /-- Words are left over. -/
  | unrecognized (words : List String)
deriving DecidableEq, Repr

/-- The wording of a fault. -/
def Fault.message : Fault → String
  | .ambiguous w cs => "ambiguous option: " ++ w ++ " could match " ++ String.intercalate ", " cs
  | .conflict f g => "argument " ++ f.name ++ ": not allowed with argument " ++ g.name
  | .missingValue f => "argument " ++ f.name ++ ": expected one argument"
  | .ignoredValue f v =>
    "argument " ++ f.name ++ ": ignored explicit argument " ++ String.ofList (Text.quote v.toList)
  | .notANumber f v =>
    "argument " ++ f.name ++ ": invalid int value: " ++ String.ofList (Text.quote v.toList)
  | .missingProgram => "the following arguments are required: program"
  | .unrecognized ws => "unrecognized arguments: " ++ String.intercalate " " ws

/-! ### Words -/

/-- What a word of the command line is. -/
inductive Word where
  /-- No option. -/
  | plain (text : String)
  /-- An option, spelled long or short, with what is attached to it. -/
  | option (flag : Flag) (long : Bool) (attached : Option String)
  /-- Something like an option that is none. -/
  | unknown (text : String)
  /-- The end of the options. -/
  | endOfOptions
deriving DecidableEq, Repr

/-- The word as it was written, for words that are left over. -/
def Word.leftover : Word → List String
  | .plain s | .unknown s => [s]
  | .endOfOptions => ["--"]
  | .option _ _ _ => []

/-- A word parted at its first equals sign. -/
def splitEquals (cs : List Char) : List Char × Option (List Char) :=
  match cs.dropWhile (· != '=') with
  | _ :: value => (cs.takeWhile (· != '='), some value)
  | [] => (cs, none)

/-- Decimal digits, at least one. -/
def isDigitRun (cs : List Char) : Bool := !cs.isEmpty && cs.all Text.isDecimal

/-- A number without sign: digits, or digits behind a point that may have digits in front. -/
def isUnsignedNumber (cs : List Char) : Bool :=
  isDigitRun cs ||
    match cs.dropWhile Text.isDecimal with
    | '.' :: places => isDigitRun places
    | _ => false

/-- A word that looks like a negative number; a line break may follow it. -/
def isNegativeNumber : List Char → Bool
  | '-' :: cs => isUnsignedNumber cs || (cs.getLast? == some '\n' && isUnsignedNumber cs.dropLast)
  | _ => false

/-- A word that begins with `--` and is no full option: it may be one cut short. -/
def classifyLong (word : String) : Except Fault (Option Word) :=
  let (name, value) := splitEquals word.toList
  let value := value.map String.ofList
  match Flag.spellings.filter fun p => p.1.startsWith (String.ofList name) with
  | [] => .ok none
  | [p] => .ok (some (.option p.2 true value))
  | ps => .error (.ambiguous word (ps.map (·.1)))

/-- A word that begins with a single `-` and is no full option: something may be joined to it. -/
def classifyShort (cs : List Char) : Option Word :=
  (Flag.ofSpelling? (String.ofList (cs.take 2))).map fun f =>
    .option f false (some (String.ofList (cs.drop 2)))

/-- What a word is that begins with `-` and is no full option. -/
def classifyDashed (word : String) : Except Fault Word := do
  let cs := word.toList
  let found ← match splitEquals cs with
    | (name, some value) =>
      match Flag.ofSpelling? (String.ofList name) with
      | some f => pure (some (Word.option f (name.take 2 == ['-', '-']) (some (String.ofList value))))
      | none => pure none
    | (_, none) => pure none
  let found ← match found with
    | some w => pure (some w)
    | none => if cs.take 2 == ['-', '-'] then classifyLong word else pure (classifyShort cs)
  match found with
  | some w => return w
  | none => return if isNegativeNumber cs || cs.contains ' ' then .plain word else .unknown word

/-- What a word is, as long as the options have not ended. -/
def classify (word : String) : Except Fault Word :=
  match word.toList with
  | '-' :: rest =>
    match Flag.ofSpelling? word with
    | some f => .ok (.option f (rest.head? == some '-') none)
    | none => if rest.isEmpty then .ok (.plain word) else classifyDashed word
  | _ => .ok (.plain word)

/-- What the words of a command line are. -/
def words : List String → Except Fault (List Word)
  | [] => .ok []
  | "--" :: rest => .ok (.endOfOptions :: rest.map .plain)
  | w :: rest => do
    let first ← classify w
    return first :: (← words rest)

/-! ### Settings -/

/-- What a command line asks for. -/
structure Settings where
  /-- The console is attached to the standard streams. -/
  console : Bool := false
  /-- The modem is attached to the standard streams. -/
  modem : Bool := false
  /-- Everything is logged. -/
  debug : Bool := false
  /-- The frame to be shown. -/
  frame : Option Int := none
  /-- The program. -/
  program : Option String := none
  /-- Words that are left over. -/
  extras : List String := []
deriving DecidableEq, Repr, Inhabited

namespace Settings

/-- An option was given before. -/
def has (s : Settings) : Flag → Bool
  | .console => s.console
  | .modem => s.modem
  | .debug => s.debug
  | _ => false

end Settings

/-- What happens in the course of reading a command line other than that all goes well. -/
inductive Interrupt where
  /-- Help is asked for. -/
  | help
  /-- The command line is refused. -/
  | refused (fault : Fault)
deriving DecidableEq, Repr

/-- The options that are joined in one word, each with its value, and the number of words behind it
that they take; `next` is the plain word that follows. -/
def unjoin (next : Option String) (f : Flag) (long : Bool) (attached : Option String) :
    Except Fault (List (Flag × Option String) × Nat) :=
  match attached with
  | none =>
    if f.takesValue then
      match next with
      | some v => .ok ([(f, some v)], 1)
      | none => .error (.missingValue f)
    else .ok ([(f, none)], 0)
  | some text =>
    if f.takesValue then .ok ([(f, some text)], 0)
    else if long then .error (.ignoredValue f text)
    else go f text.toList
where
  /-- The options joined to a short option without value. -/
  go (f : Flag) : List Char → Except Fault (List (Flag × Option String) × Nat)
    | [] => .error (.ignoredValue f "")
    | c :: rest =>
      match Flag.ofSpelling? (String.ofList ['-', c]) with
      | none => .error (.ignoredValue f (String.ofList (c :: rest)))
      | some g =>
        if g.takesValue then
          match rest with
          | [] =>
            match next with
            | some v => .ok ([(f, none), (g, some v)], 1)
            | none => .error (.missingValue g)
          | _ :: _ => .ok ([(f, none), (g, some (String.ofList rest))], 0)
        else
          match rest with
          | [] => .ok ([(f, none), (g, none)], 0)
          | _ :: _ => do
            let (more, taken) ← go g rest
            return ((f, none) :: more, taken)

/-- Takes an option into account. -/
def apply (s : Settings) (f : Flag) (value : Option String) : Except Interrupt Settings :=
  match f.rivals.find? s.has with
  | some g => .error (.refused (.conflict f g))
  | none =>
    match f with
    | .help => .error .help
    | .console => .ok { s with console := true }
    | .modem => .ok { s with modem := true }
    | .debug => .ok { s with debug := true }
    | .frame =>
      let text := value.getD ""
      if text = "--" then .ok { s with frame := none }
      else match Numeral.read text.toList with
        | .ok i => .ok { s with frame := some i }
        | .error _ => .error (.refused (.notANumber .frame text))

/-- Takes options into account one after another. -/
def applyAll (s : Settings) (fs : List (Flag × Option String)) : Except Interrupt Settings :=
  fs.foldlM (fun s p => apply s p.1 p.2) s

/-- The plain word that comes next, if one does. -/
def nextPlain? : List Word → Option String
  | .plain s :: _ => some s
  | _ => none

/-- The words that are left after the program: a mark of the end right behind it goes with it. -/
def afterProgram : List Word → List Word
  | .endOfOptions :: rest => rest
  | rest => rest

theorem length_afterProgram_le (ws : List Word) : (afterProgram ws).length ≤ ws.length := by
  unfold afterProgram
  split <;> simp

/-- Reads words from left to right; the first plain word is the program. -/
def take (s : Settings) : List Word → Except Interrupt Settings
  | [] => .ok s
  | .plain text :: rest =>
    match s.program with
    | none => take { s with program := some text } (afterProgram rest)
    | some _ => take { s with extras := s.extras ++ [text] } rest
  | .unknown text :: rest => take { s with extras := s.extras ++ [text] } rest
  | .endOfOptions :: rest =>
    match s.program, nextPlain? rest with
    | none, some text => take { s with program := some text } (rest.drop 1)
    | _, _ => .ok { s with extras := s.extras ++ "--" :: rest.flatMap Word.leftover }
  | .option f long attached :: rest =>
    match unjoin (nextPlain? rest) f long attached with
    | .error e => .error (.refused e)
    | .ok (fs, taken) =>
      match applyAll s fs with
      | .error e => .error e
      | .ok s' => take s' (rest.drop taken)
termination_by ws => ws.length
decreasing_by
  · exact Nat.lt_succ_of_le (length_afterProgram_le rest)
  · simp
  · simp
  · simp only [List.length_drop, List.length_cons]; omega
  · simp only [List.length_drop, List.length_cons]; omega

/-- Reads a command line: settings with a program and nothing left over. -/
def parse (args : List String) : Except Interrupt (String × Settings) :=
  match words args with
  | .error e => .error (.refused e)
  | .ok ws =>
    match take {} ws with
    | .error e => .error e
    | .ok s =>
      match s.program, s.extras with
      | none, _ => .error (.refused .missingProgram)
      | some p, [] => .ok (p, s)
      | some _, ws => .error (.refused (.unrecognized ws))

end Arguments

end CommandLine

end TapeMachine
