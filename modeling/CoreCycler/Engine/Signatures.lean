import CoreCycler.Library.Regex
import CoreCycler.Engine.Execution
import Mathlib.Tactic.Tauto

/-!
# What the backends read out of a payload's output

`parse_output` and `poll_errors` of the four backends, and the class `classify_error` gives
the messages they return.  A finding keeps which of the backend's return statements a message
came from: the engine moves an offset on a wrong answer and must not move one on a fault of
the apparatus, and all it sees of the two is the class of the message.
-/

namespace CoreCycler
namespace Engine

open Library.Text
open Library.Text (Regex)

/-- The character classes of a regular expression: `\d`, `\s` and `\w`. -/
structure CharClasses where
  digit : Char → Bool
  space : Char → Bool
  word : Char → Bool

/-- The classes within ASCII. -/
def CharClasses.ascii : CharClasses where
  digit := Char.isDigit
  space := fun c => c ∈ [' ', '\t', '\n', '\r', '\x0b', '\x0c']
  word := fun c => c.isAlphanum || c = '_'

/-- One of the error patterns a backend looks for. -/
structure Signature where
  pattern : Regex
  /-- The letters it matches, where they are its own. -/
  letters : Option String
  /-- The payload reports a wrong answer, and not that it could not run. -/
  wrongAnswer : Bool := true

namespace Signature

/-- A signature of fixed letters, in any case. -/
def fixed (letters : String) (wrongAnswer : Bool := true) : Signature :=
  { pattern := .literal letters.toList, letters := some letters, wrongAnswer }

end Signature

/-- The first signature of a list that occurs in the text, with the text it matched. -/
def firstSignature (signatures : List Signature) (text : List Char) :
    Option (Signature × List Char) :=
  signatures.findSome? fun signature =>
    (signature.pattern.search text).map fun found => (signature, found)

/-- `.`: any character but a line break. -/
def anyInLine (c : Char) : Bool := c ≠ '\n'

def oneToNine (c : Char) : Bool := '1'.val ≤ c.val && c.val ≤ '9'.val

/-! ## The backends -/

inductive Backend where
  | mprime
  | yCruncher
  | stressNg
  | stressapptest
deriving DecidableEq, Repr

def Backend.name : Backend → String
  | .mprime => "mprime"
  | .yCruncher => "y-cruncher"
  | .stressNg => "stress-ng"
  | .stressapptest => "stressapptest"

/-- What a read of the output comes to, by the return statement it leaves through. -/
inductive Finding where
  /-- One of the backend's own wrong-answer signatures. -/
  | wrongAnswer (message : String)
  /-- The payload reports that it could not run as it was told to. -/
  | refused (message : String)
  /-- The harness kept the payload from running where it should. -/
  | harness (message : String)
  /-- The result cannot be read. -/
  | unreadable (message : String)
  /-- Ended by the supervisor's signal. -/
  | stopped
  /-- Ended by a signal of an instability. -/
  | crashed (message : String)
  /-- Any other exit. -/
  | exited (message : String)
deriving DecidableEq

/-- The pair `parse_output` returns. -/
def Finding.result : Finding → Bool × Option String
  | .stopped => (true, none)
  | .wrongAnswer message | .refused message | .harness message | .unreadable message
  | .crashed message | .exited message => (false, some message)

def killedByUsCodes : List Int := [-9, -15, 137, 143]

/-- Signal codes of a CPU instability. -/
def crashSignal : Int → Option String
  | -4 => some "SIGILL"
  | -5 => some "SIGTRAP"
  | -6 => some "SIGABRT"
  | -7 => some "SIGBUS"
  | -8 => some "SIGFPE"
  | -11 => some "SIGSEGV"
  | _ => none

/-- Classify a termination after backend-specific errors have been excluded. -/
def indefiniteExitVerdict (backend : Backend) (returnCode : Int) : Finding :=
  if returnCode ∈ killedByUsCodes then
    .stopped
  else
    match crashSignal returnCode with
    | some signal =>
        .crashed s!"{backend.name} crashed with {signal} (exit {returnCode})"
    | none =>
        .exited s!"{backend.name} exited with code {returnCode} - verdict unavailable"

/-- A message that quotes what was matched. -/
def quote (head : String) (found : List Char) : String :=
  head ++ ": " ++ String.ofList found

section Parsing

variable (classes : CharClasses)

/-- `Torture Test completed .* - [1-9]\d* errors`. -/
def tortureSummary : Regex :=
  .seq (.literal "Torture Test completed ".toList)
    (.seq (.many anyInLine)
      (.seq (.literal " - ".toList)
        (.seq (.one oneToNine) (.seq (.many classes.digit) (.literal " errors".toList)))))

/-- Fatal error signatures of Prime95. -/
def fatalPatterns : List Signature :=
  [.fixed "FATAL ERROR",
    .fixed "ERROR: ILLEGAL SUMOUT",
    .fixed "Possible hardware failure",
    .fixed "Hardware failure detected",
    .fixed "Maximum number of warnings exceeded",
    .fixed "TORTURE TEST FAILED",
    { pattern := tortureSummary classes, letters := none },
    .fixed "ERROR: SUM(INPUTS) != SUM(OUTPUTS)",
    .fixed "ERROR: Shift counter corrupt",
    .fixed "ERROR: Illegal double encountered",
    .fixed "ERROR: FFT data has been zeroed",
    .fixed "ERROR: Jacobi error check failed",
    .fixed "Warning: ILLEGAL SUMOUT",
    .fixed "Warning: SUMOUT MISMATCH"]

/-- `[1-9]\d*\s+FAILED`. -/
def countFailed : Regex :=
  .seq (.one oneToNine) (.seq (.many classes.digit)
    (.seq (.one classes.space) (.seq (.many classes.space) (.literal "FAILED".toList))))

/-- `\bFAIL\b(?!\w)`. -/
def standaloneFail : Regex :=
  .seq (.boundary classes.word) (.seq (.literal "FAIL".toList)
    (.seq (.boundary classes.word) (.notAhead (.one classes.word))))

/-- `error.*incorrect`. -/
def errorIncorrect : Regex :=
  .seq (.literal "error".toList) (.seq (.many anyInLine) (.literal "incorrect".toList))

/-- `killed by signal \d+`. -/
def killedBySignal : Regex :=
  .seq (.literal "killed by signal ".toList)
    (.seq (.one classes.digit) (.many classes.digit))

/-- The error patterns of stress-ng: its verification failures, then its own abortions. -/
def stressNgPatterns : List Signature :=
  [{ pattern := countFailed classes, letters := none },
    { pattern := standaloneFail classes, letters := some "FAIL" },
    .fixed "verification error",
    .fixed "computation mismatch",
    { pattern := errorIncorrect, letters := none },
    { pattern := killedBySignal classes, letters := none, wrongAnswer := false },
    .fixed "out of memory" false]

/-- `\x1b\[[0-9;]*m`. -/
def ansi : Regex :=
  .seq (.one (· == '\x1b')) (.seq (.one (· == '['))
    (.seq (.many fun c => c.isDigit || c == ';') (.one (· == 'm'))))

/-- `Failed to set core affinity to core: *\d+`. -/
def unpinned : Regex :=
  .seq (.literal "Failed to set core affinity to core:".toList)
    (.seq (.many (· == ' ')) (.seq (.one classes.digit) (.many classes.digit)))

def computationPatterns : List Signature :=
  [.fixed "Error(s) encountered", .fixed "Coefficient is too large",
    .fixed "Checksum mismatch"]

/-- `\bFAIL(?:ED)?\b`. -/
def failOrFailed : Regex :=
  .seq (.boundary classes.word) (.seq (.literal "FAIL".toList)
    (.seq (.alt (.literal "ED".toList) .empty) (.boundary classes.word)))

/-- `(?<!Stop on )\bError\b(?!\s+Checking)`. -/
def standaloneError : Regex :=
  .seq (.notBehind ("Stop on ".toList.map sameLetter)) (.seq (.boundary classes.word)
    (.seq (.literal "Error".toList) (.seq (.boundary classes.word)
      (.notAhead (.seq (.one classes.space)
        (.seq (.many classes.space) (.literal "Checking".toList)))))))

def errorPatterns : List Signature :=
  [.fixed "Invalid Parameter" false,
    { pattern := failOrFailed classes, letters := none, wrongAnswer := false },
    { pattern := standaloneError classes, letters := none, wrongAnswer := false }]

/-- What stressapptest prints of a memory error. -/
def miscompareSignatures : List String :=
  ["miscompare", "hardware error", "hardware incident", "status: fail"]

def combine (stdout stderr : String) : List Char :=
  (stdout ++ "\n" ++ stderr).toList

/-- The finding on a signature that occurs in the text. -/
def Signature.finding (head : String) (signature : Signature) (found : List Char) : Finding :=
  if signature.wrongAnswer then .wrongAnswer (quote head found) else .refused (quote head found)

/-- `parse_output` of the four backends. -/
def parseOutput (backend : Backend) (stdout stderr : String) (returnCode : Int) : Finding :=
  let combined := combine stdout stderr
  match backend with
  | .mprime =>
      match firstSignature (fatalPatterns classes) combined with
      | some (signature, found) => signature.finding "mprime error" found
      | none => indefiniteExitVerdict .mprime returnCode
  | .stressNg =>
      match firstSignature (stressNgPatterns classes) combined with
      | some (signature, found) => signature.finding "stress-ng error" found
      | none => indefiniteExitVerdict .stressNg returnCode
  | .stressapptest =>
      let lowered := combined.flatMap lowerChar
      match miscompareSignatures.find? fun signature => decide (Mentions lowered signature) with
      | some signature =>
          .wrongAnswer s!"stressapptest: '{signature}' - memory errors detected"
      | none => indefiniteExitVerdict .stressapptest returnCode
  | .yCruncher =>
      let plain := ansi.remove combined
      -- A thread that left its lane says nothing about the core, so it is looked for first.
      match (unpinned classes).search plain with
      | some found =>
          .harness <| "harness error: y-cruncher could not keep a thread on its lane (" ++
            String.ofList found ++ ")"
      | none =>
          match firstSignature computationPatterns plain with
          | some (signature, found) => signature.finding "y-cruncher computation error" found
          | none =>
              match firstSignature (errorPatterns classes) plain with
              | some (signature, found) => signature.finding "y-cruncher error" found
              | none => indefiniteExitVerdict .yCruncher returnCode

/-- `results.txt` of a running payload. -/
inductive ResultsFile where
  | missing
  | unreadable (exc : String)
  | content (text : String)

/-- `poll_errors`; only mprime keeps running after an error. -/
def pollErrors (backend : Backend) (results : ResultsFile) : Option Finding :=
  match backend with
  | .mprime =>
      match results with
      | .missing => none
      | .unreadable exc =>
          some (.unreadable s!"Failed to read results.txt ({exc}) - verdict unavailable")
      | .content text =>
          (firstSignature (fatalPatterns classes) text.toList).map fun match_ =>
            match_.1.finding "mprime error" match_.2
  | .yCruncher | .stressNg | .stressapptest => none

end Parsing

/-- The classes `_on_test_finished` takes as a verdict on the core. -/
def ErrorType.isVerdict (errorType : ErrorType) : Bool :=
  errorType ∉ [.startup, .thermal, .stall, .killed, .mceUnattributed, .unknown]

/-- A wrong answer is a verdict, and what says nothing about the core is none. -/
def Finding.Classed : Finding → Prop
  | .wrongAnswer message => (classifyError (some message)).isVerdict = true
  | .harness message | .unreadable message | .exited message =>
      (classifyError (some message)).isVerdict = false
  | .refused _ | .stopped | .crashed _ => True

/-! ## The words of a message -/

/-- `exited with code -` and a digit. -/
def exitPhrases : List String :=
  "0123456789".toList.map fun digit => "exited with code -" ++ String.ofList [digit]

/-- Every phrase that the class of a message depends on. -/
def messagePhrases : List String :=
  startupPhrases ++ [unattributedPhrase, "mce", "machine check", "temperature", "thermal",
    "stall"] ++ computationPhrases ++ ["timeout", "killed externally", "crash", "signal", "idle",
    "variable", "transition"] ++ exitPhrases

/-- No phrase spans the colon of a quotation. -/
theorem messagePhrases_apart : ∀ phrase ∈ messagePhrases,
    phrase.toList ≠ [] ∧ ':' ∉ phrase.toList ∧ phrase.toList.head? ≠ some ' ' ∧
      ∀ c ∈ phrase.toList, isPlain c = true := by
  have hall : ∀ phrase ∈ messagePhrases,
      phrase.toList ≠ [] ∧ ':' ∉ phrase.toList ∧ phrase.toList.head? ≠ some ' ' ∧
        phrase.toList.all isPlain = true := by
    decide +kernel
  simpa only [List.all_eq_true] using hall

/-- A signature with letters of its own matches just these, and has no words besides
computation words. -/
def Signature.OwnLetters (signature : Signature) : Prop :=
  ∀ letters, signature.letters = some letters →
    (∀ found, signature.pattern.Spelled found →
      (Regex.literal letters.toList).Spelled found) ∧
    (∀ c ∈ letters.toList, isPlain c = true) ∧
    ∀ phrase ∈ messagePhrases, Mentions (lower letters) phrase → phrase ∈ computationPhrases

/-- Matched letters have no words that the signature's own letters lack. -/
theorem Signature.OwnLetters.mentions {signature : Signature} (hown : signature.OwnLetters)
    {letters : String} (hletters : signature.letters = some letters) {found : List Char}
    (hfound : signature.pattern.Spelled found) {phrase : String}
    (hphrase : phrase ∈ messagePhrases) (hin : Mentions (found.flatMap lowerChar) phrase) :
    Mentions (lower letters) phrase :=
  have hlit := hown letters hletters
  infix_of_literal hlit.2.1 (messagePhrases_apart phrase hphrase).2.2.2 (hlit.1 found hfound) hin

section Worded

variable (classes : CharClasses)

/-- A call of a backend that reads a payload's output. -/
inductive ReadCall where
  | parseOutput (backend : Backend) (stdout stderr : String) (returnCode : Int)
  | pollErrors (backend : Backend) (results : ResultsFile)

/-- What the call finds; a poll of an error-free file finds nothing. -/
def ReadCall.finding : ReadCall → Option Finding
  | .parseOutput backend stdout stderr returnCode =>
      some (Engine.parseOutput classes backend stdout stderr returnCode)
  | .pollErrors backend results => Engine.pollErrors classes backend results

end Worded

/-! ## Wrong answers and verdicts -/

section Findings

variable {classes : CharClasses}

end Findings

end Engine
end CoreCycler
