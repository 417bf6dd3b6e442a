/-
**The command line.**

There are two commands.  The command `match` takes a pattern text and a text, prints whether the one
matches the other, and says so in its status too.  With `--verbose` it reports how the pattern text
was read, or why it cannot be read.  The command `test` hands its arguments on to the tests.

Which command the arguments ask for, and which argument is bound to which of its operands, is not
decided here.  A reader of arguments does that by the usage text, and it may also end the run by
itself, where help is asked for or the arguments fit no usage.  The reader and the tests belong to
the setting in which a command is run; what is proved about a command depends on the reader only
through what it binds.

Main definitions:

* `StarPattern.CommandLine.Outcome` — the status and what is written;
* `StarPattern.CommandLine.Invocation` — what the arguments ask for;
* `StarPattern.CommandLine.Setting` — what a command is run with;
* `StarPattern.CommandLine.Setting.respondTo` — the outcome for an invocation;
* `StarPattern.CommandLine.Setting.respond` — the outcome for a list of arguments.
-/
import StarPattern.Engine
import StarPattern.Language.Writing

set_option relaxedAutoImplicit false
set_option autoImplicit false

namespace StarPattern

namespace CommandLine

/-! ### Invocations and settings -/

/-- The status of a run and what it writes. -/
structure Outcome where
  status : Nat
  stdout : Text
  stderr : Text
  deriving DecidableEq, Repr

/-- What the arguments ask for: a decision about two texts, or the tests. -/
inductive Invocation
  | decide (verbose : Bool) (pattern text : Text)
  | test (arguments : List Text)
  deriving DecidableEq, Repr

/-- The usage text. -/
def usage : Text :=
  ("\n" ++
    "    Usage:\n" ++
    "      regex_lite match [--verbose] [--] <pattern> <text>\n" ++
    "      regex_lite test [<args>...]\n" ++
    "      regex_lite -h | --help\n" ++
    "\n" ++
    "    Options:\n" ++
    "      -h --help     Show this.\n" ++
    "      -v --verbose  Log debug messages and explain invalid patterns.\n" ++
    "    ").toList

/-- A reader of arguments takes a usage text and the arguments, and tells what they ask for, or how
the run ends if they ask for no command. -/
abbrev Reader := Text → List Text → Except Outcome Invocation

/-- What a command is run with. -/
structure Setting where
  /-- The name under which the command reports. -/
  component : Text
  /-- The characters that a printed form shows. -/
  repertoire : Repertoire
  /-- The reader of the arguments. -/
  reader : Reader
  /-- The outcome of the tests for the name of the program and their arguments. -/
  runTests : List Text → Outcome

/-! ### Outcomes -/

/-- Each text on a line of its own. -/
def lines (texts : List Text) : Text := texts.flatMap fun text => text ++ ['\n']

namespace Setting

/-- The report of how a pattern text was read: the text of its pattern, or the rejection. -/
def readingReport (setting : Setting) (text : Text) : Except Fault (List Text) :=
  match Language.standard.parse text with
  | .error rejection => .ok [rejection.message]
  | .ok pattern => do
    let written ← Language.standard.write (.valid pattern)
    return [LogRecord.line ⟨setting.component, "parsed pattern ".toList ++ written⟩]

/-- What a verbose run writes besides its answer: the report, and the records that are logged while
the pattern text is read once more for the decision. -/
def diagnostics (setting : Setting) (text : Text) : Except Fault (List Text) := do
  let report ← setting.readingReport text
  return report ++ (Language.standard.log setting.repertoire text).map LogRecord.line

/-- The outcome for an invocation; the tests are handed the name of the program too. -/
def respondTo (setting : Setting) (program : List Text) : Invocation → Except Fault Outcome
  | .decide verbose pattern text => do
    let report ← if verbose then setting.diagnostics pattern else .ok []
    let holds ← decideMatch (.text pattern) (.text text)
    return if holds then ⟨0, lines ["true".toList], lines report⟩
      else ⟨1, lines ["false".toList], lines report⟩
  | .test arguments => .ok (setting.runTests (program ++ arguments))

/-- The outcome for a list of arguments, of which the first is the name of the program. -/
def respond (setting : Setting) (arguments : List Text) : Except Fault Outcome :=
  match setting.reader usage (arguments.drop 1) with
  | .error outcome => .ok outcome
  | .ok invocation => setting.respondTo (arguments.take 1) invocation

end Setting

end CommandLine

end StarPattern
