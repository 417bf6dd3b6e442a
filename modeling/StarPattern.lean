import StarPattern.Automaton
import StarPattern.CommandLine
import StarPattern.Cursor
import StarPattern.Engine
import StarPattern.Language.Writing
import StarPattern.Main
import StarPattern.Meaning
import StarPattern.Proofs.Matching
import StarPattern.Proofs.Table.Decision
import StarPattern.Proofs.Table.Rows
import StarPattern.Table
import StarPattern.Text.Printable
import StarPattern.Value
import StarPattern.Proofs.Automaton.Closure
import StarPattern.Proofs.Automaton.Memory
import StarPattern.Proofs.Automaton.Prefixes
import StarPattern.Proofs.Agreement
import StarPattern.Proofs.Language.RoundTrip
import StarPattern.Language.Stepwise
import StarPattern.Proofs.Language.Reading
import StarPattern.Proofs.Language.Translation
import StarPattern.Proofs.Utf8.Characters
import StarPattern.Proofs.Utf8.Decoding
import StarPattern.Proofs.Concatenation
import StarPattern.Proofs.Table.Shortcuts
import StarPattern.Proofs.AbstractAtoms
import StarPattern.Proofs.CommandLine
import StarPattern.Automaton.Stepwise
import StarPattern.Proofs.Automaton.ClosureLaws
import StarPattern.Proofs.Automaton.Visits
import StarPattern.Proofs.Comparison
import StarPattern.Proofs.Table.ClosedForm
import StarPattern.Cursor.Stepwise
import StarPattern.Value.Asking
import StarPattern.Proofs.Cursor
import StarPattern.Proofs.Equality
import StarPattern.Proofs.Text.Quoted
import StarPattern.Proofs.Printing
