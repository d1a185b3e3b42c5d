import LiteralGrammar.Describe
import LiteralGrammar.Main
import LiteralGrammar.Proofs.Image
import LiteralGrammar.Proofs.Recompile
import LiteralGrammar.Proofs.WellFormed
import LiteralGrammar.Proofs.Verdict
import LiteralGrammar.Proofs.LastEdit
import LiteralGrammar.Proofs.Command.Grammar
import LiteralGrammar.Proofs.Command.LastWriter
import LiteralGrammar.Proofs.Command.RoundTrip
import LiteralGrammar.Proofs.Command.Check
import LiteralGrammar.Proofs.Command.Refusal
import LiteralGrammar.Proofs.Agreement
import LiteralGrammar.Proofs.Canonical
import LiteralGrammar.Proofs.Command.PresetReport
import LiteralGrammar.Proofs.SingleEdit
import LiteralGrammar.Proofs.Views
import LiteralGrammar.Proofs.Spelling
