import ClassLint.Color.Gradient
import ClassLint.Main
import ClassLint.Proofs.Scope.Factorisation
import ClassLint.Proofs.Scope.OpacityCut
import ClassLint.Proofs.Scope.VariantChain
import ClassLint.Proofs.Scope.Derivation
import ClassLint.Proofs.Conflict.History
import ClassLint.Proofs.Conflict.Anchor
import ClassLint.Proofs.Conflict.Continuation
import ClassLint.Proofs.Conflict.Rescoping
import ClassLint.Proofs.Conflict.Repetition
import ClassLint.Proofs.Conflict.ImageBackground
import ClassLint.Proofs.Conflict.ThemeBackground
import ClassLint.Proofs.Conflict.Family
import ClassLint.Proofs.Validation.Aliases
import ClassLint.Proofs.Validation.EarlierCalls
import ClassLint.Proofs.Validation.Escalation
import ClassLint.Proofs.Catalog.Grouped
import ClassLint.Proofs.Text.Trimming
import ClassLint.Proofs.Color.Reference
import ClassLint.Proofs.Color.Chain
import ClassLint.Proofs.Color.Group
import ClassLint.Proofs.Color.Spelling
import ClassLint.Proofs.Color.Reach
import ClassLint.Proofs.Color.Opacity
import ClassLint.Proofs.Text.Bytes
import ClassLint.Proofs.Sorting
import ClassLint.Proofs.Source.Order
import ClassLint.Proofs.Source.LiteralGrammar
import ClassLint.Proofs.Source.AttributeGrammar
import ClassLint.Proofs.Source.CallLockstep
import ClassLint.Proofs.Report.Agreement
import ClassLint.Proofs.Theme.Exclusion
import ClassLint.Proofs.Theme.NameCheck
import ClassLint.Proofs.Theme.ReferencedName
import ClassLint.Proofs.Theme.TokenSpelling
import ClassLint.Proofs.Validation.Verdict
import ClassLint.Proofs.Validation.SignedReference
import ClassLint.Proofs.Command.ArgumentGrammar
import ClassLint.Proofs.Conflict.Independence
import ClassLint.Proofs.Color.OklchLayout
import ClassLint.Proofs.Decimal.Reading
import ClassLint.Proofs.Source.NestedTemplate
import ClassLint.Proofs.Color.HexCodec
import ClassLint.Proofs.Color.GradientSamples
import ClassLint.Proofs.Files.Selection
import ClassLint.Proofs.Scope.BracketWord
