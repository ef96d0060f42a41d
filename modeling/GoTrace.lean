import GoTrace.Main
import GoTrace.Proofs.Command.Output
import GoTrace.Proofs.Command.OutputName
import GoTrace.Proofs.Command.Run
import GoTrace.Proofs.Command.Target
import GoTrace.Proofs.Grammar.FaultyImport
import GoTrace.Proofs.Grammar.FunctionBody
import GoTrace.Proofs.Grammar.Grouping
import GoTrace.Proofs.Grammar.Initialiser
import GoTrace.Proofs.Grammar.LineBreaks
import GoTrace.Proofs.Grammar.Outlines
import GoTrace.Proofs.Imports.Folding
import GoTrace.Proofs.Literal.Accepted
import GoTrace.Proofs.Literal.Numeral
import GoTrace.Proofs.Literal.Spelling
import GoTrace.Proofs.Module.CacheName
import GoTrace.Proofs.Module.Layout
import GoTrace.Proofs.Parser.Faults
import GoTrace.Proofs.Resolve.ArrayLengths
import GoTrace.Proofs.Resolve.BreakingOff
import GoTrace.Proofs.Resolve.Cycles
import GoTrace.Proofs.Resolve.FileOrder
import GoTrace.Proofs.Resolve.Flattened
import GoTrace.Proofs.Resolve.ImportTables
import GoTrace.Proofs.Resolve.Requests
import GoTrace.Proofs.Resolve.WellFormed
import GoTrace.Proofs.Resolve.Written
import GoTrace.Proofs.Signature.Collecting
import GoTrace.Proofs.Workspace.BuildConstraint
import GoTrace.Proofs.Workspace.Candidates
import GoTrace.Proofs.Workspace.Directories
import GoTrace.Proofs.Wrapper.Additions
import GoTrace.Proofs.Wrapper.Aliases
import GoTrace.Proofs.Wrapper.Hiding
import GoTrace.Proofs.Wrapper.ImportLiterals
import GoTrace.Proofs.Wrapper.Mentions
import GoTrace.Proofs.Wrapper.OwnNames
