import ArrowCheck.Main
import ArrowCheck.Typing.Step
import ArrowCheck.Proofs.Store.Links
import ArrowCheck.Proofs.Store.Models
import ArrowCheck.Proofs.Typing.Annotations
import ArrowCheck.Proofs.Typing.Decision
import ArrowCheck.Proofs.Grammar.Acceptance
import ArrowCheck.Proofs.Layout.Lexing
import ArrowCheck.Proofs.Layout.Printing
import ArrowCheck.Proofs.Layout.Reading
import ArrowCheck.Proofs.Layout.Stability
import ArrowCheck.Proofs.Store.Classes
import ArrowCheck.Proofs.Store.Growth
import ArrowCheck.Proofs.Store.Merging
import ArrowCheck.Proofs.Store.Order
import ArrowCheck.Proofs.Typing.Principal
import ArrowCheck.Proofs.Typing.Extension
import ArrowCheck.Proofs.Typing.Operations
import ArrowCheck.Proofs.Typing.Choice
import ArrowCheck.Proofs.Typing.Avoidance
import ArrowCheck.Proofs.Typing.Ranges
import ArrowCheck.Proofs.Typing.Nesting
import ArrowCheck.Proofs.Typing.Safety
import ArrowCheck.Proofs.Typing.Unions
import ArrowCheck.Proofs.Typing.Guards
import ArrowCheck.Proofs.Grammar.Places
import ArrowCheck.Proofs.Grammar.Building
import ArrowCheck.Proofs.Grammar.Scanning
import ArrowCheck.Proofs.Grammar.TypeBuilding
import ArrowCheck.Proofs.Grammar.ProgramBuilding
import ArrowCheck.Proofs.Token.Tiling
import ArrowCheck.Proofs.Relocation.Trees
import ArrowCheck.Proofs.Relocation.Placement
import ArrowCheck.Proofs.Relocation.Types
import ArrowCheck.Proofs.Relocation.Programs
import ArrowCheck.Proofs.Token.Appending
import ArrowCheck.Proofs.Relocation.Concatenation
import ArrowCheck.Proofs.Relocation.Respacing
import ArrowCheck.Proofs.Layout.NormalForm
import ArrowCheck.Proofs.Recovery.Reports
import ArrowCheck.Proofs.Recovery.Order
import ArrowCheck.Proofs.Recovery.Progress
import ArrowCheck.Proofs.Recovery.Characters
import ArrowCheck.Proofs.Layout.Framing
import ArrowCheck.Proofs.Recovery.Stopping
import ArrowCheck.Proofs.Recovery.AnyType
import ArrowCheck.Proofs.Token.LongestMatch
import ArrowCheck.Proofs.Token.Defects
import ArrowCheck.Proofs.Source.Lines
import ArrowCheck.Proofs.Typing.Tables
import ArrowCheck.Proofs.Diagnostic.Underline
import ArrowCheck.Proofs.Project.Selection
import ArrowCheck.Proofs.Text.Utf8
import ArrowCheck.Proofs.Store.Display
