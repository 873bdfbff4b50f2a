import ScripCheck.Editor.Workspace
import ScripCheck.Files.Tree
import ScripCheck.Main
import ScripCheck.Proofs.Check.Alone
import ScripCheck.Proofs.Check.Dump
import ScripCheck.Proofs.Check.EarliestError
import ScripCheck.Proofs.Check.ErrorPositions
import ScripCheck.Proofs.Check.Nodes
import ScripCheck.Proofs.Check.Reported
import ScripCheck.Proofs.Check.Respaced
import ScripCheck.Proofs.Check.Underlined
import ScripCheck.Proofs.Check.Written
import ScripCheck.Proofs.Command.Endings
import ScripCheck.Proofs.Command.ExitTable
import ScripCheck.Proofs.Editor.Notices
import ScripCheck.Proofs.Token.LineSeam
import ScripCheck.Proofs.Token.MaximalMunch
import ScripCheck.Proofs.Tree.Line
import ScripCheck.Proofs.Tree.OpenSpans
import ScripCheck.Proofs.Tree.Progress
import ScripCheck.Proofs.Tree.Statement
