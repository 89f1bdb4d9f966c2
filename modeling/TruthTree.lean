import TruthTree.Main
import TruthTree.Proofs.CanonicalText
import TruthTree.Proofs.StrictReading
import TruthTree.Proofs.DecompositionMeaning
import TruthTree.Proofs.Branch
import TruthTree.Proofs.TreeBranches
import TruthTree.Proofs.Numbering
import TruthTree.Proofs.Placement
import TruthTree.Proofs.Run
import TruthTree.Proofs.Refinement
import TruthTree.Proofs.StrictRun
import TruthTree.Proofs.Soundness
import TruthTree.Proofs.RemainingWork
import TruthTree.Proofs.Completeness
import TruthTree.Proofs.Termination
import TruthTree.Proofs.Normalization
import TruthTree.Proofs.Safety
import TruthTree.Proofs.ArenaLinks
import TruthTree.Proofs.ForkLineage
import TruthTree.Proofs.Justification
import TruthTree.Proofs.AppendOnly
import TruthTree.Proofs.TextIdentity
import TruthTree.Proofs.DisplayText
import TruthTree.Proofs.OutlineText
import TruthTree.Proofs.OutlineTree
import TruthTree.Proofs.DialogueRun
import TruthTree.Proofs.SessionStep
import TruthTree.Proofs.SessionScript
import TruthTree.Proofs.StrictFlag
import TruthTree.Proofs.StrictProgram
import TruthTree.Proofs.ClosureTest
import TruthTree.Proofs.RuleMeaning
import TruthTree.Proofs.Preorder
import TruthTree.Proofs.ScanReach
import TruthTree.Proofs.ViablePrefix
import TruthTree.Proofs.DiagramTree
import TruthTree.Proofs.PremiseLayout
import TruthTree.Proofs.EntryExchanges
import TruthTree.Proofs.OperandExtent
import TruthTree.Proofs.TokenSpans
