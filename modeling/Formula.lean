import Formula.Main
import Formula.Proofs.Substitution
import Formula.Proofs.Printing
import Formula.Proofs.SinglePass
import Formula.Proofs.History
import Formula.Proofs.Recency
import Formula.Proofs.Transparency
import Formula.Proofs.Spacing
import Formula.Proofs.Depth
import Formula.Proofs.CodeText
import Formula.Proofs.Commands
import Formula.Proofs.Conservation
import Formula.Proofs.Extension
import Formula.Proofs.LetterCase
import Formula.Proofs.Indentation
import Formula.Proofs.Inclusion
import Formula.Proofs.Pointwise
import Formula.Proofs.SideEffects
import Formula.Proofs.Extents
import Formula.Proofs.Variable
import Formula.Proofs.FirstPoint
import Formula.Proofs.Points
import Formula.Proofs.WalkBack
import Formula.Proofs.Spellings
