import CommandShell.Main
import CommandShell.Rehearsal
import CommandShell.Proofs.Boundaries
import CommandShell.Proofs.Buffering
import CommandShell.Proofs.Composition
import CommandShell.Proofs.Compositional
import CommandShell.Proofs.Failures
import CommandShell.Proofs.FaultTexts
import CommandShell.Proofs.Flushing
import CommandShell.Proofs.LastFlush
import CommandShell.Proofs.LaunchOutcomes
import CommandShell.Proofs.LineByLine
import CommandShell.Proofs.MaximalParts
import CommandShell.Proofs.Rebuilding
import CommandShell.Proofs.Reports
import CommandShell.Proofs.Respacing
import CommandShell.Proofs.Spacing
import CommandShell.Proofs.Stretches
import CommandShell.Proofs.Transport
import CommandShell.Proofs.Truncation
import CommandShell.Proofs.Views
import CommandShell.Proofs.WorkingDirectory
import CommandShell.Proofs.Joining
import CommandShell.Proofs.Routing
import CommandShell.Proofs.Waiting
import CommandShell.Proofs.Turns
