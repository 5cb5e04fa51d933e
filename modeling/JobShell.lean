import JobShell.Main
import JobShell.Proofs.Chain
import JobShell.Proofs.Engine.Assignments
import JobShell.Proofs.Engine.Failures
import JobShell.Proofs.Engine.Resolution
import JobShell.Proofs.Engine.Notices
import JobShell.Proofs.Engine.Substitution
import JobShell.Proofs.Fields
import JobShell.Proofs.Hub.Delivery
import JobShell.Proofs.JobSpec
import JobShell.Proofs.Literal
import JobShell.Proofs.Numeral
import JobShell.Proofs.Overrides
import JobShell.Proofs.Redirections
import JobShell.Proofs.Settings
import JobShell.Proofs.Tree
import JobShell.Tree.Build
