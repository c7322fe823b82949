import Evleda.AgentRuntime.Proposals
import Evleda.Gateway.Durable
import Evleda.Gateway.Rejections
import Evleda.HumanSchematic.Wires
import Evleda.ImportApproval.LedgerAlarms
import Evleda.ImportCandidates.Calls
import Evleda.ImportCandidates.Creation
import Evleda.InterchangeArtifacts.Quarantine
import Evleda.Kernel.Locks
import Evleda.Kernel.Losses
import Evleda.Kernel.Preview
import Evleda.Kernel.Revocation
import Evleda.Kernel.SameDesign
import Evleda.KicadCompile.Decimals
import Evleda.KicadCompile.WireParts
import Evleda.KicadIo.Limits
import Evleda.KicadIo.Rendering
import Evleda.KicadProject.Contacts
import Evleda.Lib.Cyclic
import Evleda.Lib.Reader
import Evleda.Lib.Text
import Evleda.ManufacturingCandidate.FilledCopper
import Evleda.Orchestrator.Durable
import Evleda.Orchestrator.Fencing
import Evleda.Orchestrator.Gates
import Evleda.Orchestrator.Reviews
import Evleda.ProjectStore.Racing
import Evleda.ProjectStore.Transitions
import Evleda.StageJournal.Leases
import Evleda.Verification.Gates
import Evleda.Verification.Insides
import Evleda.Verification.Rings
