import Leasehold.CallOverride
import Leasehold.Config.Load
import Leasehold.Log.Line
import Leasehold.Manager
import Leasehold.Proofs.Admission
import Leasehold.Proofs.Agreement
import Leasehold.Proofs.Atomicity
import Leasehold.Proofs.Attempts
import Leasehold.Proofs.Conformance
import Leasehold.Proofs.Contest
import Leasehold.Proofs.Contract
import Leasehold.Proofs.Discretion
import Leasehold.Proofs.Extension
import Leasehold.Proofs.Freeing
import Leasehold.Proofs.Holding
import Leasehold.Proofs.Identity
import Leasehold.Proofs.Independence
import Leasehold.Proofs.Indifference
import Leasehold.Proofs.Interruption
import Leasehold.Proofs.Lapse
import Leasehold.Proofs.Loading
import Leasehold.Proofs.LogContext
import Leasehold.Proofs.MutualExclusion
import Leasehold.Proofs.Opening
import Leasehold.Proofs.Orphans
import Leasehold.Proofs.Overlay
import Leasehold.Proofs.Pseudonyms
import Leasehold.Proofs.ReadBack
import Leasehold.Proofs.Report
import Leasehold.Proofs.Rerun
import Leasehold.Proofs.Residue
import Leasehold.Proofs.Sweeper
import Leasehold.Proofs.Tenure
import Leasehold.Proofs.TimeSource
import Leasehold.Proofs.Together
import Leasehold.Proofs.Upkeep
import Leasehold.Proofs.Withdrawal
import Leasehold.Proofs.Yaml.Depth
import Leasehold.Service.Memory
