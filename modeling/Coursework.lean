import Coursework.Proofs.Admission
import Coursework.Proofs.Chronology
import Coursework.Proofs.Clearing
import Coursework.Proofs.Dates
import Coursework.Proofs.Dispositions
import Coursework.Proofs.Exchanges
import Coursework.Proofs.Failures
import Coursework.Proofs.Gates
import Coursework.Proofs.Granting
import Coursework.Proofs.Halts
import Coursework.Proofs.Issuers
import Coursework.Proofs.LastWrites
import Coursework.Proofs.Learning
import Coursework.Proofs.Minting
import Coursework.Proofs.Nesting
import Coursework.Proofs.Orphans
import Coursework.Proofs.Pinning
import Coursework.Proofs.Records
import Coursework.Proofs.Reordering
import Coursework.Proofs.Revisions
import Coursework.Proofs.Roles
import Coursework.Proofs.Secrecy
import Coursework.Proofs.Spellings
import Coursework.Proofs.WellFormed
import Coursework.Server.Gatehouse
import Coursework.Server.Startup
