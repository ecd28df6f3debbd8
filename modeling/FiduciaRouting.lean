import FiduciaRouting.Proofs.CliEnvironment
import FiduciaRouting.Proofs.CliOutput
import FiduciaRouting.Proofs.CliPrecedence
import FiduciaRouting.Proofs.DomainKeys
import FiduciaRouting.Proofs.Emission
import FiduciaRouting.Proofs.LockModes
import FiduciaRouting.Proofs.ModelAgreement
import FiduciaRouting.Proofs.ModelVerify
import FiduciaRouting.Proofs.NearestRegion
import FiduciaRouting.Proofs.OrgIsolation
import FiduciaRouting.Proofs.RegionCoverage
import FiduciaRouting.Proofs.RegionSelection
import FiduciaRouting.Proofs.ReplayConformance
import FiduciaRouting.Proofs.ReplayRefinement
import FiduciaRouting.Proofs.Resharding
import FiduciaRouting.Proofs.Spread
import FiduciaRouting.Proofs.SuffixColocation
