import SimFerret.Workload.Archive
import SimFerret.Workload.Resolve
import SimFerret.Workload.Elf
import SimFerret.Workload.Identity
import SimFerret.Workload.Listing
import SimFerret.Frames
import SimFerret.Meaning
import SimFerret.Driver.Phases
import SimFerret.Driver.Conforming
import SimFerret.Driver.NetworkVerdict
import SimFerret.Driver.Lawful
import SimFerret.Driver.Fits
import SimFerret.Driver.Passable
import SimFerret.Driver.Sanitize
import SimFerret.Driver.Divergence
import SimFerret.Driver.Preflight
import SimFerret.Guest.Report
import SimFerret.Guest.History
import SimFerret.Guest.Refusal
import SimFerret.Guest.Batch
import SimFerret.Guest.Serial
import SimFerret.Store.Invariant
import SimFerret.Store.Load
import SimFerret.Store.Image
import SimFerret.Checker.Framing
import SimFerret.Workload.PathLaws
import SimFerret.Fixture
import SimFerret.Checker.Stderr
import SimFerret.Digests
import SimFerret.Guest.Processes
import SimFerret.Vm.Identity
import SimFerret.Vm.Interleaving
import SimFerret.Store.Concurrent
import SimFerret.Store.Roundtrip
import SimFerret.Run.Binding
