import Sitecheck.Spec.Assertion
import Sitecheck.Generate.Api
import Sitecheck.Proofs.Crawl.Termination
import Sitecheck.Proofs.Spec.Containment
import Sitecheck.Proofs.Server.Conversation
import Sitecheck.Proofs.Crawl.Limit
import Sitecheck.Proofs.Crawl.Distance
import Sitecheck.Proofs.Crawl.Nearest
import Sitecheck.Proofs.Execute.Report
import Sitecheck.Proofs.Graph.Restored
import Sitecheck.Proofs.Settings.Merge
import Sitecheck.Proofs.Server.Release
import Sitecheck.Proofs.Crawl.PicturePath
import Sitecheck.Proofs.Crawl.Depth
import Sitecheck.Proofs.Crawl.Links
import Sitecheck.Proofs.Server.Unsaved
import Sitecheck.Proofs.Server.Update
import Sitecheck.Proofs.Server.Confinement
import Sitecheck.Proofs.Generate.Readers
import Sitecheck.Proofs.Report.Attribution
import Sitecheck.Proofs.Generate.Distinct
import Sitecheck.Proofs.Spec.Api
import Sitecheck.Proofs.Execute.Config
import Sitecheck.Proofs.Execute.Partition
import Sitecheck.Proofs.Analyze.Sources
import Sitecheck.Proofs.Settings.Key
import Sitecheck.Proofs.Duration
