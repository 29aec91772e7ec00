import ResearchKernel.Authority.Peer
import ResearchKernel.FactGraph.Ordering
import ResearchKernel.Composition.Loops
import ResearchKernel.ClaimGraph.Cycles
import ResearchKernel.ClaimGraph.Bridges
import ResearchKernel.ClaimGraph.Reopening
import ResearchKernel.Amendment.Trust
import ResearchKernel.Budget.Spending
import ResearchKernel.Budget.Fuse
import ResearchKernel.Integrity
import ResearchKernel.Contracts.Startable
import ResearchKernel.Product.Fencing
import ResearchKernel.Product.Verdicts
import ResearchKernel.Product.Scheduling
import ResearchKernel.Product.RouteReplay
import ResearchKernel.Canonical.Forms
import ResearchKernel.Product.Lossless
import ResearchKernel.Product.PageEdges
import ResearchKernel.Product.LogBytes
import ResearchKernel.Product.Possession
import ResearchKernel.Product.Delivery
import ResearchKernel.Product.ClaimDecisions
import ResearchKernel.Product.Provenance
import ResearchKernel.Product.Guidance
import ResearchKernel.Migrations
import ResearchKernel.Product.Restoring
import ResearchKernel.Product.BoundaryPaths
import ResearchKernel.Paper
import ResearchKernel.Product.LeaseTimes
import ResearchKernel.Product.Resubmission
import ResearchKernel.Product.Anchors
