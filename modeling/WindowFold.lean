import WindowFold.Driver
import WindowFold.Limits.Document
import WindowFold.Plan
import WindowFold.Query.Document
import WindowFold.Proofs.Delivery
import WindowFold.Proofs.FanIn
import WindowFold.Proofs.Planning
import WindowFold.Proofs.Recutting
import WindowFold.Proofs.BlockOrder
import WindowFold.Proofs.ClippedQueries
import WindowFold.Proofs.PullContract
import WindowFold.Proofs.Refusals
import WindowFold.Proofs.FedQueries
import WindowFold.Proofs.PullDiscipline
import WindowFold.Proofs.MergeSlots
import WindowFold.Proofs.Completion
import WindowFold.Proofs.Cutoff
import WindowFold.Proofs.Tenure
import WindowFold.Proofs.Teardown
import WindowFold.Proofs.Spacing
import WindowFold.Proofs.Mirroring
import WindowFold.Proofs.Announcements
import WindowFold.Proofs.Vetting
import WindowFold.Proofs.Relays
import WindowFold.Proofs.Extremes
import WindowFold.Proofs.MonthSearch
import WindowFold.Proofs.Retracing
import WindowFold.Proofs.Stretches
import WindowFold.Proofs.Renewal
import WindowFold.Proofs.Capacity
import WindowFold.Proofs.Documents
