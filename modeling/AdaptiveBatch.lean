import AdaptiveBatch.Main
import AdaptiveBatch.Proofs.Config.RoundTrip
import AdaptiveBatch.Proofs.Control.Handover
import AdaptiveBatch.Proofs.Execution.Commutation
import AdaptiveBatch.Proofs.Execution.Discards
import AdaptiveBatch.Proofs.Plan.Prediction
import AdaptiveBatch.Proofs.Rescale.Deadlines
import AdaptiveBatch.Proofs.Scheduler.Adequacy
import AdaptiveBatch.Proofs.Scheduler.Agreement
import AdaptiveBatch.Proofs.Scheduler.Bounds
import AdaptiveBatch.Proofs.Scheduler.Completion
import AdaptiveBatch.Proofs.Scheduler.FinalInputs
import AdaptiveBatch.Proofs.Scheduler.Ledger
import AdaptiveBatch.Proofs.Scheduler.Placements
import AdaptiveBatch.Proofs.Scheduler.Refusals
import AdaptiveBatch.Proofs.Scheduler.Restarts
import AdaptiveBatch.Proofs.Scheduler.Stability
import AdaptiveBatch.Proofs.Scheduler.Starvation
import AdaptiveBatch.Proofs.Scheduler.Unhindered
import AdaptiveBatch.Proofs.Straggler.Median
import AdaptiveBatch.Proofs.Sizing.Sufficiency
import AdaptiveBatch.Proofs.Straggler.Baseline
import AdaptiveBatch.Proofs.Straggler.Immediate
import AdaptiveBatch.Proofs.Cluster.BlockHistory
import AdaptiveBatch.Proofs.Text.Spelling
import AdaptiveBatch.Proofs.Config.Readings
import AdaptiveBatch.Proofs.Job.Cycles
import AdaptiveBatch.Proofs.Job.Ties
import AdaptiveBatch.Proofs.Scheduler.FirstSize
import AdaptiveBatch.Proofs.Scheduler.Recounting
import AdaptiveBatch.Proofs.Scheduler.OverfullReports
import AdaptiveBatch.Proofs.Scheduler.ClockEnd
import AdaptiveBatch.Proofs.Cluster.Selection
