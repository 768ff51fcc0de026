import FeedMerge.Engine
import FeedMerge.Main
import FeedMerge.Mapping.DryRun
import FeedMerge.Proofs.CommandLine.Ending
import FeedMerge.Proofs.Engine.Commutation
import FeedMerge.Proofs.Engine.Refusal
import FeedMerge.Proofs.Engine.Repetition
import FeedMerge.Proofs.Engine.Sequence
import FeedMerge.Proofs.Json.RoundTrip
import FeedMerge.Proofs.Mapping.Agreement
import FeedMerge.Proofs.Mapping.Defects
import FeedMerge.Proofs.Mapping.NormalForm
import FeedMerge.Proofs.Mapping.Prediction
import FeedMerge.Proofs.Mapping.Relocation
import FeedMerge.Proofs.Mapping.Report
import FeedMerge.Proofs.Merge.Collaborators
import FeedMerge.Proofs.Merge.Course
import FeedMerge.Proofs.Merge.OutOfRange
import FeedMerge.Proofs.Merge.Outcome
import FeedMerge.Proofs.Merge.ReadBack
import FeedMerge.Proofs.Operation.Agreement
import FeedMerge.Proofs.Operation.Report
import FeedMerge.Proofs.Projection.Checks
import FeedMerge.Proofs.Projection.Emissions
import FeedMerge.Proofs.Projection.Explanation
import FeedMerge.Proofs.Projection.Failure
import FeedMerge.Proofs.Projection.Rearrangement
import FeedMerge.Proofs.Projection.Relevance
import FeedMerge.Proofs.Projection.Splitting
import FeedMerge.Proofs.Projection.Visits
import FeedMerge.Proofs.Summary.Concatenation
import FeedMerge.Proofs.Summary.Permutation
import FeedMerge.Proofs.Workbench.Isolation
import FeedMerge.Session
import FeedMerge.Workbench
import FeedMerge.Proofs.Calendar
import FeedMerge.Proofs.Timestamp.Written
import FeedMerge.Proofs.Engine.Attribution
import FeedMerge.Proofs.Reading.FieldByField
import FeedMerge.Proofs.Reading.Idempotence
import FeedMerge.Proofs.Engine.Accounting
import FeedMerge.Proofs.Mapping.Separator
import FeedMerge.Proofs.Operation.FirstDefect
import FeedMerge.Proofs.Projection.Paths
