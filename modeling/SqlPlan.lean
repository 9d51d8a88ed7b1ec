import SqlPlan.Evaluator
import SqlPlan.Json.Read
import SqlPlan.Json.Write
import SqlPlan.Plan.Decode
import SqlPlan.Plan.Encode
import SqlPlan.Proofs.Execution.Script
import SqlPlan.Proofs.Lowering.Chain
import SqlPlan.Proofs.Lowering.Congruence
import SqlPlan.Proofs.Lowering.EveryRow
import SqlPlan.Proofs.Lowering.Image
import SqlPlan.Proofs.Lowering.Offence
import SqlPlan.Proofs.Lowering.Sequence
import SqlPlan.Proofs.Lowering.Spelling
import SqlPlan.Proofs.Lowering.Stages
import SqlPlan.Proofs.Lowering.Width
import SqlPlan.Proofs.Plan.Reading
import SqlPlan.Proofs.Plan.RoundTrip
import SqlPlan.Proofs.Plan.Skeleton
import SqlPlan.Proofs.Rewrite.Cleared
import SqlPlan.Proofs.Rewrite.Compiled
import SqlPlan.Proofs.Rewrite.Forest
import SqlPlan.Proofs.Rewrite.Log
import SqlPlan.Proofs.Rewrite.Normal
import SqlPlan.Proofs.Rewrite.Outcome
import SqlPlan.Proofs.Rewrite.Pipeline
import SqlPlan.Proofs.Rewrite.Progress
import SqlPlan.Proofs.Rewrite.Surrounding
import SqlPlan.Rewrite.Prune
import SqlPlan.Sql.Draft
import SqlPlan.Sql.Equality
