import ActionFlow.Binary64.Reading
import ActionFlow.Text.Digit
import ActionFlow.Expr.Reading
import ActionFlow.Expr.Check
import ActionFlow.Options
import ActionFlow.Item
import ActionFlow.Selection
import ActionFlow.NodeRecord
import ActionFlow.Logging
import ActionFlow.Amend
import ActionFlow.Listing
import ActionFlow.Running
import ActionFlow.Scheduler.Turn
import ActionFlow.Script
import ActionFlow.Session
import ActionFlow.Proofs.Running.Elements
import ActionFlow.Proofs.Running.Course
import ActionFlow.Proofs.Running.Checked
import ActionFlow.Proofs.Running.Meaning
import ActionFlow.Proofs.Scheduler.Standing
import ActionFlow.Proofs.Scheduler.Orderly
import ActionFlow.Proofs.Scheduler.Keyed
import ActionFlow.Proofs.Scheduler.Accounted
import ActionFlow.Proofs.Scheduler.Sound
import ActionFlow.Proofs.Scheduler.Asking
import ActionFlow.Proofs.Scheduler.TakingTurns
import ActionFlow.Proofs.World.Reached
import ActionFlow.Proofs.World.Abandoned
import ActionFlow.Proofs.Running.Pacts
import ActionFlow.Proofs.Running.Scoped
import ActionFlow.Proofs.Scheduler.Resting
import ActionFlow.Proofs.World.Exclusion
import ActionFlow.Proofs.World.Hosts
import ActionFlow.Proofs.Running.Markers
import ActionFlow.Proofs.Scheduler.Latch
import ActionFlow.Proofs.World.Pacts
import ActionFlow.Proofs.World.OneShot
import ActionFlow.Proofs.Scheduler.Procession
import ActionFlow.Proofs.Scheduler.Attended
import ActionFlow.Proofs.World.Alert
import ActionFlow.Proofs.World.FirstCome
import ActionFlow.Proofs.Scheduler.GoingOn
import ActionFlow.Proofs.World.Facing
import ActionFlow.Proofs.World.GivingBack
import ActionFlow.Proofs.Running.Invocation
import ActionFlow.Proofs.Running.Splicing
import ActionFlow.Proofs.Running.FailStop
import ActionFlow.Proofs.Running.Routing
import ActionFlow.Proofs.Running.Invoking
import ActionFlow.Proofs.World.Invoking
import ActionFlow.Proofs.World.Consumed
import ActionFlow.Proofs.Reading.Leaves
import ActionFlow.Proofs.Reading.Expressions
import ActionFlow.Proofs.Running.Serving
import ActionFlow.Proofs.Running.Consuming
import ActionFlow.Proofs.Running.Aloof
import ActionFlow.Proofs.Scheduler.Alike
import ActionFlow.Proofs.World.Alike
import ActionFlow.Proofs.World.Unmarked
import ActionFlow.Proofs.Tables.Resolution
import ActionFlow.Proofs.World.Merging
import ActionFlow.Proofs.World.Settling
import ActionFlow.Proofs.Running.Keeping
import ActionFlow.Proofs.Scheduler.Sharing
import ActionFlow.Proofs.Scheduler.Unlocked
import ActionFlow.Proofs.World.Isolation
import ActionFlow.Proofs.Reading.FirstFault
import ActionFlow.Proofs.Running.Grammar
import ActionFlow.Proofs.Reading.Language
import ActionFlow.Proofs.Tables.Listing
import ActionFlow.Proofs.Scheduler.Beside
import ActionFlow.Proofs.Scheduler.Vigil
import ActionFlow.Proofs.World.Beside
import ActionFlow.Proofs.World.Deadline
import ActionFlow.Proofs.Declarations.NormalForm
import ActionFlow.Proofs.Declarations.Forms
import ActionFlow.Proofs.Logging.History
import ActionFlow.Proofs.Tables.Growth
import ActionFlow.Proofs.Tables.Completeness
import ActionFlow.Proofs.Selections.Insertion
import ActionFlow.Proofs.Selections.Tables
import ActionFlow.Proofs.Selections.Iteration
import ActionFlow.Proofs.Selections.Union
