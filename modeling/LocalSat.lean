import LocalSat.Complaint.Arguments
import LocalSat.Main
import LocalSat.Value.Datum
import LocalSat.Proofs.Satisfaction
import LocalSat.Proofs.Trail
import LocalSat.Proofs.Trajectory
import LocalSat.Proofs.Returns
import LocalSat.Proofs.Walk
import LocalSat.Proofs.Outcome
import LocalSat.Proofs.Greedy.Neighbour
import LocalSat.Proofs.Greedy.Step
import LocalSat.Proofs.Greedy.Explored
import LocalSat.Proofs.Greedy.Path
import LocalSat.Proofs.Greedy.Bound
import LocalSat.Proofs.Greedy.Completeness
import LocalSat.Proofs.Greedy.Exhaustion
import LocalSat.Proofs.Greedy.Accounting
import LocalSat.Proofs.Course
import LocalSat.Proofs.Walk.Bound
import LocalSat.Proofs.Limits
import LocalSat.Proofs.Dimacs.Grammar
import LocalSat.Proofs.Dimacs.RoundTrip
import LocalSat.Proofs.Independence
import LocalSat.Proofs.Safety
import LocalSat.Proofs.Progress
import LocalSat.Proofs.Cli.Arguments
import LocalSat.Proofs.Cli.Configured
import LocalSat.Proofs.Dimacs.Refusal
import LocalSat.Proofs.Cli.Solving
import LocalSat.Proofs.Dimacs.FileRoundTrip
import LocalSat.Proofs.Events.Journal
import LocalSat.Proofs.RandomKSat
import LocalSat.Proofs.Benchmark
import LocalSat.Proofs.Cli.Settings
import LocalSat.Proofs.Cli.Endings
import LocalSat.Proofs.Dimacs.FirstFault
import LocalSat.Proofs.Greedy.Selection
import LocalSat.Proofs.Greedy.Repair
import LocalSat.Proofs.Undo
import LocalSat.Proofs.Dimacs.Sources
import LocalSat.Proofs.Evaluators
import LocalSat.Proofs.Tentative
import LocalSat.Proofs.Greedy.Foresight
import LocalSat.Proofs.Signed
import LocalSat.Proofs.Random.Sample
import LocalSat.Proofs.RandomKSat.Instances
import LocalSat.Proofs.Greedy.Polarity
import LocalSat.Proofs.Config.Tree
import LocalSat.Proofs.Config.Lens
import LocalSat.Proofs.Benchmark.Rows
