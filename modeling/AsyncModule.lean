import AsyncModule.Registry
import AsyncModule.Bootstrap
import AsyncModule.Machine
import AsyncModule.Scenario
import AsyncModule.Main
import AsyncModule.Proofs.CycleSearch
import AsyncModule.Proofs.Attach
import AsyncModule.Proofs.Linkage
import AsyncModule.Proofs.Settlement
import AsyncModule.Proofs.Linked
import AsyncModule.Proofs.Duties
import AsyncModule.Proofs.Runs
import AsyncModule.Proofs.Waiting
import AsyncModule.Proofs.Acyclic
import AsyncModule.Proofs.Attendance
import AsyncModule.Proofs.Mains
import AsyncModule.Proofs.Support
import AsyncModule.Proofs.Ownership
import AsyncModule.Proofs.Rest
import AsyncModule.Proofs.Accounts
import AsyncModule.Proofs.Once
import AsyncModule.Proofs.Lasting
import AsyncModule.Proofs.Tasks
import AsyncModule.Proofs.Tracing
import AsyncModule.Proofs.Slashes
import AsyncModule.Proofs.Written
import AsyncModule.Proofs.Resolved
import AsyncModule.Proofs.Table
import AsyncModule.Proofs.Tame
import AsyncModule.Proofs.Setting
import AsyncModule.Proofs.Told
import AsyncModule.Proofs.Truth
import AsyncModule.Proofs.Faithful
import AsyncModule.Proofs.Fixpoint
import AsyncModule.Proofs.Supply
import AsyncModule.Proofs.Circles
import AsyncModule.Proofs.Nesting
import AsyncModule.Proofs.Failing
import AsyncModule.Proofs.Dropped
import AsyncModule.Proofs.SetUp
import AsyncModule.Proofs.Deeds
import AsyncModule.Proofs.Loads
import AsyncModule.Proofs.Progress
import AsyncModule.Proofs.Deferral
import AsyncModule.Proofs.Draining
import AsyncModule.Proofs.Contexts
import AsyncModule.Proofs.Directories
import AsyncModule.Proofs.Foretold
import AsyncModule.Proofs.MainLoads
import AsyncModule.Proofs.Notification
import AsyncModule.Proofs.Inquiry
import AsyncModule.Proofs.Answering
import AsyncModule.Proofs.Answers
import AsyncModule.Proofs.WorkingDirectory
import AsyncModule.Proofs.Agreement
import AsyncModule.Proofs.Programs
import AsyncModule.Proofs.Lexical
import AsyncModule.Proofs.Blame
import AsyncModule.Proofs.Provenance
import AsyncModule.Proofs.Matching
import AsyncModule.Proofs.Mirroring
import AsyncModule.Proofs.Lockstep
import AsyncModule.Proofs.Inert
import AsyncModule.Proofs.Calls
import AsyncModule.Proofs.Postponing
import AsyncModule.Proofs.Poised
import AsyncModule.Proofs.Abreast
import AsyncModule.Proofs.Transparency
import AsyncModule.Proofs.Trails
import AsyncModule.Proofs.Aloof
import AsyncModule.Proofs.Standing
import AsyncModule.Proofs.Striking
import AsyncModule.Proofs.AtOnce
import AsyncModule.Proofs.Cascade
import AsyncModule.Proofs.Walked
import AsyncModule.Proofs.Canonicity
import AsyncModule.Proofs.Bases
import AsyncModule.Proofs.Identity
import AsyncModule.Proofs.Specifiers
import AsyncModule.Proofs.Subsiding
