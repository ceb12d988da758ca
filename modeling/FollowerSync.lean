import FollowerSync.Program
import FollowerSync.Duration
import FollowerSync.Shard.Job
import FollowerSync.Shard.Progress
import FollowerSync.Command.SystemError
import FollowerSync.Maintenance.Backoff
import FollowerSync.Maintenance.Store
import FollowerSync.Cluster.Plan
import FollowerSync.Cluster.Watch
import FollowerSync.Cluster.View
import FollowerSync.Leader.Lock
import FollowerSync.Wire.Utf8
import FollowerSync.Wire.Crc32
import FollowerSync.Wire.Codec
import FollowerSync.Leader.Request
import FollowerSync.Wire.Message
import FollowerSync.Wire.Frame
import FollowerSync.Document.Value
import FollowerSync.Shard.Document
import FollowerSync.Document.Toml.Scan
import FollowerSync.Document.Toml.Text
import FollowerSync.Document.Toml.Number
import FollowerSync.Document.Toml.Fields
import FollowerSync.Document.Toml.Reader
import FollowerSync.Document.Toml.Writer
import FollowerSync.Config.Basic
import FollowerSync.Config.Settings
import FollowerSync.Config.Document
import FollowerSync.Attempt.Calls
import FollowerSync.Attempt.Context
import FollowerSync.Attempt.Guard
import FollowerSync.Attempt.Journal
import FollowerSync.Attempt.Waiting
import FollowerSync.Attempt.Copying
import FollowerSync.Attempt.Following
import FollowerSync.Attempt.Future
import FollowerSync.Attempt.Closing
import FollowerSync.Attempt.Run
import FollowerSync.Rehearsal.World
import FollowerSync.Rehearsal.Answers
import FollowerSync.Rehearsal.Steps
import FollowerSync.Rehearsal.Parts
import FollowerSync.Wire.Address
import FollowerSync.Wire.Client
import FollowerSync.Rehearsal.Network
import FollowerSync.Command.Arguments
import FollowerSync.Command.Text
import FollowerSync.Command.Run
import FollowerSync.Rehearsal.Machine
import FollowerSync.Main
import FollowerSync.Proofs.Histories
import FollowerSync.Proofs.Stages
import FollowerSync.Proofs.Footprints
import FollowerSync.Proofs.Locks
import FollowerSync.Proofs.Milestones
import FollowerSync.Proofs.Registration
import FollowerSync.Proofs.Books
import FollowerSync.Proofs.Exchanges
import FollowerSync.Proofs.Contacts
import FollowerSync.Proofs.Verdicts
import FollowerSync.Proofs.Mismatches
import FollowerSync.Proofs.Handover
import FollowerSync.Proofs.Positions
import FollowerSync.Proofs.Identities
import FollowerSync.Proofs.Shutdown
import FollowerSync.Proofs.Indifference
import FollowerSync.Proofs.Spellings
import FollowerSync.Proofs.MessageForms
import FollowerSync.Proofs.Streams
import FollowerSync.Proofs.Reckoning
import FollowerSync.Proofs.Resubmission
import FollowerSync.Proofs.Readiness
import FollowerSync.Proofs.Examinations
import FollowerSync.Proofs.Interruptions
import FollowerSync.Proofs.Deadlines
import FollowerSync.Proofs.Expenses
import FollowerSync.Proofs.Rounds
import FollowerSync.Proofs.Polls
import FollowerSync.Proofs.Repairs
import FollowerSync.Proofs.VersionFetches
import FollowerSync.Proofs.CurrentVersion
import FollowerSync.Proofs.Custody
import FollowerSync.Proofs.Bursts
import FollowerSync.Proofs.FrameLimits
import FollowerSync.Proofs.Replies
import FollowerSync.Proofs.Ranges
import FollowerSync.Proofs.LoadedVersions
import FollowerSync.Proofs.Sleeps
import FollowerSync.Proofs.ClientIds
import FollowerSync.Proofs.Quotations
import FollowerSync.Proofs.Numerals
import FollowerSync.Proofs.Rereading
import FollowerSync.Proofs.WrittenConfigurations
import FollowerSync.Proofs.Initialization
import FollowerSync.Proofs.Terms
