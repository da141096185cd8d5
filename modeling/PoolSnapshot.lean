import PoolSnapshot.Challenge
import PoolSnapshot.Given.Number
import PoolSnapshot.Minipool.CompleteShares
import PoolSnapshot.Multicall
import PoolSnapshot.OracleDao.Member
import PoolSnapshot.OracleDao.Settings
import PoolSnapshot.Peer.Drill
import PoolSnapshot.Peer.Script
import PoolSnapshot.Program.Run
import PoolSnapshot.Settings.Basic
import PoolSnapshot.Proofs.Abi.Layout
import PoolSnapshot.Proofs.Abi.RoundTrip
import PoolSnapshot.Proofs.Abi.Extension
import PoolSnapshot.Proofs.Multicall.Response
import PoolSnapshot.Proofs.Chunk.Partition
import PoolSnapshot.Proofs.Multicall.Refinement
import PoolSnapshot.Proofs.Schedule.Order
import PoolSnapshot.Proofs.Schedule.Termination
import PoolSnapshot.Proofs.Schedule.Ownership
import PoolSnapshot.Proofs.Schedule.Chunked
import PoolSnapshot.Proofs.Batch.Pointwise
import PoolSnapshot.Proofs.Program.Returns
import PoolSnapshot.Proofs.Survey.Stage
import PoolSnapshot.Proofs.Minipool.Batching
import PoolSnapshot.Proofs.Program.Course
import PoolSnapshot.Proofs.Batch.Declared
import PoolSnapshot.Proofs.Batch.Reply
import PoolSnapshot.Proofs.Minipool.Reads
import PoolSnapshot.Proofs.Survey.Query
import PoolSnapshot.Proofs.Survey.Chunks
import PoolSnapshot.Proofs.Minipool.Stages
import PoolSnapshot.Proofs.Minipool.Consistent
import PoolSnapshot.Proofs.Minipool.Told
import PoolSnapshot.Proofs.Minipool.AllOrNothing
import PoolSnapshot.Proofs.Minipool.Requests
import PoolSnapshot.Proofs.Minipool.OnChain
import PoolSnapshot.Proofs.Contract.Selectors
import PoolSnapshot.Proofs.Survey.Calls
import PoolSnapshot.Proofs.Survey.Enumerated
import PoolSnapshot.Proofs.Minipool.Probes
import PoolSnapshot.Proofs.Minipool.Topics
import PoolSnapshot.Proofs.Minipool.Legacy
import PoolSnapshot.Proofs.Program.Every
import PoolSnapshot.Proofs.Survey.Blame
import PoolSnapshot.Proofs.Survey.Listed
import PoolSnapshot.Proofs.Survey.Faults
import PoolSnapshot.Proofs.Survey.Operation
import PoolSnapshot.Proofs.Survey.OneBlock
import PoolSnapshot.Proofs.Survey.Slices
import PoolSnapshot.Proofs.Survey.External
import PoolSnapshot.Proofs.Batch.Modes
import PoolSnapshot.Proofs.Multicall.Batches
import PoolSnapshot.Proofs.Contract.Resolution
import PoolSnapshot.Proofs.Minipool.Complete
import PoolSnapshot.Proofs.Schedule.Sequential
import PoolSnapshot.Proofs.OracleDao.Check
import PoolSnapshot.Proofs.OracleDao.Settings
import PoolSnapshot.Proofs.Text.Lossy
import PoolSnapshot.Proofs.OracleDao.Members
import PoolSnapshot.Proofs.Survey.Challenges
import PoolSnapshot.Proofs.Settings.File
import PoolSnapshot.Proofs.Settings.Environment
import PoolSnapshot.Proofs.Settings.Fields
import PoolSnapshot.Proofs.Settings.Layering
import PoolSnapshot.Proofs.Schedule.Limit
import PoolSnapshot.Proofs.Multicall.Coalescing
import PoolSnapshot.Proofs.Batch.Lenient
import PoolSnapshot.Proofs.Minipool.Versions
import PoolSnapshot.Proofs.Schedule.Failure
import PoolSnapshot.Proofs.Batch.Queue
import PoolSnapshot.Proofs.Minipool.Amounts
import PoolSnapshot.Proofs.Minipool.Places
import PoolSnapshot.Proofs.Minipool.Assembly
import PoolSnapshot.Proofs.Contract.Dispatch
import PoolSnapshot.Proofs.Survey.Queued
import PoolSnapshot.Proofs.Survey.Identified
import PoolSnapshot.Proofs.Conversion.Scaling
import PoolSnapshot.Proofs.Settings.Numerals
import PoolSnapshot.Proofs.Settings.Numbers
import PoolSnapshot.Proofs.Settings.Override
import PoolSnapshot.Proofs.Chunk.Words
import PoolSnapshot.Proofs.Schedule.Walked
import PoolSnapshot.Proofs.Survey.Slots
import PoolSnapshot.Proofs.Text.Figures
import PoolSnapshot.Proofs.Time.Calendar
import PoolSnapshot.Proofs.Minipool.Printed
import PoolSnapshot.Proofs.Schedule.Walked
