import AtomaInfer.Util.EStateM
import AtomaInfer.Util.Loop
import AtomaInfer.Util.AList
import AtomaInfer.Util.RefPool
import AtomaInfer.Util.Causal
import AtomaInfer.Util.Copying
import AtomaInfer.Util.Replica
import AtomaInfer.Util.Delimiter
import AtomaInfer.Util.Ring
import AtomaInfer.Util.Region
import AtomaInfer.Util.IndexMap
import AtomaInfer.Util.Scan
import AtomaInfer.Util.Json
import AtomaInfer.Block.Basic
import AtomaInfer.Block.Allocator
import AtomaInfer.Block.Evictor
import AtomaInfer.Sequence.Basic
import AtomaInfer.Sequence.Group
import AtomaInfer.Sequence.Lemmas
import AtomaInfer.Sequence.Counters
import AtomaInfer.Sequence.Tokens
import AtomaInfer.BlockManager.Impl
import AtomaInfer.BlockManager.Accounting
import AtomaInfer.BlockManager.Frame
import AtomaInfer.BlockManager.Swap
import AtomaInfer.BlockManager.Run
import AtomaInfer.BlockManager.CopyOnWrite
import AtomaInfer.BlockManager.SwapRun
import AtomaInfer.BlockManager.Guards
import AtomaInfer.BlockManager.Ring
import AtomaInfer.BlockManager.Errors
import AtomaInfer.BlockManager.Computed
import AtomaInfer.BlockManager.Window
import AtomaInfer.BlockManager.WindowRun
import AtomaInfer.Scheduler.Basic
import AtomaInfer.Scheduler.Impl
import AtomaInfer.Scheduler.Steps
import AtomaInfer.Scheduler.Conservation
import AtomaInfer.Scheduler.Metadata
import AtomaInfer.Service.Impl
import AtomaInfer.Service.Run
import AtomaInfer.Service.Validation
import AtomaInfer.Scheduler.Sound
import AtomaInfer.Scheduler.Effects
import AtomaInfer.Scheduler.Move
import AtomaInfer.Scheduler.Refines
import AtomaInfer.Scheduler.Run
import AtomaInfer.Scheduler.Budget
import AtomaInfer.Engine.Impl
import AtomaInfer.Engine.Update
import AtomaInfer.Engine.Run
import AtomaInfer.Scheduler.Passes
import AtomaInfer.Scheduler.Fcfs
import AtomaInfer.Attention.Forward
import AtomaInfer.Models.Llama
import AtomaInfer.Attention.Metadata
import AtomaInfer.Attention.Cache
import AtomaInfer.Attention.RoundTrip
import AtomaInfer.Worker.Impl
import AtomaInfer.Worker.Batch
import AtomaInfer.Engine.Batch
import AtomaInfer.Engine.Executed
import AtomaInfer.Worker.Input
import AtomaInfer.Worker.Attention
import AtomaInfer.Worker.Slots
import AtomaInfer.Engine.Order
import AtomaInfer.Engine.Agreement
import AtomaInfer.Engine.Disconnect
import AtomaInfer.Scheduler.Stranded
import AtomaInfer.Scheduler.Sharing
import AtomaInfer.Scheduler.Copies
import AtomaInfer.Scheduler.Turns
import AtomaInfer.Scheduler.Swaps
import AtomaInfer.Scheduler.Partition
import AtomaInfer.Scheduler.Abort
import AtomaInfer.Engine.Idle
import AtomaInfer.Engine.Generation
import AtomaInfer.Engine.Text
import AtomaInfer.Engine.Finish
import AtomaInfer.Engine.Ranking
import AtomaInfer.Engine.Listed
import AtomaInfer.Worker.Rows
import AtomaInfer.Engine.Rows
import AtomaInfer.Engine.Draws
import AtomaInfer.Server.Impl
import AtomaInfer.Server.Stream
import AtomaInfer.Server.Message
import AtomaInfer.Server.Usage
import AtomaInfer.Server.ToolCall
import AtomaInfer.Server.Spacing
import AtomaInfer.Server.Faithful
import AtomaInfer.Scheduler.Success
import AtomaInfer.Scheduler.Admission
import AtomaInfer.Scheduler.Totality
import AtomaInfer.Scheduler.Progress
import AtomaInfer.Scheduler.Stuck
import AtomaInfer.Scheduler.Steady
import AtomaInfer.Engine.Recovery
import AtomaInfer.Scheduler.Tables
import AtomaInfer.Engine.Tables
import AtomaInfer.Scheduler.Ignored
import AtomaInfer.Engine.Answered
import AtomaInfer.Worker.Sampling
import AtomaInfer.Worker.Generate
import AtomaInfer.Engine.Thread
import AtomaInfer.Engine.Sampled
import AtomaInfer.Worker.Cache
import AtomaInfer.Scheduler.Cached
import AtomaInfer.Engine.Coherence
import AtomaInfer.Engine.Prompts
import AtomaInfer.Scheduler.Narrow
import AtomaInfer.Engine.Unswapped
import AtomaInfer.Worker.Dispatch
import AtomaInfer.Engine.Cluster
import AtomaInfer.Server.Template
import AtomaInfer.Worker.Forward
import AtomaInfer.Worker.Logits
import AtomaInfer.Engine.Paged
