import MediaModules.Lib.Run
import MediaModules.Lib.Buffer
import MediaModules.Lib.Framing
import MediaModules.Lib.NodeLists
import MediaModules.Demux.TsParser
import MediaModules.Demux.Stream
import MediaModules.Demux.Types
import MediaModules.Demux.Crc32
import MediaModules.Demux.Section
import MediaModules.Demux.Matching
import MediaModules.Demux.Reassembly
import MediaModules.Demux.Independence
import MediaModules.Demux.Filters
import MediaModules.Demux.FilterMoves
import MediaModules.Demux.FilterInvariant
import MediaModules.Demux.Dispatch
import MediaModules.T5d.Device
import MediaModules.T5d.KeyTable
import MediaModules.T5d.Channels
import MediaModules.T5d.ChannelOwners
import MediaModules.T5d.KeySafety
import MediaModules.PtsServer.Instance
import MediaModules.PtsServer.Checkin
import MediaModules.PtsServer.Checkout
import MediaModules.PtsServer.Pool
import MediaModules.PtsServer.Candidates
import MediaModules.PtsServer.Table
import MediaModules.PtsServer.Registry
import MediaModules.PtsServer.Identifiers
import MediaModules.Lib.Tally
import MediaModules.FrameInput.Input
import MediaModules.FrameInput.Ledger
import MediaModules.FrameInput.Counters
import MediaModules.FrameInput.Layout
import MediaModules.Lib.Rearrange
import MediaModules.Lib.Handover
import MediaModules.H264Dpb.Types
import MediaModules.H264Dpb.Stores
import MediaModules.H264Dpb.Output
import MediaModules.H264Dpb.Marking
import MediaModules.H264Dpb.Storing
import MediaModules.H264Dpb.Poc
import MediaModules.H264Dpb.RefLists
import MediaModules.H264Dpb.SliceHeader
import MediaModules.H264Dpb.Runs
import MediaModules.H264Dpb.RefListOrder
import MediaModules.H264Dpb.Qsort
import MediaModules.H264Dpb.QsortStack
import MediaModules.H264Dpb.InitialLists
import MediaModules.H264Dpb.Frames
import MediaModules.H264Dpb.FramePool
import MediaModules.H264Dpb.Moves
import MediaModules.H264Dpb.Pool
import MediaModules.H264Dpb.Marks
import MediaModules.H264Dpb.PriorOutput
import MediaModules.H264Dpb.Mmco5
import MediaModules.H264Dpb.Commands
import MediaModules.H264Dpb.Slices
import MediaModules.H264Dpb.References
import MediaModules.H264Dpb.Pairing
import MediaModules.H264Dpb.Handover
import MediaModules.H264Dpb.LastPicture
import MediaModules.Lib.Bits
import MediaModules.Decoder.Canvas
import MediaModules.Decoder.Timeline
import MediaModules.Lib.Holdings
import MediaModules.Decoder.BmmuBox
import MediaModules.Decoder.DataSlots
import MediaModules.MediaSync.Types
import MediaModules.MediaSync.FrameCache
import MediaModules.Decoder.BufferCore
import MediaModules.Lib.Shares
import MediaModules.Decoder.Scheduler
import MediaModules.Lib.Versions
import MediaModules.MediaSync.Parameters
import MediaModules.MediaSync.UpdateInfo
import MediaModules.Lib.Memory
import MediaModules.Firmware.Package
import MediaModules.Firmware.PackageBounds
import MediaModules.Lib.Words
import MediaModules.Lib.Ring
import MediaModules.StreamBuffer.RingBuffer
import MediaModules.StreamBuffer.Refinement
import MediaModules.StreamBuffer.FetchBuffer
import MediaModules.Demux.FilterBytes
import MediaModules.HwDemux.RingFilter
import MediaModules.HwDemux.PacketOrder
import MediaModules.Hevc.RefPicLists
import MediaModules.Hevc.PicOrderCount
import MediaModules.Lib.RefCount
import MediaModules.Vp9.FrameBuffers
import MediaModules.Vp9.Balance
import MediaModules.Av1.FrameBuffers
import MediaModules.Av1.Balance
import MediaModules.Hevc.DisplayQueues
import MediaModules.Hevc.DisplayBalance
import MediaModules.Lib.Select
import MediaModules.Hevc.PicturePool
import MediaModules.Hevc.PictureBuffers
import MediaModules.Lib.Bumping
import MediaModules.Hevc.PictureMoves
import MediaModules.Hevc.OutputRounds
import MediaModules.Hevc.OutputOrder
import MediaModules.Hevc.Tiles
import MediaModules.Hevc.AuxData
import MediaModules.Hevc.MissingRefs
import MediaModules.PtsServer.Sweeps
import MediaModules.PtsServer.Stored
import MediaModules.PtsServer.Eviction
import MediaModules.PtsServer.SortedList
import MediaModules.PtsServer.CheckinRecords
import MediaModules.PtsServer.Extrapolation
import MediaModules.PtsServer.Epochs
import MediaModules.PtsServer.OffsetScan
import MediaModules.PtsServer.OffsetMode
import MediaModules.PtsServer.Chances
import MediaModules.Demux.PesPacket
import MediaModules.Demux.PesTimestamps
import MediaModules.Demux.PesParser
import MediaModules.Lib.Projection
import MediaModules.MediaSync.VideoFrames
import MediaModules.MediaSync.VideoHold
import MediaModules.MediaSync.StcSample
import MediaModules.MediaSync.InstanceTable
import MediaModules.Lib.Heap
import MediaModules.WriteThread.Task
import MediaModules.WriteThread.Blocks
import MediaModules.WriteThread.Allocation
import MediaModules.WriteThread.EsOffsets
import MediaModules.PsParser.Accounting
import MediaModules.PsParser.HeaderBytes
import MediaModules.FrameInput.Circular
import MediaModules.FrameInput.Durations
import MediaModules.FrameInput.FailedCopies
import MediaModules.H264Dpb.ForcedRemoval
import MediaModules.H264Dpb.FrameNumGap
import MediaModules.H264Dpb.GapFilled
import MediaModules.H264Dpb.ListReordering
import MediaModules.H264Dpb.PocRuns
import MediaModules.Decoder.ReadPointer
import MediaModules.Lib.Infix
import MediaModules.Decoder.ConfigParser
import MediaModules.Decoder.CanvasGroups
import MediaModules.Decoder.TaskChain
import MediaModules.Decoder.FbcSlots
import MediaModules.Decoder.DmaPool
import MediaModules.Lib.RoundRobin
import MediaModules.Decoder.Election
import MediaModules.Lib.LastMax
import MediaModules.Firmware.Selection
import MediaModules.Lib.BitReader
import MediaModules.Vp9.Superframe
import MediaModules.Lib.InPlace
import MediaModules.H264Dpb.ListModification
import MediaModules.Decoder.StreamSize
import MediaModules.Lib.RingLog
import MediaModules.Decoder.FrameFifo
import MediaModules.MediaSync.ClockValue
import MediaModules.MediaSync.MediaTime
import MediaModules.MediaSync.SlopeControl
import MediaModules.MediaSync.SlopeSamples
import MediaModules.MediaSync.AudioCache
import MediaModules.Lib.Segments
import MediaModules.Lib.ShiftRegister
import MediaModules.Lib.Cuts
import MediaModules.MediaSync.VideoCache
import MediaModules.MediaSync.PacketCache
import MediaModules.Lib.Checked
import MediaModules.Lib.Seats
import MediaModules.Avs2.RefInfo
import MediaModules.Avs2.References
import MediaModules.Avs2.Retry
import MediaModules.Avs2.Headers
import MediaModules.Avs2.HeaderBounds
import MediaModules.Encoder.VmmRuns
