import Infinigpu.Lib.Lts
import Infinigpu.Lib.Channel
import Infinigpu.Lib.Counter
import Infinigpu.Lib.Keyed
import Infinigpu.Lib.Bucket
import Infinigpu.Lib.Bytes
import Infinigpu.Lib.Stamps
import Infinigpu.Lib.Parts
import Infinigpu.Lib.Footprint
import Infinigpu.Lib.Checked
import Infinigpu.Lib.Overlay
import Infinigpu.Lib.Framing
import Infinigpu.Lib.Guard
import Infinigpu.Ring.Basic
import Infinigpu.Ring.Steps
import Infinigpu.Ring.Delivery
import Infinigpu.Ring.Fences
import Infinigpu.Sched.Broker
import Infinigpu.Sched.Ledger
import Infinigpu.Sched.Fleet
import Infinigpu.Sched.Telemetry
import Infinigpu.Sched.Throttle
import Infinigpu.Sched.Polling
import Infinigpu.Sched.Waits
import Infinigpu.Sched.Leases
import Infinigpu.Device.Dma
import Infinigpu.Device.Wire
import Infinigpu.Device.Forwarded
import Infinigpu.Device.Decoder
import Infinigpu.Device.Hostile
import Infinigpu.Device.Resource
import Infinigpu.Device.Table
import Infinigpu.Device.Backend
import Infinigpu.Device.Cursor
import Infinigpu.Device.Present
import Infinigpu.Device.Paint
import Infinigpu.Device.Damage
import Infinigpu.Device.Flush
import Infinigpu.Device.Submit
import Infinigpu.Device.Rings
import Infinigpu.Device.Drain
import Infinigpu.Device.Batch
import Infinigpu.Device.Retire
import Infinigpu.Device.Submission
import Infinigpu.Device.Bail
import Infinigpu.Device.Serving
import Infinigpu.Device.Order
import Infinigpu.Device.Twin
import Infinigpu.Device.Handlers
import Infinigpu.Device.Frames
import Infinigpu.Device.Wear
import Infinigpu.Device.Elision
import Infinigpu.Device.Zerocopy
import Infinigpu.Device.Transport
import Infinigpu.Device.Mappings
import Infinigpu.Device.Mailbox
import Infinigpu.Device.Registers
import Infinigpu.Device.Subword
import Infinigpu.Device.Overflow
import Infinigpu.Device.Views
import Infinigpu.Device.Isolation
import Infinigpu.Vfio.Messages
import Infinigpu.Vfio.Server
import Infinigpu.Vfio.Endpoint
import Infinigpu.Vfio.Requests
import Infinigpu.Vfio.Refinement
import Infinigpu.Replay.Descriptors
import Infinigpu.Replay.Pipelines
import Infinigpu.Replay.Fetch
import Infinigpu.Replay.Textures
import Infinigpu.Replay.Resources
import Infinigpu.Replay.Residency
import Infinigpu.Replay.Draws
import Infinigpu.Replay.Savers
import Infinigpu.Replay.Handles
import Infinigpu.Replay.Uploads
import Infinigpu.Replay.Renders
import Infinigpu.Replay.Staged
import Infinigpu.Replay.Leftovers
import Infinigpu.Replay.Process
import Infinigpu.Guest.Encoder
import Infinigpu.Guest.RoundTrip
import Infinigpu.Guest.Truncated
import Infinigpu.Guest.Objects
import Infinigpu.Guest.Images
import Infinigpu.Guest.Descriptor
import Infinigpu.Guest.Slots
import Infinigpu.Guest.Updates
import Infinigpu.Guest.CmdBuffer
import Infinigpu.Guest.Replay
import Infinigpu.Guest.Limits
import Infinigpu.Guest.Kmd
import Infinigpu.Guest.Agreement
import Infinigpu.Guest.Recorded
import Infinigpu.Guest.Indexed
import Infinigpu.Guest.Bindings
import Infinigpu.Guest.Dynamic
import Infinigpu.Guest.Gather
import Infinigpu.Guest.Transfer
import Infinigpu.Guest.InOrder
import Infinigpu.Guest.Rows
import Infinigpu.Guest.Clear
import Infinigpu.Guest.Layers
import Infinigpu.Guest.Deferred
import Infinigpu.Guest.Contained
import Infinigpu.Guest.Lifetime
import Infinigpu.Guest.Handover
import Infinigpu.Guest.Completion
import Infinigpu.Guest.Display
import Infinigpu.Guest.Registration
import Infinigpu.Guest.Scanout
import Infinigpu.Guest.Producer
import Infinigpu.Guest.Legacy
import Infinigpu.Guest.Panel
import Infinigpu.Pixel.Queue
import Infinigpu.Pixel.Lanes
import Infinigpu.Pixel.Hub
import Infinigpu.Pixel.Viewer
import Infinigpu.Pixel.Joiner
import Infinigpu.Pixel.Converge
import Infinigpu.Pixel.Streamer
import Infinigpu.Pixel.Idle
import Infinigpu.Pixel.Headers
import Infinigpu.Pixel.Delivery
import Infinigpu.Pixel.Playback
import Infinigpu.Pixel.Window
import Infinigpu.Pixel.InFlight
import Infinigpu.Pixel.Composite
import Infinigpu.Pixel.Splitter
import Infinigpu.Pixel.Input
import Infinigpu.Device.Profile
import Infinigpu.Vfio.Client
