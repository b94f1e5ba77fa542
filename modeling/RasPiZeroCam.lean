import RasPiZeroCam.Control.Json
import RasPiZeroCam.Control.Dispatcher
import RasPiZeroCam.Camera.Resolution
import RasPiZeroCam.Record.Recorder
import RasPiZeroCam.Control.Commands
import RasPiZeroCam.Control.Recordings
import RasPiZeroCam.Camera.FrameBuffer
import RasPiZeroCam.Camera.FrameObjects
import RasPiZeroCam.Camera.RingQueue
import RasPiZeroCam.Camera.Manager
import RasPiZeroCam.Camera.Open
import RasPiZeroCam.Camera.Requests
import RasPiZeroCam.Camera.Startup
import RasPiZeroCam.Camera.Lifetime
import RasPiZeroCam.Control.Sessions
import RasPiZeroCam.Record.Drain
import RasPiZeroCam.Record.Slots
import RasPiZeroCam.Record.Lifecycle
import RasPiZeroCam.Record.Launch
import RasPiZeroCam.Record.PushFrame
import RasPiZeroCam.Record.Stamps
import RasPiZeroCam.Stream.Calls
import RasPiZeroCam.Stream.StartFailure
import RasPiZeroCam.Stream.Clients
import RasPiZeroCam.Stream.Resolutions
import RasPiZeroCam.Stream.Control
import RasPiZeroCam.Stream.Exclusive
import RasPiZeroCam.Stream.Feed
import RasPiZeroCam.Stream.JpegMt
import RasPiZeroCam.Stream.Shutdown
import RasPiZeroCam.Stream.JpegHw
import RasPiZeroCam.Record.Grants
import RasPiZeroCam.Stream.Mjpeg
import RasPiZeroCam.Stream.MainLoop
import RasPiZeroCam.Stream.Snapshot
import RasPiZeroCam.Control.Names
import RasPiZeroCam.Stream.Planar
import RasPiZeroCam.Control.Deletion
import RasPiZeroCam.Control.Listing
import RasPiZeroCam.Camera.Stills
import RasPiZeroCam.Camera.Tags
import RasPiZeroCam.Record.Captures
import RasPiZeroCam.Record.SampleRefs
import RasPiZeroCam.Record.SampleRelease
import RasPiZeroCam.Stream.Multipart
import RasPiZeroCam.Stream.ServerThread
import RasPiZeroCam.Control.WsClients
import RasPiZeroCam.Control.Broadcast
import RasPiZeroCam.Power.Ina219
import RasPiZeroCam.Power.BatteryMonitor
import RasPiZeroCam.Camera.QueueSize
import RasPiZeroCam.Stream.Rows
import RasPiZeroCam.Power.Monitor
import RasPiZeroCam.Power.Polling
import RasPiZeroCam.Power.Stopping
import RasPiZeroCam.Power.Chip
import RasPiZeroCam.Control.Lexer
import RasPiZeroCam.Control.Parser
import RasPiZeroCam.Control.Numerals
import RasPiZeroCam.Control.RoundTrip
import RasPiZeroCam.Control.BatteryJson
import RasPiZeroCam.Control.Handlers
import RasPiZeroCam.Control.Periodic
import RasPiZeroCam.Control.Pushed
import RasPiZeroCam.Codes.Supply
import RasPiZeroCam.WebSocket.Socket
import RasPiZeroCam.WebSocket.Frames
import RasPiZeroCam.WebSocket.Utf8
import RasPiZeroCam.WebSocket.Messages
import RasPiZeroCam.WebSocket.Session
import RasPiZeroCam.WebSocket.Conversation
import RasPiZeroCam.WebSocket.Writers
import RasPiZeroCam.Record.Devices
