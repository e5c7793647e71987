import VideoAdapter.Adapter.Answers
import VideoAdapter.Adapter.CameraHistory
import VideoAdapter.Adapter.CameraListing
import VideoAdapter.Adapter.CameraLoad
import VideoAdapter.Adapter.Coherence
import VideoAdapter.Adapter.ConnPool
import VideoAdapter.Adapter.Descriptors
import VideoAdapter.Adapter.DevTable
import VideoAdapter.Adapter.Echoes
import VideoAdapter.Adapter.Enforcement
import VideoAdapter.Adapter.Grammar
import VideoAdapter.Adapter.Greeting
import VideoAdapter.Adapter.Inbound
import VideoAdapter.Adapter.Logins.Refinement
import VideoAdapter.Adapter.Mailbox
import VideoAdapter.Adapter.Ownership
import VideoAdapter.Adapter.Push.Authorisation
import VideoAdapter.Adapter.Push.Landing
import VideoAdapter.Adapter.Push.Publishing
import VideoAdapter.Adapter.Push.Refinement
import VideoAdapter.Adapter.PushExits
import VideoAdapter.Adapter.ReadTask.Segmentation
import VideoAdapter.Adapter.Rejections
import VideoAdapter.Adapter.Schedule
import VideoAdapter.Adapter.Sending
import VideoAdapter.Adapter.Sessions
import VideoAdapter.Adapter.SockIo
import VideoAdapter.Adapter.StateReports
import VideoAdapter.Adapter.Statements
import VideoAdapter.Ages
import VideoAdapter.Http.EpollSocket.Clients
import VideoAdapter.Http.HttpServer
import VideoAdapter.Http.HttpServer.Client
import VideoAdapter.Http.HttpServer.Serving
import VideoAdapter.Http.Multipart.RoundTrip
import VideoAdapter.Http.Request.Params
import VideoAdapter.Sak.ThreadPool.Drain
import VideoAdapter.Wss.Calls.NewRoom.Theorems
import VideoAdapter.Wss.Calls.Refinement
import VideoAdapter.Wss.Delivery
import VideoAdapter.Wss.Ghosts
import VideoAdapter.Wss.Handlers
import VideoAdapter.Wss.Join.Refinement
import VideoAdapter.Wss.Join.Theorems
import VideoAdapter.Wss.Joinable
import VideoAdapter.Wss.Locks.Simulation
import VideoAdapter.Wss.NullEntries
import VideoAdapter.Wss.PushUrl
import VideoAdapter.Wss.RoomKeys
import VideoAdapter.Wss.RoomLife
import VideoAdapter.Wss.Stale
import VideoAdapter.Wss.Timeouts
import VideoAdapter.Wss.Viewers
