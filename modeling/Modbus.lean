import Modbus.Lib.Checked
import Modbus.Lib.Bytes
import Modbus.Lib.Walk
import Modbus.Core.Messages
import Modbus.Core.MessageKind
import Modbus.Core.TcpDataUnit
import Modbus.Core.Layout
import Modbus.Core.Frame
import Modbus.Core.RoundTrip
import Modbus.Core.Bounds
import Modbus.Server.Helper
import Modbus.Server.BitMap
import Modbus.Core.Response
import Modbus.Lib.Writes
import Modbus.Server.Coils
import Modbus.Server.BlockWrite
import Modbus.Server.Registers
import Modbus.Lib.Stream
import Modbus.Server.Session
import Modbus.Server.Segmentation
import Modbus.Client.TcpClient
import Modbus.Client.Framing
import Modbus.Client.Matching
import Modbus.Client.Boundary
import Modbus.Server.Writing
import Modbus.Client.Limits
import Modbus.Client.Totality
import Modbus.Lib.Transition
import Modbus.Server.SessionManager
import Modbus.Server.Admission
import Modbus.Server.Task
import Modbus.Server.TcpServer
import Modbus.Server.Owners
import Modbus.Server.Slots
import Modbus.Server.Shutdown
import Modbus.Core.Reach
import Modbus.Server.Consistency
import Modbus.Core.Leftovers
import Modbus.Core.Canonical
import Modbus.Client.Validation
import Modbus.Client.Pool
import Modbus.Core.Packing
import Modbus.Core.ResponsePath
import Modbus.Server.MaskedWrite
import Modbus.Core.Serialize
import Modbus.Server.RequestHandler
import Modbus.Server.Answering
import Modbus.Server.Protection
import Modbus.Server.Service
import Modbus.Server.Device
import Modbus.Server.CallSafety
import Modbus.Server.Linearization
import Modbus.EndToEnd.Network
import Modbus.EndToEnd.Completion
import Modbus.Server.Draining
import Modbus.Client.Leases
import Modbus.EndToEnd.LateAnswers
import Modbus.EndToEnd.LastWritten
import Modbus.Core.Streams
import Modbus.Client.SharedRequests
import Modbus.EndToEnd.Isolation
import Modbus.EndToEnd.Numbering
import Modbus.Server.Separation
import Modbus.EndToEnd.Checking
