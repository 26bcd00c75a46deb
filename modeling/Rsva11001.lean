import Rsva11001.Lib.Region
import Rsva11001.Lib.Run
import Rsva11001.Lib.Framing
import Rsva11001.Lib.RoundRobin
import Rsva11001.Lib.Queue
import Rsva11001.Lib.Search
import Rsva11001.Lib.Transducer
import Rsva11001.Connection.Parser
import Rsva11001.Connection.Basic
import Rsva11001.Connection.Recv
import Rsva11001.Connection.Process
import Rsva11001.Connection.Session
import Rsva11001.Adapter.Globals
import Rsva11001.Adapter.Requests
import Rsva11001.Adapter.Configuration
import Rsva11001.Adapter.Images
import Rsva11001.Adapter.Publisher
import Rsva11001.Adapter.Reactor
import Rsva11001.Adapter.Main
import Rsva11001.Http.Basic
import Rsva11001.Http.Url
import Rsva11001.Http.Execute
import Rsva11001.Http.Response
import Rsva11001.Utils.FindJffs2Nodes
import Rsva11001.Verify.Message
import Rsva11001.Verify.Receiver
import Rsva11001.Verify.Opening
import Rsva11001.Verify.Integrity
import Rsva11001.Verify.Chunks
import Rsva11001.Verify.Limits
import Rsva11001.Verify.Process
import Rsva11001.Verify.Handlers
import Rsva11001.Verify.Cameras
import Rsva11001.Verify.Progress
import Rsva11001.Verify.Driving
import Rsva11001.Verify.Refusals
import Rsva11001.Verify.Strtoul
import Rsva11001.Verify.Routing
import Rsva11001.Verify.Exclusion
import Rsva11001.Verify.Handover
import Rsva11001.Verify.Board
import Rsva11001.Verify.Clients
import Rsva11001.Verify.Overflow
import Rsva11001.Verify.Configuration
import Rsva11001.Verify.Main
import Rsva11001.Verify.Pending
import Rsva11001.Verify.Provenance
import Rsva11001.Verify.Shutdown
import Rsva11001.Verify.Ready
import Rsva11001.Verify.Outcome
import Rsva11001.Verify.Encoding
import Rsva11001.Verify.FindJffs2Nodes
import Rsva11001.Verify.Publication
import Rsva11001.Verify.Readers
import Rsva11001.Verify.HttpSafety
import Rsva11001.Verify.HttpBytewise
import Rsva11001.Verify.HttpMachine
import Rsva11001.Verify.HttpCallback
import Rsva11001.Verify.HttpConnection
import Rsva11001.Verify.HttpLength
import Rsva11001.Verify.HttpHead
import Rsva11001.Verify.HttpResponse
import Rsva11001.Verify.HttpImages
