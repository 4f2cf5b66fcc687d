import FcsServer.Accessors
import FcsServer.WordBuffers
import FcsServer.ParserState
import FcsServer.CallOutcome
import FcsServer.PayloadFraming
import FcsServer.Relay
import FcsServer.ReservedBits
import FcsServer.EventService
import FcsServer.IdleReclaim
import FcsServer.Listening
import FcsServer.ReadReadiness
import FcsServer.StreamFraming
import FcsServer.Survival
import FcsServer.ResponseDelivery
import FcsServer.Isolation
import FcsServer.RequestEncoding
import FcsServer.ClientSession
import FcsServer.RemoteCall
import FcsServer.CallProtocol
import FcsServer.OpenDescriptors
import FcsServer.Lib.Simulation
import FcsServer.TableState
import FcsServer.Shutdown
import FcsServer.CleanExit
import FcsServer.Logger
import FcsServer.FilterLog
import FcsServer.ServerLog
import FcsServer.Lib.Grammar
import FcsServer.FailureReports
import FcsServer.LastWords
import FcsServer.LogSecrecy
import FcsServer.Main
