import HttpsServ.Library.ByteString
import HttpsServ.Library.LexicalPath
import HttpsServ.Library.Numeral
import HttpsServ.Library.Chunked
import HttpsServ.Library.HeaderBlock
import HttpsServ.Utility
import HttpsServ.PathSanitizer
import HttpsServ.HttpParser
import HttpsServ.TlsAdapter
import HttpsServ.Http
import HttpsServ.RequestHeader
import HttpsServ.PathContainment
import HttpsServ.ResponseHeader
import HttpsServ.ChunkFrames
import HttpsServ.Library.Script
import HttpsServ.StaticTransfer
import HttpsServ.PayloadConservation
import HttpsServ.ChunkedBody
import HttpsServ.IntegerHelpers
import HttpsServ.ResponseBytes
import HttpsServ.ErrorResponse
import HttpsServ.Transport
import HttpsServ.ResponseFrame
import HttpsServ.KeepAlive
import HttpsServ.ReadBoundaries
import HttpsServ.Library.LockProgram
import HttpsServ.Logger
import HttpsServ.CaseSearch
import HttpsServ.Library.Words
import HttpsServ.RequestWords
import HttpsServ.RequestGrammar
import HttpsServ.RequestMemory
import HttpsServ.RequestRendering
import HttpsServ.ChunkBounds
import HttpsServ.ContentLength
import HttpsServ.ConnectionEnd
import HttpsServ.ResourceBalance
import HttpsServ.HeaderUpdates
import HttpsServ.SanitizedPath
import HttpsServ.Library.Segments
import HttpsServ.ContentType
import HttpsServ.ConnectionOptions
import HttpsServ.RequestLog
import HttpsServ.Networking
import HttpsServ.PeerAddress
import HttpsServ.Configuration
import HttpsServ.ConfigurationText
import HttpsServ.Library.BitSmear
import HttpsServ.Library.CheckedInt
import HttpsServ.Library.SlotArray
import HttpsServ.FieldSlots
import HttpsServ.LineBuffer
import HttpsServ.PathStores
import HttpsServ.Library.AtomicSections
import HttpsServ.LogFile
import HttpsServ.ServerLog
import HttpsServ.Library.MessageStream
import HttpsServ.Conversation
import HttpsServ.Library.HeapProgram
import HttpsServ.ResponseMemory
import HttpsServ.HeaderLife
import HttpsServ.SendMemory
import HttpsServ.ConnectionMemory
import HttpsServ.ConfigurationMemory
import HttpsServ.ConnectionLife
import HttpsServ.Library.Descriptors
import HttpsServ.ServerLifecycle
import HttpsServ.ServerProcess
