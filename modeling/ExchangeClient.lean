import ExchangeClient.Lib.Splitting
import ExchangeClient.Lib.Loop
import ExchangeClient.Lib.Bytes
import ExchangeClient.Lib.SortedMap
import ExchangeClient.Lib.Utf8
import ExchangeClient.Json.Value
import ExchangeClient.Json.Number
import ExchangeClient.Json.Serializer
import ExchangeClient.Json.Lexer
import ExchangeClient.Json.Parser
import ExchangeClient.Json.Strings
import ExchangeClient.Json.Numbers
import ExchangeClient.Json.RoundTrip
import ExchangeClient.Lib.StreamingHash
import ExchangeClient.Lib.Sha256
import ExchangeClient.Lib.Footprint
import ExchangeClient.Lib.Hex
import ExchangeClient.Util.Encoding
import ExchangeClient.Util.Http
import ExchangeClient.Util.SignedRequest
import ExchangeClient.Rest.Client
import ExchangeClient.Rest.Orders
import ExchangeClient.Rest.Signature
import ExchangeClient.Util.Ws
import ExchangeClient.Ws.Subscriber
import ExchangeClient.Ws.Ftx
import ExchangeClient.Ws.Bitstamp
import ExchangeClient.Ws.Frames
import ExchangeClient.Ws.Login
import ExchangeClient.Lib.Transition
import ExchangeClient.Ws.Session
import ExchangeClient.Lib.HttpHead
import ExchangeClient.Rest.Wire
import ExchangeClient.Engine.Start
import ExchangeClient.Engine.Independence
import ExchangeClient.Lib.Keystream
import ExchangeClient.Lib.LittleEndian
import ExchangeClient.Websocketpp.Frame
import ExchangeClient.Websocketpp.Hybi13
import ExchangeClient.Websocketpp.Reading
import ExchangeClient.Lib.FieldReader
import ExchangeClient.Json.Accepted
import ExchangeClient.Json.Texts
import ExchangeClient.Websocketpp.Close
import ExchangeClient.Websocketpp.Connection
import ExchangeClient.Websocketpp.Handlers
import ExchangeClient.Websocketpp.Replies
import ExchangeClient.Ws.Delivery
