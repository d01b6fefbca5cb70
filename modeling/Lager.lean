import Lager.Chunked.Truncation
import Lager.Chunked.Agreement
import Lager.Nets.Streams
import Lager.Nets.Timing
import Lager.Nets.Messages
import Lager.Nets.Methods
import Lager.Nets.ScopeViews
import Lager.Nets.ScopeOneShot
import Lager.Nets.ScopePacing
import Lager.Auth.Cookies
import Lager.Client.Rejected
import Lager.Client.Mirror
import Lager.Client.Effects
import Lager.Client.Conduct
import Lager.Client.Provenance
import Lager.Client.Pinned
import Lager.Client.Plain
import Lager.Client.Openings
import Lager.Client.Handshake
import Lager.Client.RttStream
import Lager.Client.DebugTunnel
import Lager.Client.Lock
import Lager.Client.Address
import Lager.Wire.Multipart
import Lager.Wire.NetRecord
import Lager.Wire.Routes
import Lager.Nets.DebugCache
import Lager.Nets.DebugGate
import Lager.Wire.Hex
import Lager.Nets.Base64
import Lager.Wire.Query
import Lager.Wire.BusData
import Lager.Client.Answers
import Lager.Chunked.Transient
import Lager.Chunked.Sizes
import Lager.Wire.HeadText
import Lager.Wire.Disposition
import Lager.Nets.Budget
