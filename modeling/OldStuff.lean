import OldStuff.Dup.Again
import OldStuff.Dup.Delete
import OldStuff.Dup.Exact
import OldStuff.Dup.Links
import OldStuff.Dup.Listing
import OldStuff.Dup.Program
import OldStuff.Dup.Rename
import OldStuff.Io.Descriptor
import OldStuff.Io.Edits
import OldStuff.Io.ReadAll
import OldStuff.Io.Select
import OldStuff.Io.Sockets
import OldStuff.Io.Transfer
import OldStuff.Io.TrySelect
import OldStuff.Io.WriteAll
import OldStuff.Lib.Buckets
import OldStuff.Lib.Calling
import OldStuff.Lib.Dialogue
import OldStuff.Lib.Ere
import OldStuff.Lib.Fields
import OldStuff.Lib.Fifo
import OldStuff.Lib.Ledger
import OldStuff.Lib.Outcome
import OldStuff.Lib.Roster
import OldStuff.Lib.Rounding
import OldStuff.Lib.Wild
import OldStuff.Socks.Access
import OldStuff.Socks.Bind
import OldStuff.Socks.Cap
import OldStuff.Socks.Charge
import OldStuff.Socks.Chronicle
import OldStuff.Socks.Client
import OldStuff.Socks.Clock
import OldStuff.Socks.Config
import OldStuff.Socks.Connection
import OldStuff.Socks.Course
import OldStuff.Socks.Custody
import OldStuff.Socks.Destination
import OldStuff.Socks.Dialect
import OldStuff.Socks.Document
import OldStuff.Socks.Exchange
import OldStuff.Socks.Expiry
import OldStuff.Socks.Firewall
import OldStuff.Socks.Flow
import OldStuff.Socks.Freeze
import OldStuff.Socks.Grammar
import OldStuff.Socks.HalfClose
import OldStuff.Socks.Handshake
import OldStuff.Socks.Http
import OldStuff.Socks.Interest
import OldStuff.Socks.Isolation
import OldStuff.Socks.Keeping
import OldStuff.Socks.Kernel
import OldStuff.Socks.Limit
import OldStuff.Socks.Literal
import OldStuff.Socks.Load
import OldStuff.Socks.Lookup
import OldStuff.Socks.Network
import OldStuff.Socks.Order
import OldStuff.Socks.Pacer
import OldStuff.Socks.Page
import OldStuff.Socks.Patience
import OldStuff.Socks.Positions
import OldStuff.Socks.Readiness
import OldStuff.Socks.Reading
import OldStuff.Socks.Relay
import OldStuff.Socks.Reload
import OldStuff.Socks.Reply
import OldStuff.Socks.Request
import OldStuff.Socks.Schedule
import OldStuff.Socks.Segments
import OldStuff.Socks.Server
import OldStuff.Socks.Session
import OldStuff.Socks.Stages
import OldStuff.Socks.Steady
import OldStuff.Socks.Survivor
import OldStuff.Socks.Tariff
import OldStuff.Socks.Throttle
import OldStuff.Socks.Trim
import OldStuff.Socks.Wakeup
import OldStuff.Socks.Wiring
import OldStuff.Socks.Work
import OldStuff.Socks.Wrap
import OldStuff.Socks.Writing
