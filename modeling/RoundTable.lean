import RoundTable.Matcher.Adverts
import RoundTable.Matcher.Pairing
import RoundTable.Matcher.Completions
import RoundTable.Matcher.FirstClaim
import RoundTable.Matcher.Serving
import RoundTable.Matcher.Callbacks
import RoundTable.Matcher.Results
import RoundTable.Matcher.Reentrance
import RoundTable.Matcher.Listeners
import RoundTable.Matcher.Collisions
import RoundTable.Matcher.Counters
import RoundTable.Matcher.Handshake
import RoundTable.Matcher.Catalogue
import RoundTable.Contract.Authority
import RoundTable.Contract.Seats
import RoundTable.Contract.Readable
import RoundTable.Contract.Deposits
import RoundTable.Client.Lists
import RoundTable.Client.Format
import RoundTable.Client.Deletion
import RoundTable.Client.RoundTable
import RoundTable.Client.ChatLog
import RoundTable.Client.Stringify
import RoundTable.Shared.KeyText
import RoundTable.Wire.Messages
import RoundTable.Matcher.Publishing
import RoundTable.Wire.Channels
import RoundTable.Wire.Bus
import RoundTable.Wire.Converse
import RoundTable.Wire.Views
import RoundTable.Server.Server
import RoundTable.Contract.Acceptance
import RoundTable.Client.Reads
import RoundTable.Client.P2P
import RoundTable.Client.CommandLine
