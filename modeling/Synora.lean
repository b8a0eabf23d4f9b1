import Synora.Lib.Steps
import Synora.Lib.Calls
import Synora.Lib.Expiring
import Synora.Lib.Hex
import Synora.Lib.Uuid
import Synora.Lib.Civil
import Synora.Lib.Rfc3339
import Synora.Lib.Base64Url
import Synora.Lib.Json
import Synora.Lib.JsonNumber
import Synora.Lib.StructFields
import Synora.Lib.Jwt
import Synora.Lib.Keyset
import Synora.Money
import Synora.Schema
import Synora.HotState
import Synora.SettleTx
import Synora.Server
import Synora.Bid
import Synora.Settle
import Synora.System
import Synora.Sent
import Synora.Pair
import Synora.Increasing
import Synora.Agreement
import Synora.Cleanup
import Synora.Commits
import Synora.Exits
import Synora.Create
import Synora.Ledger
import Synora.Auth
import Synora.Listing
import Synora.Pagination
import Synora.Lasting
import Synora.Spelling
import Synora.Lib.Utf8
import Synora.Lib.JsonDecoder
import Synora.Lib.Stringify
import Synora.Request
import Synora.Client
import Synora.Unpriced
import Synora.Lib.FixedWindow
import Synora.Middleware
import Synora.Terminal
import Synora.Shown
import Synora.Decision
import Synora.Hub
import Synora.Admission
import Synora.Delivery
import Synora.Handshake
import Synora.Limits
import Synora.Rows
import Synora.Queries
import Synora.Price
import Synora.Event
import Synora.Google
import Synora.SignIns
import Synora.Lib.JsValue
import Synora.TabSession
import Synora.Expiry
import Synora.Lib.Channel
import Synora.Cursor
import Synora.Closing
import Synora.Assets
import Synora.Lockout
import Synora.Payment
import Synora.Threads
import Synora.Lib.Apart
import Synora.Independence
import Synora.Serial
import Synora.Lib.AuctionHouse
import Synora.Backend
import Synora.Unsold
import Synora.Lib.Batch
import Synora.Scan
import Synora.Teardown
import Synora.Lib.UrlForm
import Synora.Lib.UrlPath
import Synora.Login
import Synora.Routes
import Synora.LoginSession
import Synora.Lib.GoDuration
import Synora.Lifetime
import Synora.Live
import Synora.Watched
import Synora.Told
import Synora.Captcha
import Synora.CaptchaScript
