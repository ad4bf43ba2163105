import Zorkbot.Admin.ChannelKeys
import Zorkbot.Admin.Chronicle
import Zorkbot.Admin.ConsoleTokens
import Zorkbot.Admin.Constraints
import Zorkbot.Admin.HistoryRequests
import Zorkbot.Admin.LogReplay
import Zorkbot.Admin.MessageWindow
import Zorkbot.Admin.PlayerPaging
import Zorkbot.Admin.RadioConsole
import Zorkbot.Admin.RadioFlight
import Zorkbot.Admin.RadioRefresh
import Zorkbot.Admin.RadioSections
import Zorkbot.Admin.ReceptionAccounts
import Zorkbot.Admin.Retention
import Zorkbot.Admin.Reuse
import Zorkbot.Admin.Scopes
import Zorkbot.Admin.SessionBus
import Zorkbot.Admin.SessionHistory
import Zorkbot.Admin.Sse
import Zorkbot.Admin.Throttle
import Zorkbot.Admin.Tokens
import Zorkbot.Admin.Transports
import Zorkbot.Bot.Acceptance
import Zorkbot.Bot.Advertiser
import Zorkbot.Bot.Authentication
import Zorkbot.Bot.FanoutOrder
import Zorkbot.Bot.Help
import Zorkbot.Bot.LastWord
import Zorkbot.Bot.Listings
import Zorkbot.Bot.Reconciliation
import Zorkbot.Bot.Roles
import Zorkbot.Bot.Sanitize
import Zorkbot.Bot.SendAccounts
import Zorkbot.Bot.Telling
import Zorkbot.Bot.Transcript
import Zorkbot.Bot.Waiting
import Zorkbot.Bot.WatcherCopy
import Zorkbot.Compose.AntiSquat
import Zorkbot.Compose.Escapes
import Zorkbot.Compose.Listing
import Zorkbot.Compose.LiveSessions
import Zorkbot.Config.Honoured
import Zorkbot.Data.Table
import Zorkbot.Pty.AutoEnd
import Zorkbot.Pty.Bound
import Zorkbot.Pty.DeadSessions
import Zorkbot.Pty.Endings
import Zorkbot.Pty.Extract
import Zorkbot.Pty.Fragments
import Zorkbot.Pty.Lineage
import Zorkbot.Pty.Manager
import Zorkbot.Pty.Reset
import Zorkbot.Pty.Responses
import Zorkbot.Pty.Resume
import Zorkbot.Transition.System
