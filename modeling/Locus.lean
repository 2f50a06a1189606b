import Locus.Lib.System
import Locus.Lib.Prog
import Locus.Lib.Histories
import Locus.Lib.Ledger
import Locus.Lib.LastWrite
import Locus.Lib.SingleFlight
import Locus.Lib.TtlCache
import Locus.Lib.Unwinding
import Locus.Lib.Words
import Locus.Lib.Paging
import Locus.Lib.Binary64
import Locus.Lib.Async
import Locus.Server.Api
import Locus.Server.RefreshTokens
import Locus.Server.Membership
import Locus.Server.Atomicity
import Locus.Server.GeoQueries
import Locus.Server.Pages
import Locus.Server.Snapshots
import Locus.Server.Votes
import Locus.Server.Joining
import Locus.Server.Accounts
import Locus.Server.Passwords
import Locus.Server.PasswordRaces
import Locus.Server.PublicReads
import Locus.Server.ListCache
import Locus.Server.CacheEntries
import Locus.Server.Radius
import Locus.Server.Notifications
import Locus.Server.Profile
import Locus.Mobile.Keychain
import Locus.Mobile.LateEffects
import Locus.Mobile.Timeouts
import Locus.Mobile.Device
import Locus.Mobile.Queue
import Locus.Mobile.Sessions
import Locus.Mobile.StaleLogout
import Locus.Mobile.SignOut
import Locus.Mobile.RefreshOnce
import Locus.Mobile.RetryBound
import Locus.App.CommunityList
import Locus.App.ListPages
import Locus.App.MyCommunities
import Locus.App.CommunitySearch
import Locus.App.MapSearch
import Locus.App.Rent
import Locus.App.Registration
import Locus.App.AuthErrors
import Locus.App.Client
import Locus.App.Logout
import Locus.App.WrongPassword
import Locus.App.EditProfile
import Locus.Backend.CommunityService
import Locus.Backend.Founders
import Locus.Backend.MemberRights
import Locus.Backend.MalformedIds
import Locus.App.Savings
import Locus.App.Pagination
import Locus.App.WebSocket
import Locus.Lib.ShortestDecimal
import Locus.Server.JsPrinting
import Locus.Server.PageArguments
import Locus.Lib.Growing
import Locus.Lib.Guarantee
import Locus.Server.Requests
import Locus.Server.History
import Locus.Server.Authority
import Locus.Server.Custody
import Locus.Server.Constraints
import Locus.Server.Roles
import Locus.Lib.Outcomes
import Locus.Server.Refusals
import Locus.App.MembersTab
import Locus.App.UnreadCount
import Locus.App.Voting
import Locus.Backend.Accounts
import Locus.Server.Credentials
import Locus.App.Agreement
import Locus.Mobile.Loader
import Locus.App.Reconnect
import Locus.App.AddProperty
import Locus.App.Geocoding
import Locus.Server.FirstLogin
import Locus.App.RegisterScreen
import Locus.Backend.OverlappingCalls
import Locus.Backend.SettledMemberships
import Locus.App.ChangePassword
import Locus.Server.TokenLife
