import WireGui.Nft.Table
import WireGui.Nft.Eval
import WireGui.Nft.Packet
import WireGui.Ip.Text
import WireGui.Nft.Syntax
import WireGui.Lib.List
import WireGui.Lib.SetOrder
import WireGui.Models
import WireGui.Services.Firewall
import WireGui.Services.FirewallText
import WireGui.Nft.Rebuild
import WireGui.Services.FirewallSpec
import WireGui.Services.Events
import WireGui.Services.FastPath
import WireGui.Services.Frame
import WireGui.Api.Rules
import WireGui.Lib.Text
import WireGui.Pages.AdminRules
import WireGui.Pages.RuleEdits
import WireGui.Pages.RulePriorities
import WireGui.Tasks.Reconcile
import WireGui.Tasks.GlobalRules
import WireGui.Main
import WireGui.Services.Policy
import WireGui.Utils.Network
import WireGui.Api.Devices
import WireGui.Lib.Run
import WireGui.Services.Users
import WireGui.Services.Ownership
import WireGui.Services.Concurrent
import WireGui.Services.RuleText
import WireGui.Pages.Login
import WireGui.Pages.SecondFactor
import WireGui.Pages.SignIn
import WireGui.Api.Deps
import WireGui.Pages.AdminGuard
import WireGui.Api.Users
import WireGui.Pages.LastAdmin
import WireGui.Schemas
import WireGui.Api.Updates
import WireGui.Api.DeviceRequests
import WireGui.Pages.Devices
import WireGui.Pages.DeviceSwitches
import WireGui.Pages.AuthMagic
import WireGui.Pages.Account
import WireGui.Pages.AuthOidc
import WireGui.Pages.ProviderEdits
import WireGui.Auth.Oidc
import WireGui.Tasks.OidcRefresh
import WireGui.Services.Isolation
import WireGui.Services.Wireguard
import WireGui.Services.Routes
import WireGui.Services.DeviceEvents
import WireGui.Tasks.Peers
import WireGui.Services.PeerCommands
import WireGui.Services.Prefixes
import WireGui.Services.RouteSync
import WireGui.Services.DeviceTasks
import WireGui.Services.UserDeletion
import WireGui.Tasks.VpnSession
import WireGui.Lib.Transactions
import WireGui.Pages.AdminSettings
import WireGui.Ip.Network
import WireGui.Services.RuleMatch
import WireGui.Tasks.RuleOrder
import WireGui.Utils.SubnetList
import WireGui.Utils.Allocation
import WireGui.Services.RouteExact
import WireGui.Tasks.ExpiryTick
import WireGui.Tasks.OidcErrors
import WireGui.Lib.Dict
import WireGui.Auth.Seed
import WireGui.Lib.Lines
import WireGui.Services.PeerInfo
import WireGui.Tasks.Stats
import WireGui.Collector
import WireGui.Lib.Prometheus
import WireGui.Lib.Ini
import WireGui.Utils.WgConf
import WireGui.Pages.ClientEndpoint
import WireGui.Pages.ActiveConfiguration
import WireGui.Lib.Raise
import WireGui.Pages.CreateDevice
import WireGui.Lib.BoundedQueue
import WireGui.Nft.Managed
import WireGui.Nft.Nat
import WireGui.Services.AccessControl
import WireGui.Services.Interface
import WireGui.Services.Notifications
import WireGui.Tasks.Connectivity
import WireGui.Lib.Base64
import WireGui.Pages.EditForms
import WireGui.Restart
import WireGui.Wg.Tunnel
import WireGui.Clients
import WireGui.Pages.Credentials
import WireGui.DeviceWriters
import WireGui.Pages.Passwords
