import FreeswitchContrib.SimpleLcr.ReusedArrays
import FreeswitchContrib.SimpleLcr.HotReload
import FreeswitchContrib.SimpleLcr.Lookups
import FreeswitchContrib.Nibblebill.LockBalance
import FreeswitchContrib.Nibblebill.Conservation
import FreeswitchContrib.Nibblebill.NoNegativeBill
import FreeswitchContrib.Nibblebill.FailedUpdates
import FreeswitchContrib.Esl.OutboundHeaders
import FreeswitchContrib.Esl.EslEvent
import FreeswitchContrib.Esl.SyncReplies
import FreeswitchContrib.Esl.Connecting
import FreeswitchContrib.EventSocket.MessageParsing
import FreeswitchContrib.EventSocket.IvrQueue
import FreeswitchContrib.EventSocket.CommandQueue
import FreeswitchContrib.Amqp.Hostnames
import FreeswitchContrib.Amqp.DeadConnections
import FreeswitchContrib.Amqp.Messages
import FreeswitchContrib.Amqp.RoutingKeys
import FreeswitchContrib.Amqp.RejectedReloads
import FreeswitchContrib.Esl2agi.ArgumentArrays
import FreeswitchContrib.Esl2agi.ReadLoop
import FreeswitchContrib.HaCluster.Heartbeats
import FreeswitchContrib.HaCluster.Reload
import FreeswitchContrib.HaCluster.HeartbeatLinks
import FreeswitchContrib.HaCluster.FirewallChains
import FreeswitchContrib.S25Vmail.MessageFraming
import FreeswitchContrib.S25Vmail.Buffers
import FreeswitchContrib.Blacklist.AcknowledgedUpdates
import FreeswitchContrib.Khomp.OptionValues
import FreeswitchContrib.Khomp.Strings
import FreeswitchContrib.Khomp.Pairing
import FreeswitchContrib.Khomp.FindChannel
import FreeswitchContrib.Khomp.Format
import FreeswitchContrib.Csta.CrossReferences
import FreeswitchContrib.Csta.Hangups
import FreeswitchContrib.VoicemailOriginate.OneCallback
import FreeswitchContrib.VoicemailOriginate.Precedence
import FreeswitchContrib.VoicemailOriginate.ProfileLifetimes
import FreeswitchContrib.VoicemailOriginate.ConfigProfiles
import FreeswitchContrib.XmlOdbc.EventHeaders
import FreeswitchContrib.XmlOdbc.OutputTrees
import FreeswitchContrib.XmlOdbcSimple.DirectoryTrees
import FreeswitchContrib.XmlOdbcSimple.Credentials
import FreeswitchContrib.XmlRadius.Templates
import FreeswitchContrib.XmlRadius.Lookups
import FreeswitchContrib.ModTranslate.Unloading
import FreeswitchContrib.Fsair.Replies
import FreeswitchContrib.FsSock.MessageBoundaries
import FreeswitchContrib.Telegraph.EventStream
import FreeswitchContrib.XmlCdrd.EscapedExpansion
import FreeswitchContrib.FsClient.CallList
import FreeswitchContrib.SimpleLcr.RejectedPrefixes
import FreeswitchContrib.SimpleLcr.ArraySizes
import FreeswitchContrib.SimpleLcr.CompleteDialstrings
import FreeswitchContrib.ModHttp.JsonBuffer
import FreeswitchContrib.OdbcQuery.XmlAnswer
import FreeswitchContrib.ModHttp.LexerProgress
import FreeswitchContrib.EventSocket.EventNames
import FreeswitchContrib.XmlCdrd.PluginSorting
import FreeswitchContrib.FsConsole.Trim
import FreeswitchContrib.FsClient.Conference
import FreeswitchContrib.FsClient.AccountNumbers
import FreeswitchContrib.FsClient.DefaultAccount
import FreeswitchContrib.ModFgi.Commands
import FreeswitchContrib.FsEventsd.Profiles
import FreeswitchContrib.ModCsta.Subscriptions
import FreeswitchContrib.ModHttp.Requests
