import NatClient.WrapperRuns
import NatClient.SwitchCommand
import NatClient.IceLifetime
import NatClient.SdpRoundTrip
import NatClient.EncoderBounds
import NatClient.DescriptionContent
import NatClient.NegotiationRuns
import NatClient.HeapBlocks
import NatClient.HttpWrapper
import NatClient.Download
import NatClient.PeerFetch
import NatClient.SdpTurns
import NatClient.SdpReference
import NatClient.SdpBounds
import NatClient.XmlGrammar
import NatClient.UriGrammar
import NatClient.SplicedTexts
import NatClient.TreeSearch
import NatClient.PostBody
import NatClient.LineInput
import NatClient.ConsoleDispatch
import NatClient.MessageSplit
import NatClient.ZwaveForward
import NatClient.Separators
import NatClient.SignalRequests
import NatClient.PeerList
import NatClient.WorkerThread
import NatClient.IceProgress
import NatClient.RoleConflicts
import NatClient.TransportLibrary
import NatClient.DescriptionExchange
