import RdEngine.Lib.Runs
import RdEngine.Lib.Dialogue
import RdEngine.Lib.Words
import RdEngine.Lib.Decoder
import RdEngine.Message
import RdEngine.Authentication
import RdEngine.AuthenticationSafety
import RdEngine.BytesCodec
import RdEngine.FrameCodec
import RdEngine.Tcp
import RdEngine.Nonces
import RdEngine.Transport
import RdEngine.TransportOrder
import RdEngine.HandshakePinned
import RdEngine.PermissionReports
import RdEngine.RendezvousSafety
import RdEngine.Text
import RdEngine.Vnc.Auth
import RdEngine.Vnc.Session
import RdEngine.Vnc.Server
import RdEngine.Vnc.Security
import RdEngine.Vnc.Init
import RdEngine.Vnc.Accumulation
import RdEngine.Vnc.Resize
import RdEngine.Vnc.UpdateFlow
import RdEngine.Vnc.Sequential
import RdEngine.Vnc.PixelExact
import RdEngine.Vnc.FormatInEffect
import RdEngine.Vnc.VersionBanner
import RdEngine.Vnc.CutText
import RdEngine.Vnc.Alignment
import RdEngine.Vnc.Allocations
import RdEngine.Vnc.DesExact
import RdEngine.Viewer.Revocation
import RdEngine.Viewer.InputOrder
import RdEngine.Viewer.GeometryFreshness
import RdEngine.Viewer.OptionsAgree
import RdEngine.Host.ApprovalIsolation
import RdEngine.Authenticity
import RdEngine.Platform.DecoderBuffers
import RdEngine.Platform.PublisherCredit
import RdEngine.Platform.AnnexB
import RdEngine.Platform.KeyUnits
import RdEngine.Platform.WindowsQueue
import RdEngine.Platform.LeaseConservation
import RdEngine.Platform.OpenFailures
import RdEngine.Platform.WindowsBitrate
import RdEngine.Platform.BitrateEvidence
import RdEngine.Lib.Grid
import RdEngine.Platform.Pacing
import RdEngine.Platform.Teardown
import RdEngine.Platform.EncoderLoans
import RdEngine.Viewer.ReclamationTruth
import RdEngine.Viewer.Handoff
import RdEngine.Viewer.Credentials
import RdEngine.Viewer.FirstLogin
import RdEngine.Vnc.LiveEnd
import RdEngine.Vnc.FirstResponse
import RdEngine.Compat.Incarnations
import RdEngine.Compat.ViewOnly
import RdEngine.Compat.PumpCompleteness
import RdEngine.LoginAgreement
import RdEngine.VideoAcceptance
import RdEngine.InputAgreement
import RdEngine.Compat.KeyMeaning
import RdEngine.Compat.Keystrokes
import RdEngine.Compat.PointerState
import RdEngine.Compat.PermissionEvents
import RdEngine.Compat.PasswordPrompts
import RdEngine.Compat.StartFailures
import RdEngine.Compat.SuppliedPassword
import RdEngine.PeerAddress
import RdEngine.Compat.Routes
import RdEngine.Platform.BitrateRuns
import RdEngine.Platform.AbsolutePointer
import RdEngine.AttemptBracketing
import RdEngine.VersionNumber
import RdEngine.Rdp.Connection
import RdEngine.Viewer.SwitchDisplay
import RdEngine.Viewer.InboundClipboard
import RdEngine.Compat.Preferences
import RdEngine.FlutterInput
import RdEngine.FlutterState
import RdEngine.Viewer.UsbHid
import RdEngine.Har.Sessions
import RdEngine.Har.Closing
import RdEngine.Host.IdentityFile
import RdEngine.Rdp.Confirm
import RdEngine.Storage.PeerStore
import RdEngine.Lib.UnixPath
import RdEngine.Storage.PeerFiles
import RdEngine.Host.Captures
import RdEngine.Host.ShownRequest
import RdEngine.Host.Streaming
import RdEngine.Compat.FlutterStreams
