import ZenMedia.Reentrant
import ZenMedia.PlayerState
import ZenMedia.TraceLaws
import ZenMedia.HookedMediaPlayer
import ZenMedia.PlayerCommands
import ZenMedia.EventHandling
import ZenMedia.ViewPlayers
import ZenMedia.PlayerFrames
import ZenMedia.HandlerDeliveries
import ZenMedia.HandlerSessions
import ZenMedia.Construction
import ZenMedia.HandlerComparison
import ZenMedia.Teardown
import ZenMedia.ReentrantClients
import ZenMedia.ProgressOrder
import ZenMedia.HandlerSafety
import ZenMedia.HandlerIsolation
import ZenMedia.RequestDelivery
import ZenMedia.RequestOrder
import ZenMedia.SurfaceRestart
import ZenMedia.StoppedRuns
import ZenMedia.TeardownRetry
import ZenMedia.FinalStop
import ZenMedia.DisplayMode
import ZenMedia.LayoutCheck
import ZenMedia.LayoutAgreement
import ZenMedia.LibOptions
import ZenMedia.ResumePosition
import ZenMedia.AttachedFlag
import ZenMedia.MediaOwnership
import ZenMedia.PlayerFleet
import ZenMedia.SilentStop
import ZenMedia.CallbackLanguage
import ZenMedia.MediaSharing
import ZenMedia.ConcurrentStop
import ZenMedia.NalEncoding
import ZenMedia.StartCodeSearch
import ZenMedia.NalUnits
import ZenMedia.BitWriter
import ZenMedia.BitReader
import ZenMedia.SyntaxElements
import ZenMedia.NalRoundTrip
import ZenMedia.NalDecoding
import ZenMedia.BitStrings
import ZenMedia.NalSplitting
import ZenMedia.Rescaling
import ZenMedia.TimeStamps
import ZenMedia.TimestampDrift
import ZenMedia.Fractions
import ZenMedia.Reduction
import ZenMedia.NearestFraction
import ZenMedia.FractionArithmetic
import ZenMedia.PacketFields
import ZenMedia.PacketQueue
import ZenMedia.AvcConfiguration
