import PoorMansSmu.RangeSwitch
import PoorMansSmu.EepromMap
import PoorMansSmu.AutoCalRuns
import PoorMansSmu.Timers
import PoorMansSmu.OperationSync
import PoorMansSmu.LimitKind
import PoorMansSmu.ScpiDispatch
import PoorMansSmu.Network
import PoorMansSmu.Sampling
import PoorMansSmu.RelCalibration
import PoorMansSmu.SetBounds
import PoorMansSmu.Deliverable
import PoorMansSmu.ScpiHandlers
import PoorMansSmu.CalTables
import PoorMansSmu.CalInit
import PoorMansSmu.LoggerScroll
import PoorMansSmu.Capture
import PoorMansSmu.Keypad
import PoorMansSmu.TouchButtons
import PoorMansSmu.MenuClosing
import PoorMansSmu.MenuReplay
import PoorMansSmu.CommitWords
import PoorMansSmu.Lib.Extremes
import PoorMansSmu.RamLog
import PoorMansSmu.Stats
import PoorMansSmu.StatsBlocks
import PoorMansSmu.Ad7176
import PoorMansSmu.Compensation
import PoorMansSmu.Lib.Gains
import PoorMansSmu.SweepBounds
import PoorMansSmu.Transfer
import PoorMansSmu.SourceSpan
import PoorMansSmu.CalPage
import PoorMansSmu.Hysteresis
import PoorMansSmu.CaptureExtremes
import PoorMansSmu.CaptureSession
import PoorMansSmu.DigitizerScale
import PoorMansSmu.DialRoundTrip
import PoorMansSmu.DialValidation
import PoorMansSmu.NetworkLine
import PoorMansSmu.Histogram
import PoorMansSmu.TrendAxis
import PoorMansSmu.ViewLimits
import PoorMansSmu.TrendGraph
import PoorMansSmu.RunningExtremes
import PoorMansSmu.MovingAverage
import PoorMansSmu.DigitSplit
import PoorMansSmu.SetDisplay
import PoorMansSmu.RotaryEncoder
import PoorMansSmu.TimerGuards
import PoorMansSmu.PreTrigger
import PoorMansSmu.LogBackends
import PoorMansSmu.BlockAverage
import PoorMansSmu.GdCommands
import PoorMansSmu.Ad7176Noise
import PoorMansSmu.Swipes
import PoorMansSmu.CalResidual
import PoorMansSmu.RemoteSession
import PoorMansSmu.BoardFollows
import PoorMansSmu.SpiBus
