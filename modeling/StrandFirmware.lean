import StrandFirmware.Library.Runs
import StrandFirmware.Library.BoundedQueue
import StrandFirmware.Library.QueueSet
import StrandFirmware.Library.Rounding
import StrandFirmware.Library.CString
import StrandFirmware.Library.SharedRecord
import StrandFirmware.Library.FloatValue
import StrandFirmware.Library.RecordStore
import StrandFirmware.Library.RepeatFilter
import StrandFirmware.Library.Program
import StrandFirmware.Device
import StrandFirmware.StepperTask
import StrandFirmware.StopRecord
import StrandFirmware.Drift
import StrandFirmware.CommandLine
import StrandFirmware.Motion
import StrandFirmware.Parameters
import StrandFirmware.Handler
import StrandFirmware.HandlerBranches
import StrandFirmware.CommandIsolation
import StrandFirmware.ParameterRace
import StrandFirmware.OnePosition
import StrandFirmware.EventDispatch
import StrandFirmware.QueueRegistration
import StrandFirmware.MainLoop
import StrandFirmware.Sockets
import StrandFirmware.MotionPipeline
import StrandFirmware.LostCommands
import StrandFirmware.TravelLimits
import StrandFirmware.TcpReplies
import StrandFirmware.DuplicateIds
import StrandFirmware.Persistence
import StrandFirmware.DriveSettings
import StrandFirmware.DriveProgress
import StrandFirmware.RelativeMoves
import StrandFirmware.PendingNotifications
import StrandFirmware.Library.Words
import StrandFirmware.MessageWords
import StrandFirmware.MessageParsing
import StrandFirmware.ParserSafety
import StrandFirmware.Datagrams
import StrandFirmware.NumberedValues
import StrandFirmware.ReplyCount
import StrandFirmware.NvsFailures
import StrandFirmware.SinePatterns
import StrandFirmware.StepGenerator
import StrandFirmware.Homing
import StrandFirmware.Origin
import StrandFirmware.HomingStop
import StrandFirmware.WaveDelay
import StrandFirmware.MotionTasks
import StrandFirmware.Divisors
import StrandFirmware.PositionRange
import StrandFirmware.StatusMessages
import StrandFirmware.Library.FloatRounding
import StrandFirmware.Library.RampRatios
import StrandFirmware.SpeedProfile
import StrandFirmware.SpeedRamp
import StrandFirmware.ProfileSteps
import StrandFirmware.ProfileMoves
import StrandFirmware.ProfileRuns
import StrandFirmware.ProfileTask
import StrandFirmware.Library.DecimalText
import StrandFirmware.CommandLanguage
import StrandFirmware.CommandDelivery
import StrandFirmware.StepPulses
import StrandFirmware.MotionOrder
import StrandFirmware.TcpAnswers
import StrandFirmware.MotionAccount
import StrandFirmware.MotionProgress
import StrandFirmware.ScriptedMotion
import StrandFirmware.DispatchOrder
import StrandFirmware.PowerFailures
import StrandFirmware.StopRounding
