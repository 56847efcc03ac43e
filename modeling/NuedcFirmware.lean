import NuedcFirmware.App.CalibrationCommand
import NuedcFirmware.App.ControlInputs
import NuedcFirmware.App.Drive
import NuedcFirmware.App.DutyHold
import NuedcFirmware.App.FaultStop
import NuedcFirmware.App.Firmware
import NuedcFirmware.App.LastCommand
import NuedcFirmware.App.RunIndependence
import NuedcFirmware.App.Steering
import NuedcFirmware.App.SteeringBound
import NuedcFirmware.App.StopRequest
import NuedcFirmware.Common.Filter
import NuedcFirmware.Common.Pid
import NuedcFirmware.Common.PidBounds
import NuedcFirmware.Control.Chassis
import NuedcFirmware.Control.Heading
import NuedcFirmware.Control.LineTracker
import NuedcFirmware.Control.LostLine
import NuedcFirmware.Control.NetHeading
import NuedcFirmware.Control.Odometry
import NuedcFirmware.Control.SegmentDistance
import NuedcFirmware.Lib.AxisRotation
import NuedcFirmware.Lib.BitField
import NuedcFirmware.Lib.Bytes
import NuedcFirmware.Lib.CFault
import NuedcFirmware.Lib.CFloat
import NuedcFirmware.Lib.CText
import NuedcFirmware.Lib.Centroid
import NuedcFirmware.Lib.CutText
import NuedcFirmware.Lib.Debounce
import NuedcFirmware.Lib.Decimal
import NuedcFirmware.Lib.Driver
import NuedcFirmware.Lib.Extremum
import NuedcFirmware.Lib.FixedPoint
import NuedcFirmware.Lib.Latch
import NuedcFirmware.Lib.MachineInt
import NuedcFirmware.Lib.Mailbox
import NuedcFirmware.Lib.PyText
import NuedcFirmware.Lib.Quadrature
import NuedcFirmware.Lib.RingBuffer
import NuedcFirmware.Lib.Rounding
import NuedcFirmware.Lib.Run
import NuedcFirmware.Lib.Saturation
import NuedcFirmware.Lib.Search
import NuedcFirmware.Lib.Since
import NuedcFirmware.Lib.Smoothing
import NuedcFirmware.Lib.Statistics
import NuedcFirmware.Lib.StatusLog
import NuedcFirmware.Lib.Streak
import NuedcFirmware.Lib.Trace
import NuedcFirmware.Lib.Turns
import NuedcFirmware.Lib.WhileLoop
import NuedcFirmware.Lib.WholeFloat
import NuedcFirmware.Modules.Attitude
import NuedcFirmware.Modules.CaptureLink
import NuedcFirmware.Modules.CaptureTool
import NuedcFirmware.Modules.CommandLine
import NuedcFirmware.Modules.DutyCommand
import NuedcFirmware.Modules.Encoder
import NuedcFirmware.Modules.EncoderCount
import NuedcFirmware.Modules.EncoderIrq
import NuedcFirmware.Modules.EulerAngles
import NuedcFirmware.Modules.GyroBias
import NuedcFirmware.Modules.GyroCalibration
import NuedcFirmware.Modules.Icm45688
import NuedcFirmware.Modules.ImuService
import NuedcFirmware.Modules.ImuStartup
import NuedcFirmware.Modules.ImuTelemetry
import NuedcFirmware.Modules.ImuWait
import NuedcFirmware.Modules.InvImuBringUp
import NuedcFirmware.Modules.InvImuConfigured
import NuedcFirmware.Modules.InvImuDriver
import NuedcFirmware.Modules.InvImuEnds
import NuedcFirmware.Modules.InvImuReports
import NuedcFirmware.Modules.InvImuSample
import NuedcFirmware.Modules.InvImuSpi
import NuedcFirmware.Modules.InvImuTraffic
import NuedcFirmware.Modules.InvImuTransport
import NuedcFirmware.Modules.LineMonotone
import NuedcFirmware.Modules.LinePosition
import NuedcFirmware.Modules.LineSensor
import NuedcFirmware.Modules.LineSymmetry
import NuedcFirmware.Modules.Motor
import NuedcFirmware.Modules.MotorHardware
import NuedcFirmware.Modules.MotorTimeout
import NuedcFirmware.Modules.RegisterFile
import NuedcFirmware.Modules.RequestMailbox
import NuedcFirmware.Modules.RttInterrupt
import NuedcFirmware.Modules.RttLog
import NuedcFirmware.Modules.Ssd1306
import NuedcFirmware.Modules.Ssd1306Display
import NuedcFirmware.Modules.Telemetry
import NuedcFirmware.Modules.TelemetryOutput
import NuedcFirmware.Modules.Vision
import NuedcFirmware.Modules.VisionCorruption
import NuedcFirmware.Modules.VisionNoise
import NuedcFirmware.Modules.VisionParser
import NuedcFirmware.Modules.VisionStream
import NuedcFirmware.Modules.YawResult
import NuedcFirmware.Modules.YawScale
import NuedcFirmware.Modules.YawUnwrap
import NuedcFirmware.Platform.Board
import NuedcFirmware.Platform.I2c
import NuedcFirmware.Platform.QuadEncoder
import NuedcFirmware.Platform.Spi
import NuedcFirmware.Platform.SpiFraming
import NuedcFirmware.Platform.TransferBound
import NuedcFirmware.Platform.Uart
import NuedcFirmware.System.Liveness
import NuedcFirmware.System.Supervision
import NuedcFirmware.Tests.Buttons
import NuedcFirmware.Tests.MotorTest
import NuedcFirmware.Tests.StraightDone
import NuedcFirmware.Tests.StraightLine
import NuedcFirmware.Tests.StraightProfile
import NuedcFirmware.Tests.StraightSafety
import NuedcFirmware.Tests.StraightTest
import NuedcFirmware.Tests.TurnDecision
import NuedcFirmware.Tests.TurnDone
import NuedcFirmware.Tests.TurnSafety
import NuedcFirmware.Tests.TurnTest
import NuedcFirmware.Tests.TurnTransition
