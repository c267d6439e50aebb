import KlipperGo.LookAheadRuns
import KlipperGo.ToolheadSchedule
import KlipperGo.HomingMove
import KlipperGo.ToolheadDrip
import KlipperGo.Extrusion
import KlipperGo.VelocityCommands
import KlipperGo.ClockSync
import KlipperGo.StepperPosition
import KlipperGo.StepperEnable
import KlipperGo.Heater
import KlipperGo.VerifyHeater
import KlipperGo.GcodeCoordinates
import KlipperGo.AdcTables
import KlipperGo.TmcSpi
import KlipperGo.Buttons
import KlipperGo.TmcUartCodec
import KlipperGo.TmcUartTransport
import KlipperGo.WebhookRequest
import KlipperGo.TmcVirtualPin
import KlipperGo.TmcScale
import KlipperGo.BedMeshFade
import KlipperGo.MeshCalibrator
import KlipperGo.AceCommun
import KlipperGo.ExcludeObject
import KlipperGo.TuningTower
import KlipperGo.VirtualSd
import KlipperGo.QueryStatus
import KlipperGo.ConfigSave
import KlipperGo.ToolheadScan
import KlipperGo.ForceMove
import KlipperGo.ToolheadOvershoot
import KlipperGo.Enumerations
import KlipperGo.ProbeSession
import KlipperGo.ReactorMutex
import KlipperGo.VirtualSdFiles
import KlipperGo.ReactorReliable
import KlipperGo.Endstop
import KlipperGo.ActiveCallbacks
import KlipperGo.SerialQuery
import KlipperGo.CommandLines
import KlipperGo.MeshLookup
