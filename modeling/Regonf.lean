import Regonf.RegonfhcExclusion
import Regonf.RegonfhcFailsafe
import Regonf.RegonfhcGap
import Regonf.RegonfhcWatchdog
import Regonf.RegonfhcMirror
import Regonf.RegonfhcRelay
import Regonf.RegonfhcThreshold
import Regonf.RegpidonfhcContains
import Regonf.RegpidonfhcMirror
import Regonf.DaemonFreed
import Regonf.DaemonStopped
import Regonf.DaemonRows
import Regonf.DaemonRestart
import Regonf.DaemonSequence
import Regonf.Acp
import Regonf.AcpFTS
import Regonf.AcpResponseNumbers
import Regonf.AcpLists
import Regonf.AcpQuery
import Regonf.AcpSend
import Regonf.AcpCrc
import Regonf.AcpStringRows
import Regonf.DbText
import Regonf.ConfiglLists
import Regonf.TsvTable
import Regonf.SleepRest
import Regonf.S1BListRuns
import Regonf.RegonfhcPeers
import Regonf.DaemonSurvival
import Regonf.DaemonTurnEnds
import Regonf.DstructureFifo
import Regonf.DstructureRlist
import Regonf.FilterMa
import Regonf.FilterExp
import Regonf.PmPins
import Regonf.PmSwap
import Regonf.PwmRuns
import Regonf.PidLimits
import Regonf.UtilEscape
import Regonf.TimefTon
import Regonf.PidAutoTuneBounds
import Regonf.PidAutoTuneExits
import Regonf.ServerRuns
import Regonf.ServerAnswers
import Regonf.ServerChain
import Regonf.RegonfhcProgress
import Regonf.RegpidonfhcFailsafe
import Regonf.RegpidonfhcGap
import Regonf.TsvSettings
import Regonf.TsvLists
import Regonf.ServerNetwork
import Regonf.OneWire
