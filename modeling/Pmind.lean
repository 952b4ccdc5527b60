import Pmind.Lib.Run
import Pmind.Lib.Broadcast
import Pmind.Proofs.Ownership
import Pmind.Proofs.Round
import Pmind.Proofs.Freed
import Pmind.Proofs.Authentic
import Pmind.Proofs.Net
import Pmind.Proofs.Database
import Pmind.Proofs.History
import Pmind.Proofs.Broker
import Pmind.Proofs.Agreement
import Pmind.Proofs.Reply
import Pmind.Proofs.Store
import Pmind.Proofs.Subscription
import Pmind.Proofs.Reported
import Pmind.Proofs.SensorPlatform
import Pmind.Proofs.Measured
import Pmind.Proofs.Ports
import Pmind.Proofs.NodeHistory
import Pmind.Proofs.Navigation
import Pmind.Proofs.Settings
import Pmind.Proofs.Tuning
import Pmind.Proofs.Room
import Pmind.Proofs.Attempt
import Pmind.Proofs.Children
import Pmind.Proofs.Device
import Pmind.Proofs.Insert
import Pmind.Proofs.Receiving
import Pmind.Proofs.Scope
import Pmind.Proofs.Tasks
import Pmind.Proofs.Terminated
import Pmind.Proofs.Window
import Pmind.Proofs.Screen
import Pmind.Proofs.OmrAddr
import Pmind.Proofs.AddrText
import Pmind.Proofs.Enrolled
import Pmind.Proofs.Handover
import Pmind.Proofs.Quit
import Pmind.Proofs.Progress
import Pmind.Proofs.Rest
import Pmind.Proofs.Firmware
import Pmind.Proofs.Faults
