import PadBridge.Main
import PadBridge.Proofs.Congruence
import PadBridge.Proofs.Delivery
import PadBridge.Proofs.Firmware.Dependence
import PadBridge.Proofs.Firmware.Listing
import PadBridge.Proofs.Run.Course
import PadBridge.Proofs.Run.Failing
import PadBridge.Proofs.Run.Frame
import PadBridge.Proofs.Run.History
import PadBridge.Proofs.Run.Messages
import PadBridge.Proofs.Run.Verbosity
import PadBridge.Proofs.Saving
import PadBridge.Proofs.SettingsKeys
import PadBridge.Proofs.Spelling
