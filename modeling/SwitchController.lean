import SwitchController.Lib.Trace
import SwitchController.Lib.Lines
import SwitchController.Lib.Ring
import SwitchController.Firmware.Parser
import SwitchController.Firmware.Lines
import SwitchController.Firmware.Device
import SwitchController.Firmware.Refinement
import SwitchController.Firmware.Ring
import SwitchController.Lib.Blocks
import SwitchController.Firmware.Message
import SwitchController.Firmware.Delivery
import SwitchController.Firmware.Overrun
import SwitchController.Firmware.Splice
import SwitchController.Bridge.Encode
import SwitchController.Lib.Bits
import SwitchController.Bridge.Controller
import SwitchController.Firmware.Descriptor
import SwitchController.Bridge.InputStack
import SwitchController.Link
import SwitchController.Bridge.Record
import SwitchController.Bridge.Playback
import SwitchController.Twitch.Controller
import SwitchController.Twitch.Client
import SwitchController.Twitch.Chat
import SwitchController.Twitch.Run
import SwitchController.Lib.Unfold
import SwitchController.Twitch.Drain
import SwitchController.Twitch.Authority
import SwitchController.Twitch.Votes
import SwitchController.Twitch.Tally
import SwitchController.Twitch.Provenance
import SwitchController.Twitch.Irc
import SwitchController.Twitch.Order
import SwitchController.Twitch.Release
import SwitchController.Twitch.Exclusion
import SwitchController.Firmware.Leak
import SwitchController.Firmware.Overlong
import SwitchController.Dialect
import SwitchController.Twitch.Relayed
import SwitchController.Tas.Play
import SwitchController.Twitch.Malformed
import SwitchController.Tas.Reader
import SwitchController.Tas.Gamepad
import SwitchController.Twitch.Restore
import SwitchController.Twitch.Acceptance
import SwitchController.Twitch.Combos
import SwitchController.Lib.Interruption
import SwitchController.Twitch.Persistence
import SwitchController.Lib.Potential
import SwitchController.Firmware.Response
import SwitchController.Firmware.Recovery
import SwitchController.Link.Progress
import SwitchController.Bridge.Main
import SwitchController.Lib.View
import SwitchController.Twitch.Ghosts
import SwitchController.Twitch.Isolation
import SwitchController.Twitch.Rejection
import SwitchController.Twitch.Timers
import SwitchController.Twitch.Loop
import SwitchController.Twitch.Threads
import SwitchController.Lib.Register
import SwitchController.Console
import SwitchController.Twitch.Forgery
import SwitchController.Twitch.Server
import SwitchController.Keyboard
import SwitchController.Wiiu
