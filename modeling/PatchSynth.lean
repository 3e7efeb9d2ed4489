import PatchSynth.Main
import PatchSynth.Studio
import PatchSynth.Proofs.Device
import PatchSynth.Proofs.Rack.Shape
import PatchSynth.Proofs.Rack.Step
import PatchSynth.Proofs.Rack.WellFormed
import PatchSynth.Proofs.Rack.Value
import PatchSynth.Proofs.Rack.Mirror
import PatchSynth.Proofs.Rack.Unfold
import PatchSynth.Proofs.Player.Render
import PatchSynth.Proofs.Player.Sharing
import PatchSynth.Proofs.Rack.Tape
import PatchSynth.Proofs.Player.Run
import PatchSynth.Proofs.Rack.Rejection
import PatchSynth.Proofs.Signal.Device
import PatchSynth.Proofs.Signal.Rack
import PatchSynth.Proofs.Rack.Filling
import PatchSynth.Proofs.Rack.Atomic
import PatchSynth.Proofs.Rack.Order
import PatchSynth.Proofs.Rack.Unrecorded
import PatchSynth.Proofs.Rack.Raise
import PatchSynth.Proofs.Signal.Player
import PatchSynth.Proofs.Signal.Block
import PatchSynth.Proofs.Patch.Parse
import PatchSynth.Proofs.Patch.Record
import PatchSynth.Proofs.Rack.Isolation
import PatchSynth.Proofs.Rack.Release
import PatchSynth.Proofs.Player.Recording
import PatchSynth.Proofs.Player.Reply
import PatchSynth.Proofs.Player.Regroup
import PatchSynth.Proofs.Player.Filled
import PatchSynth.Proofs.Rack.Later
import PatchSynth.Proofs.Rack.Loan
import PatchSynth.Proofs.Studio.Session
import PatchSynth.Proofs.Patch.Token
import PatchSynth.Proofs.Patch.Grammar
import PatchSynth.Proofs.Patch.Line
import PatchSynth.Proofs.Wav.Content
import PatchSynth.Proofs.Patch.Typed
import PatchSynth.Proofs.Rack.History
import PatchSynth.Proofs.Studio.History
import PatchSynth.Proofs.Studio.Cache
import PatchSynth.Proofs.Studio.Evaluation
import PatchSynth.Proofs.Rack.Reel
import PatchSynth.Proofs.Rack.Cause
import PatchSynth.Proofs.Studio.Recording
import PatchSynth.Proofs.Studio.Unrecorded
import PatchSynth.Proofs.Studio.Isolation
import PatchSynth.Proofs.Patch.Distinct
import PatchSynth.Proofs.CommandLine.Options
import PatchSynth.Proofs.Player.Offline
import PatchSynth.Proofs.CommandLine.Program
import PatchSynth.Proofs.Rack.Validated
import PatchSynth.Proofs.Rack.Received
import PatchSynth.Proofs.Studio.Validated
import PatchSynth.Proofs.Rack.Local
import PatchSynth.Proofs.Studio.Building
import PatchSynth.Proofs.Player.SingleAssignment
import PatchSynth.Proofs.Rack.Bounded
import PatchSynth.Proofs.Studio.Stopped
import PatchSynth.Proofs.Patch.Refused
import PatchSynth.Proofs.CommandLine.Axis
import PatchSynth.Proofs.CommandLine.Refused
import PatchSynth.Proofs.Single.Quotient
import PatchSynth.Proofs.Single.Special
import PatchSynth.Proofs.Single.Product
import PatchSynth.Proofs.Pcm
import PatchSynth.Proofs.Device.Rescaler
import PatchSynth.Proofs.Device.Oscillator
import PatchSynth.Proofs.Rack.Fed
import PatchSynth.Proofs.Rack.Rescaled
import PatchSynth.Proofs.Rack.Controls
import PatchSynth.Proofs.Studio.Oscillator
import PatchSynth.Proofs.Studio.Ordered
import PatchSynth.Proofs.Text.Lines
import PatchSynth.Proofs.Patch.Incremental
import PatchSynth.Proofs.Patch.Delimiters
import PatchSynth.Proofs.Player.Pcm
import PatchSynth.Proofs.Player.Clock
import PatchSynth.Proofs.Player.Playback
import PatchSynth.Proofs.CommandLine.Settings
import PatchSynth.Proofs.Single.Closest
import PatchSynth.Proofs.Single.Decimal
