import Bliti.Library.Loops
import Bliti.Library.OrderedMap
import Bliti.Network.Select.Types
import Bliti.Network.Select.Check
import Bliti.Network.Select.Place
import Bliti.Library.Transition
import Bliti.Network.Select.Settle
import Bliti.Network.Select.Settled
import Bliti.Channel.Capabilities
import Bliti.Channel.Capabilities.Admits
import Bliti.Channel.Capabilities.Radios
import Bliti.Channel.Config.Faulted
import Bliti.Channel.Config.LeftOut
import Bliti.Channel.Config.Optional
import Bliti.Channel.Config.Parse
import Bliti.Channel.Config.Parts
import Bliti.Channel.Config.Survives
import Bliti.Network.Session.Held
import Bliti.Network.Session.Task
import Bliti.Network.Session.Open
import Bliti.Network.Session.Informed
import Bliti.Network.Observe
import Bliti.Network.Probe.Radio
import Bliti.Network.Stack.Verify
import Bliti.Network.Stack.Driver.State
import Bliti.Network.Stack.Driver.Follow
import Bliti.Network.Stack.Driver.Answer
import Bliti.Network.Stack.Driver.Run
import Bliti.Network.Select.Changes
import Bliti.Network.Select.Attempts
import Bliti.Network.Stack.Driver.Evolve
import Bliti.Network.Stack.Retry
import Bliti.Network.Session.Configurator
import Bliti.Network.Stack.Publishes
import Bliti.Network.Stack.Lockstep
import Bliti.Library.Fallible
import Bliti.Network.Session.Paired
import Bliti.Network.Session.Store
import Bliti.Network.Session.Recorded
import Bliti.Library.Roster
import Bliti.Power.Controller
import Bliti.Power.Kept
import Bliti.Library.Interruptible
import Bliti.Provision.Luks
import Bliti.Provision.Steps.Records
import Bliti.Provision.Steps.Encryption
import Bliti.Provision.Steps.Opened
import Bliti.Network.Select.Hosting
import Bliti.Network.Select.Repeated
import Bliti.Network.Select.Replay
import Bliti.Network.Select.Stale
import Bliti.Network.Select.Ordered
import Bliti.Network.Apply.Record
import Bliti.Network.Apply.System
import Bliti.Network.Apply
import Bliti.Network.Apply.Placed
import Bliti.Network.Apply.Reconciled
import Bliti.Network.Apply.Started
import Bliti.Network.Address
import Bliti.Network.Render.Hostapd
import Bliti.Network.Render.Iwd
import Bliti.Network.Render.Networkd
import Bliti.Network.Render
import Bliti.Network.Render.Fits
import Bliti.Network.Probe.Hardware
import Bliti.Network.Render.Accepted
import Bliti.Network.Probe.Capabilities
import Bliti.Network.Probe.Offers
import Bliti.Network.Stack.Offered
import Bliti.Channel.Config.Write
import Bliti.Network.Stack.Named
import Bliti.Network.Stack.Ruled
import Bliti.Channel.Envelope
import Bliti.Channel.Envelope.Names
import Bliti.Channel.Envelope.Kept
import Bliti.Channel.Readings
import Bliti.Channel.Report
import Bliti.Channel.Messages
import Bliti.Channel.Messages.ReadBack
import Bliti.Channel.Messages.Written
import Bliti.Channel.Envelope.Faults
import Bliti.Channel.Envelope.Shape
import Bliti.Channel.Messages.Shape
import Bliti.Channel.Messages.Shape.Members
import Bliti.Channel.Messages.Shape.Types
import Bliti.Channel.Messages.Faulted
import Bliti.Channel.Envelope.Recased
import Bliti.Channel.Messages.Recased
import Bliti.Channel.Messages.Typed
import Bliti.Network.Probe.Carried
import Bliti.Provision.Engine
import Bliti.Provision.Blocked
import Bliti.Provision.Engine.Stretch
import Bliti.Provision.Engine.Orderly
import Bliti.Provision.Engine.Tidy
import Bliti.Provision.Engine.Apart
import Bliti.Provision.Steps.Eeprom
import Bliti.Provision.Engine.Told
import Bliti.Provision.Prompts
import Bliti.Provision.Engine.Manned
import Bliti.Provision.Engine.Prompted
import Bliti.Library.Closure
import Bliti.Provision.Engine.Undone
import Bliti.Library.Equality
import Bliti.Library.Matching
import Bliti.Channel.Config.Equal
import Bliti.Network.Stack.Judged
import Bliti.Library.BigEndian
import Bliti.Channel.Framing
import Bliti.Channel.Framing.Delimited
import Bliti.Channel.Stream
import Bliti.Channel.Stream.Crossing
import Bliti.Channel.Compress
import Bliti.Channel.Compress.Reading
import Bliti.Channel.Compress.Writing
import Bliti.Channel.Compress.Truthful
import Bliti.Library.Checked
import Bliti.Library.Rounding
import Bliti.Library.Interpolation
import Bliti.Facts.Case
import Bliti.Facts.Power.Battery
import Bliti.Facts.Power.Curve
import Bliti.Facts.Power.Curve.Parse
import Bliti.Facts.Power.Curve.Report
import Bliti.Facts.Power.Curve.Rules
import Bliti.Facts.Power.Curve.Store
import Bliti.Facts.Power.Learn
import Bliti.Facts.Power.Learn.Points
import Bliti.Facts.Power.Learn.Taught
import Bliti.Facts.Power.Learn.Kept
import Bliti.Facts.Power.Record
import Bliti.Facts.Power.Supply.Full
import Bliti.Facts.Power.Supply.Evidence
import Bliti.Facts.Power.Supply.Low
import Bliti.Facts.Power.Supply
import Bliti.Facts.Power.Supply.Frame
import Bliti.Facts.Power.Supply.Documents
import Bliti.Facts.Power.Supply.Sightings
import Bliti.Facts.Power.Supply.Taught
import Bliti.Facts.Power.Supply.InForce
import Bliti.Power.Alone
import Bliti.Facts.Power.RecordThread
import Bliti.Network.Render.Pool
import Bliti.Network.Observe.Bss
import Bliti.Network.Observe.Truthful
import Bliti.Text.Lines
import Bliti.Network.Render.Iwd.Read
import Bliti.Network.Render.Iwd.Called
import Bliti.Network.Render.Iwd.Known
import Bliti.Network.Render.Iwd.Lines
import Bliti.Network.Render.Iwd.Carried
import Bliti.Text.Hex
import Bliti.Text.Numeral
import Bliti.Library.Base32
import Bliti.Qr
import Bliti.Gatt
import Bliti.Identity.Own
import Bliti.Device.Pacing
import Bliti.Provision.Window
import Bliti.Provision.Bootloader.Order
import Bliti.Provision.Bootloader.Config
import Bliti.Provision.Bootloader.UsbFirst
import Bliti.Network.Render.Places
import Bliti.Network.Render.Occupied
import Bliti.Network.Apply.Rendered
import Bliti.Library.Prefixes
import Bliti.Text.Utf8
import Bliti.Provision.Steps.Eeprom.Hat
import Bliti.Provision.Steps.Eeprom.Chip
import Bliti.Provision.Steps.Eeprom.Programmed
import Bliti.App.Setup
import Bliti.Library.Doubles
import Bliti.App.Path
import Bliti.App.Labels
import Bliti.Channel.Envelope.Added
import Bliti.Channel.Messages.Added
import Bliti.Device.Slots
import Bliti.App.Transport
import Bliti.App.Readings
import Bliti.Channel.Messages.Nested
