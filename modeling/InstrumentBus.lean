import InstrumentBus.Ad5791.Chip
import InstrumentBus.Ad5791.Control
import InstrumentBus.Ad5791.Frame
import InstrumentBus.AddressMap
import InstrumentBus.Board
import InstrumentBus.Board.Access
import InstrumentBus.Bus
import InstrumentBus.BusSwitch
import InstrumentBus.ControlLoop.Command
import InstrumentBus.ControlLoop.Engine
import InstrumentBus.ControlLoop.Gain
import InstrumentBus.Coprocessor
import InstrumentBus.Coprocessor.Bench
import InstrumentBus.Diagnostic
import InstrumentBus.Digest.Md5
import InstrumentBus.Driver.Action
import InstrumentBus.Driver.Adc
import InstrumentBus.Driver.Arbiter
import InstrumentBus.Driver.ControlLoop
import InstrumentBus.Driver.Core
import InstrumentBus.Driver.Dac
import InstrumentBus.Driver.Error
import InstrumentBus.Driver.Register
import InstrumentBus.Driver.Spi
import InstrumentBus.Driver.Waveform
import InstrumentBus.FixedPoint
import InstrumentBus.FixedPoint.Doubling
import InstrumentBus.FixedPoint.Expansion
import InstrumentBus.FixedPoint.Numeral
import InstrumentBus.Gzip
import InstrumentBus.Gzip.Deflate
import InstrumentBus.Gzip.Huffman
import InstrumentBus.Json
import InstrumentBus.Json.Literal
import InstrumentBus.Json.Printer
import InstrumentBus.Json.Reader
import InstrumentBus.Manifest
import InstrumentBus.Manifest.Constants
import InstrumentBus.Manifest.Reader
import InstrumentBus.NameMap
import InstrumentBus.Ram
import InstrumentBus.RegisterFile
import InstrumentBus.RegisterFile.Layout
import InstrumentBus.RegisterFile.Builder
import InstrumentBus.Side
import InstrumentBus.Spi.Controller
import InstrumentBus.Spi.DelayLine
import InstrumentBus.Spi.Sampler
import InstrumentBus.Text.Blank
import InstrumentBus.Transport
import InstrumentBus.Transport.Encoding
import InstrumentBus.Transport.Memory
import InstrumentBus.Transport.Probe
import InstrumentBus.Waveform.Bench
import InstrumentBus.Waveform.Player
import InstrumentBus.Word
import InstrumentBus.Word.Hex
import InstrumentBus.Proofs.BusSwitch.Selection
import InstrumentBus.Proofs.BusSwitch.Exclusion
import InstrumentBus.Proofs.Board.Reach
import InstrumentBus.Proofs.Bus.History
import InstrumentBus.Proofs.Bus.Ports
import InstrumentBus.Proofs.Board.Faults
import InstrumentBus.Proofs.Board.Ownership
import InstrumentBus.Proofs.Board.Confinement
import InstrumentBus.Proofs.Word.PowerOfTwo
import InstrumentBus.Proofs.Word.Window
import InstrumentBus.Proofs.AddressMap.Draft
import InstrumentBus.Proofs.AddressMap.Decode
import InstrumentBus.Proofs.AddressMap.Placement
import InstrumentBus.Proofs.RegisterFile.Layout
import InstrumentBus.Proofs.RegisterFile.Builder
import InstrumentBus.Proofs.RegisterFile.Access
import InstrumentBus.Proofs.RegisterFile.Sides
import InstrumentBus.Proofs.RegisterFile.History
import InstrumentBus.Proofs.RegisterFile.Cells
import InstrumentBus.Proofs.Driver.Action
import InstrumentBus.Proofs.Driver.Register
import InstrumentBus.Proofs.Board.Registers
import InstrumentBus.Proofs.Board.Parameters
import InstrumentBus.Proofs.NameMap.Entries
import InstrumentBus.Proofs.AddressMap.Manifest
import InstrumentBus.Proofs.AddressMap.Registers
import InstrumentBus.Proofs.Text.Blank
import InstrumentBus.Proofs.Json.Bytes
import InstrumentBus.Proofs.Json.Literal
import InstrumentBus.Proofs.Json.Number
import InstrumentBus.Proofs.Json.Steps
import InstrumentBus.Proofs.Json.RoundTrip
import InstrumentBus.Proofs.Manifest.Rules
import InstrumentBus.Proofs.Manifest.Shape
import InstrumentBus.Proofs.Manifest.RoundTrip
import InstrumentBus.Proofs.Manifest.Agreement
import InstrumentBus.Proofs.Manifest.Words
import InstrumentBus.Proofs.Manifest.Constants
import InstrumentBus.Proofs.Manifest.Names
import InstrumentBus.Proofs.FixedPoint.Doubling
import InstrumentBus.Proofs.FixedPoint.Numeral
import InstrumentBus.Proofs.FixedPoint.Reading
import InstrumentBus.Proofs.FixedPoint.Expansion
import InstrumentBus.Proofs.FixedPoint.Writing
import InstrumentBus.Proofs.FixedPoint.RoundTrip
import InstrumentBus.Proofs.Driver.Refusal
import InstrumentBus.Proofs.Spi.Controller
import InstrumentBus.Proofs.Driver.Exchange
import InstrumentBus.Proofs.Board.Serial
import InstrumentBus.Proofs.Driver.Mirror
import InstrumentBus.Proofs.Board.Sending
import InstrumentBus.Proofs.Ad5791.Frame
import InstrumentBus.Proofs.Driver.Triple
import InstrumentBus.Proofs.Waveform.Player
import InstrumentBus.Proofs.Waveform.Rig
import InstrumentBus.Proofs.Waveform.Playing
import InstrumentBus.Proofs.Waveform.Replay
import InstrumentBus.Proofs.Waveform.Selection
import InstrumentBus.Proofs.Waveform.Sessions
import InstrumentBus.Proofs.Waveform.Finishing
import InstrumentBus.Proofs.Waveform.Handover
import InstrumentBus.Proofs.Board.Rig
import InstrumentBus.Proofs.Board.Timeouts
import InstrumentBus.Proofs.Board.Player
import InstrumentBus.Proofs.Board.Integrity
import InstrumentBus.Proofs.Board.Supervising
import InstrumentBus.Proofs.Board.Starting
import InstrumentBus.Proofs.Board.Recovery
import InstrumentBus.Proofs.ControlLoop.Store
import InstrumentBus.Proofs.ControlLoop.Handshake
import InstrumentBus.Proofs.ControlLoop.Count
import InstrumentBus.Proofs.ControlLoop.Gain
import InstrumentBus.Proofs.Board.Attended
import InstrumentBus.Proofs.Board.Calls
import InstrumentBus.Proofs.Waveform.Standstill
import InstrumentBus.Proofs.Waveform.Conduct
import InstrumentBus.Proofs.Board.Openers
import InstrumentBus.Proofs.Board.Halting
import InstrumentBus.Proofs.Board.Polling
import InstrumentBus.Proofs.Board.Grants
import InstrumentBus.Proofs.Board.Launching
import InstrumentBus.Proofs.Ad5791.Coding
import InstrumentBus.Proofs.Board.Coding
import InstrumentBus.Proofs.Board.Acquiring
import InstrumentBus.Proofs.Board.Retries
import InstrumentBus.Proofs.Driver.Loading
import InstrumentBus.Proofs.Ram.Bytes
import InstrumentBus.Proofs.Ram.Memory
import InstrumentBus.Proofs.Transport.Calls
import InstrumentBus.Proofs.Coprocessor.Fetch
import InstrumentBus.Proofs.Board.Core
import InstrumentBus.Proofs.Board.CoreDriver
import InstrumentBus.Proofs.Board.Programming
import InstrumentBus.Proofs.Board.Storage
import InstrumentBus.Proofs.BusSwitch.Lanes
import InstrumentBus.Proofs.Board.Granting
import InstrumentBus.Proofs.Board.Bytewise
import InstrumentBus.Proofs.Ad5791.Readback
import InstrumentBus.Proofs.Board.Converter
import InstrumentBus.Proofs.Board.Settings
import InstrumentBus.Proofs.Board.Numbers
import InstrumentBus.Proofs.Spi.Exchanges
import InstrumentBus.Proofs.Board.Declared
import InstrumentBus.Proofs.Spi.Session
import InstrumentBus.Proofs.Word.Signed
import InstrumentBus.Proofs.Board.Sampling
import InstrumentBus.Proofs.Board.Gains
