import IguanaIR.Binary64
import IguanaIR.Chunks
import IguanaIR.Runs
import IguanaIR.KindRuns
import IguanaIR.Ring
import IguanaIR.Transition
import IguanaIR.ExceptFold
import IguanaIR.Successive
import IguanaIR.Framing
import IguanaIR.Protocol
import IguanaIR.DataPacket
import IguanaIR.WritePacket
import IguanaIR.ChunkedRead
import IguanaIR.SendFormat
import IguanaIR.Carrier
import IguanaIR.Server
import IguanaIR.DeviceInterface
import IguanaIR.DeviceTransaction
import IguanaIR.Incoming
import IguanaIR.ClientInterface
import IguanaIR.Requests
import IguanaIR.Listener
import IguanaIR.Clients
import IguanaIR.Firmware.Mcu
import IguanaIR.Firmware.Pc
import IguanaIR.Firmware.Transfer
import IguanaIR.Firmware.Ir
import IguanaIR.Firmware.Receive
import IguanaIR.Firmware.Transmit
import IguanaIR.Firmware.Timing
import IguanaIR.Firmware.Pins
import IguanaIR.Firmware.Body
import IguanaIR.Firmware.Loader
import IguanaIR.Firmware.Silent
import IguanaIR.Firmware.Replies
import IguanaIR.Firmware.Flash
import IguanaIR.M8c
import IguanaIR.Firmware.LastPage
import IguanaIR.Firmware.Instructions
import IguanaIR.Firmware.Interrupts
import IguanaIR.Compression
import IguanaIR.ReceiverCount
import IguanaIR.PayloadCheck
import IguanaIR.TransferFraming
import IguanaIR.PageTransfer
import IguanaIR.LabelRoundTrip
import IguanaIR.Reflasher
import IguanaIR.FlashProtection
import IguanaIR.ReplyPerRequest
import IguanaIR.Capture
import IguanaIR.CarrierExact
import IguanaIR.Success
import IguanaIR.ReplyCodes
import IguanaIR.SignalDelivery
import IguanaIR.StreamFraming
import IguanaIR.ClientLibrary
import IguanaIR.DeviceReplies
import IguanaIR.CommPipe
import IguanaIR.Shutdown
import IguanaIR.CtlSocket
import IguanaIR.UncompressedSend
import IguanaIR.DeviceCommands
import IguanaIR.ReceiverOn
import IguanaIR.ErrorReplies
import IguanaIR.Firmware.SignalPackets
import IguanaIR.ReceivedPackets
import IguanaIR.LinkedList
import IguanaIR.ReceiveQueue
import IguanaIR.LeastUnused
import IguanaIR.DeviceList
import IguanaIR.DevicesFound
import IguanaIR.Firmware.MainLoop
import IguanaIR.Firmware.Spares
import IguanaIR.Firmware.Resend
import IguanaIR.LircDriver
import IguanaIR.CarrierCache
import IguanaIR.SocketNames
import IguanaIR.AliasDirectory
import IguanaIR.DirectoryInvariant
import IguanaIR.AliasLookup
import IguanaIR.AliasClash
import IguanaIR.LircDevices
import IguanaIR.Reconnect
import IguanaIR.ReceivedPulses
import IguanaIR.Reassembly
import IguanaIR.LircReceive
import IguanaIR.PulseFile
import IguanaIR.SendSize
import IguanaIR.PipeTimeout
import IguanaIR.Firmware.ControlGrammar
import IguanaIR.Firmware.TransmitCalls
import IguanaIR.ReaderLoop
import IguanaIR.ClientCommands
import IguanaIR.PinSettings
import IguanaIR.TaskQueue
import IguanaIR.ListRefinement
import IguanaIR.SignalCleaning
import IguanaIR.CleanedSignal
import IguanaIR.Firmware.ReadBuffer
import IguanaIR.VanishWait
import IguanaIR.FlashImage
import IguanaIR.Firmware.Dark
import IguanaIR.SentSignal
import IguanaIR.Firmware.PinFrame
import IguanaIR.Firmware.PinRegister
import IguanaIR.RunBounds
import IguanaIR.Firmware.SignalOrder
import IguanaIR.ReceivedSignal
import IguanaIR.RecordedSignal
import IguanaIR.PinExchange
import IguanaIR.ProtocolVersions
