import NrfSpheros.Theory.Stuffing
import NrfSpheros.Theory.Delimited
import NrfSpheros.Theory.Chunked
import NrfSpheros.Theory.Run
import NrfSpheros.Theory.Pieces
import NrfSpheros.Theory.Wire
import NrfSpheros.Theory.Numbered
import NrfSpheros.Theory.Bits
import NrfSpheros.Theory.SlotTable
import NrfSpheros.Theory.Ends
import NrfSpheros.Controls.Packet
import NrfSpheros.Controls.Codec
import NrfSpheros.Controls.Acceptance
import NrfSpheros.Controls.PacketCollector
import NrfSpheros.Controls.Chunking
import NrfSpheros.Controls.Corruption
import NrfSpheros.Controls.Transparency
import NrfSpheros.Controls.PacketManager
import NrfSpheros.Controls.Stream
import NrfSpheros.Sphero.Execute
import NrfSpheros.Sphero.Chunks
import NrfSpheros.Sphero.Responses
import NrfSpheros.Sphero.Requests
import NrfSpheros.Sphero.Delivery
import NrfSpheros.Sphero.Waits
import NrfSpheros.Sphero.Commands
import NrfSpheros.Sphero.Animation
import NrfSpheros.Sphero.Matrix
import NrfSpheros.Sphero.AnimationData
import NrfSpheros.Sphero.LedMap
import NrfSpheros.Ble.SpheroClient
import NrfSpheros.Ble.Sending
import NrfSpheros.Ble.Scanner
import NrfSpheros.Ble.Links
import NrfSpheros.Ble.Search
import NrfSpheros.Main.Uart
import NrfSpheros.Main.Receiver
import NrfSpheros.Main.Reception
import NrfSpheros.Main.Transmit
import NrfSpheros.Main.Framing
import NrfSpheros.Main.Loop
import NrfSpheros.Main.Pairing
import NrfSpheros.Main.Swarm
import NrfSpheros.Main.Payload
import NrfSpheros.Sphero.Unsolicited
import NrfSpheros.Main.Aborts
import NrfSpheros.Sphero.Orders
import NrfSpheros.Sphero.Methods
import NrfSpheros.Sphero.Playback
import NrfSpheros.Main.Console
import NrfSpheros.Sphero.Air
import NrfSpheros.Sphero.Hearing
import NrfSpheros.Main.Relay
import NrfSpheros.Main.Setup
import NrfSpheros.Main.Board
import NrfSpheros.Main.Naming
import NrfSpheros.Main.Firmware
