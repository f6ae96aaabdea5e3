import LowcarRuntime.Memory
import LowcarRuntime.Codec.Cobs
import LowcarRuntime.Codec.CobsMemory
import LowcarRuntime.Codec.Message
import LowcarRuntime.Codec.DeviceData
import LowcarRuntime.Relay.Transfer
import LowcarRuntime.Relay.Setup
import LowcarRuntime.Discovery
import LowcarRuntime.Relay.Threads
import LowcarRuntime.Relay.Teardown
import LowcarRuntime.Relay.Sends
import LowcarRuntime.Executor
import LowcarRuntime.NetHandlerClient
import LowcarRuntime.UdpPrint
