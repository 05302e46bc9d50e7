import SerialNet.Dhcp.Stale
import SerialNet.Dhcp.Nak
import SerialNet.Dhcp.Pool
import SerialNet.Dns.Policy
import SerialNet.Flash.WriteFlash
import SerialNet.Heap.Invariant
import SerialNet.Lwip.MboxLaw
import SerialNet.Lwip.Lifecycle
import SerialNet.Ota.Install
import SerialNet.Lib.Bytes
import SerialNet.At.EndToEnd
import SerialNet.At.SaveReload
import SerialNet.Net.WakeUp
import SerialNet.Net.Lock
import SerialNet.Net.Retry
import SerialNet.Net.Sessions
import SerialNet.Dhcp.Ack
import SerialNet.Dhcp.Offer
import SerialNet.Lib.CInt
import SerialNet.Lib.Circular
import SerialNet.Lib.Window
import SerialNet.Lib.Fifo
import SerialNet.Lib.Run
import SerialNet.Ring.Refinement
import SerialNet.Ring.Interleaving
import SerialNet.Lib.Prog
import SerialNet.Lwip.Waits
import SerialNet.At.WellFormed
import SerialNet.At.Arguments
import SerialNet.At.Leaks
import SerialNet.Queue.Refinement
import SerialNet.Net.TcpServer
import SerialNet.Heap.Search
import SerialNet.Heap.Malloc
import SerialNet.At.Effects
import SerialNet.Lib.Loads
import SerialNet.Flash.Verify
import SerialNet.Dhcp.OptionList
import SerialNet.Dhcp.Priority
import SerialNet.Dhcp.History
import SerialNet.Dns.NameEncoding
import SerialNet.Dns.CopyReads
import SerialNet.Dns.Replies
import SerialNet.Net.Escape
import SerialNet.Net.FlowControl
import SerialNet.Net.FrameLength
import SerialNet.Net.UartIsr
import SerialNet.Net.LineBuffer
import SerialNet.At.ArgvStores
import SerialNet.Lib.Numeral
import SerialNet.Lib.ByteOrder
import SerialNet.At.IpText
import SerialNet.At.InetAton
import SerialNet.At.Nqscnn
import SerialNet.At.Narrowing
import SerialNet.Lib.CharArray
import SerialNet.At.StringSettings
import SerialNet.At.SoftApConf
import SerialNet.Util.Crc
import SerialNet.Util.MoveMem
import SerialNet.At.Strsep
import SerialNet.Net.MaxFd
import SerialNet.Net.Ping
import SerialNet.Ota.Areas
import SerialNet.At.BctDatagram
import SerialNet.At.KeyEnd
import SerialNet.Lib.PrioTable
import SerialNet.Kernel.Timing
import SerialNet.Lib.LinkedList
import SerialNet.Timer.NstTimer
import SerialNet.Lib.Thumb
import SerialNet.Util.MemcpyReturns
