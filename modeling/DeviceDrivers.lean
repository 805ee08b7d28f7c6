import DeviceDrivers.Lib.Run
import DeviceDrivers.Lib.CallProg
import DeviceDrivers.Lib.Interleave
import DeviceDrivers.Lib.FirstMatch
import DeviceDrivers.Lib.OwnedTable
import DeviceDrivers.Lib.DriverCore
import DeviceDrivers.Lib.Bytes
import DeviceDrivers.Lib.CString
import DeviceDrivers.Lib.UserMem
import DeviceDrivers.Lib.Heap
import DeviceDrivers.Lib.SharedHeap
import DeviceDrivers.Lib.OnesComplement
import DeviceDrivers.Lib.Ipv4
import DeviceDrivers.Lib.Headers
import DeviceDrivers.Lib.Netlink
import DeviceDrivers.Kernel.Tables
import DeviceDrivers.Kernel.ModuleLife
import DeviceDrivers.Kernel.MidLoad
import DeviceDrivers.Kernel.SharedTables
import DeviceDrivers.Kernel.AllModules
import DeviceDrivers.Kernel.OpenFiles
import DeviceDrivers.Drivers.Ioctl
import DeviceDrivers.Drivers.FixedMajor
import DeviceDrivers.Drivers.IoctlValue
import DeviceDrivers.Drivers.IoctlSessions
import DeviceDrivers.Drivers.Esp32
import DeviceDrivers.Drivers.I2cChar
import DeviceDrivers.Drivers.Publication
import DeviceDrivers.Drivers.Probe
import DeviceDrivers.Drivers.ProbeCore
import DeviceDrivers.Drivers.UsbDriver
import DeviceDrivers.Drivers.SpiChar
import DeviceDrivers.Drivers.SpiCharRead
import DeviceDrivers.Drivers.SpiCharReaders
import DeviceDrivers.Drivers.LoadOrder
import DeviceDrivers.Drivers.Together
import DeviceDrivers.Drivers.TogetherFiles
import DeviceDrivers.Drivers.I2cOnBus
import DeviceDrivers.Drivers.NetEth
import DeviceDrivers.Drivers.NetEthMemory
import DeviceDrivers.Drivers.NetEthFrames
import DeviceDrivers.Drivers.NetEthCpus
import DeviceDrivers.Drivers.NetSpi
import DeviceDrivers.Drivers.NetSpiRuns
import DeviceDrivers.Drivers.NetSpiLife
import DeviceDrivers.Drivers.NetSpiCalls
import DeviceDrivers.Drivers.NetUsp
import DeviceDrivers.Drivers.NetEthRoute
import DeviceDrivers.User.Process
import DeviceDrivers.User.Receive
import DeviceDrivers.User.WifiScan
import DeviceDrivers.Lib.HexText
import DeviceDrivers.Lib.Handles
import DeviceDrivers.User.BusPrograms
import DeviceDrivers.User.Descriptors
import DeviceDrivers.Drivers.FileOps
import DeviceDrivers.User.WifiOnDrivers
