import Rtl8188fu.Lib.Run
import Rtl8188fu.Lib.StreamCipher
import Rtl8188fu.Lib.SerialNumber
import Rtl8188fu.Lib.ReleaseWindow
import Rtl8188fu.Recv.ReorderCtrl
import Rtl8188fu.Recv.ReorderEngine
import Rtl8188fu.Recv.BlockAck
import Rtl8188fu.Recv.BarWindow
import Rtl8188fu.Ez.Discovery
import Rtl8188fu.Ez.ProbeResponse
import Rtl8188fu.Ez.ValueBounds
import Rtl8188fu.Ez.ScanElement
import Rtl8188fu.Recv.Adapter
import Rtl8188fu.Recv.PnCheck
import Rtl8188fu.Recv.DataFrame
import Rtl8188fu.Recv.Decryptor
import Rtl8188fu.Recv.GroupReplay
import Rtl8188fu.Recv.MgmtProtect
import Rtl8188fu.Recv.ProtectedMgmt
import Rtl8188fu.Recv.Defrag
import Rtl8188fu.Recv.RecvFunc
import Rtl8188fu.Recv.RxSystem
import Rtl8188fu.Recv.DefragQueue
import Rtl8188fu.Recv.DefragCall
import Rtl8188fu.Lib.Reassembly
import Rtl8188fu.Recv.DefragLoop
import Rtl8188fu.Recv.DefragSound
import Rtl8188fu.Recv.PlaintextBarrier
import Rtl8188fu.Lib.Ledger
import Rtl8188fu.Recv.FrameLedger
import Rtl8188fu.Recv.FrameHandling
import Rtl8188fu.Recv.FrameConservation
import Rtl8188fu.Efuse.MapRead
import Rtl8188fu.Efuse.MapWrite
import Rtl8188fu.Efuse.Packets
import Rtl8188fu.Efuse.CurrentSize
import Rtl8188fu.Efuse.Scanners
import Rtl8188fu.Efuse.PacketWrite
import Rtl8188fu.Efuse.WriteRead
import Rtl8188fu.Efuse.Capacity
import Rtl8188fu.Lib.HashChains
import Rtl8188fu.Bridge.Database
import Rtl8188fu.Bridge.DatabaseInvariant
import Rtl8188fu.Bridge.Ageing
import Rtl8188fu.Bridge.DatabaseRuns
import Rtl8188fu.Bridge.DeliveryLaw
import Rtl8188fu.Xmit.Attrib
import Rtl8188fu.Xmit.MgmtCoalesce
import Rtl8188fu.Xmit.NonceRuns
import Rtl8188fu.Lib.ByteMemory
import Rtl8188fu.Xmit.DataHeader
import Rtl8188fu.Xmit.Coalesce
import Rtl8188fu.Xmit.FragmentLayout
import Rtl8188fu.Xmit.Fragmentation
import Rtl8188fu.Lib.Latches
import Rtl8188fu.Ap.BssCap
import Rtl8188fu.Ap.BssBeacon
import Rtl8188fu.Ap.BssBeaconRuns
import Rtl8188fu.Rm.Measurement
import Rtl8188fu.Rm.Steps
import Rtl8188fu.Rm.Lifetime
import Rtl8188fu.Rm.System
import Rtl8188fu.Rm.SystemInvariant
import Rtl8188fu.Rm.RoleLaw
import Rtl8188fu.Rm.LifetimeRuns
import Rtl8188fu.Rm.Clocks
import Rtl8188fu.Rm.Progress
import Rtl8188fu.Rm.ProgressRuns
import Rtl8188fu.Rm.Reports
import Rtl8188fu.Ap.AidAlloc
import Rtl8188fu.Ap.StaTable
import Rtl8188fu.Ap.TimIe
import Rtl8188fu.Ie.Elements
import Rtl8188fu.Ie.Rsn
import Rtl8188fu.Ap.AssocParse
import Rtl8188fu.Ap.Mlme
import Rtl8188fu.Ap.Renegotiate
import Rtl8188fu.Ap.MlmeSteps
import Rtl8188fu.Ap.StaLists
import Rtl8188fu.Ap.ProtectedSta
import Rtl8188fu.Ap.AssocSound
import Rtl8188fu.Lib.Bitmap
import Rtl8188fu.Lib.Census
import Rtl8188fu.Cam.MacidAlloc
import Rtl8188fu.Cam.SecCam
import Rtl8188fu.Cam.OpNum
import Rtl8188fu.Cam.SecCamSwap
import Rtl8188fu.Scan.Network
import Rtl8188fu.Scan.Queue
import Rtl8188fu.Scan.Placement
import Rtl8188fu.Scan.QueueInvariant
import Rtl8188fu.Scan.QueueRuns
import Rtl8188fu.Efuse.PgRead
import Rtl8188fu.Ie.Attributes
import Rtl8188fu.Lib.Tlv
import Rtl8188fu.Lib.TlvWalk
import Rtl8188fu.Ie.Searchers
import Rtl8188fu.Ie.ElementParser
import Rtl8188fu.Ie.RsneParse
import Rtl8188fu.Ie.RemoveIe
import Rtl8188fu.Ie.UpdateIe
import Rtl8188fu.Ie.ExtCap
import Rtl8188fu.Ie.HtCaps
import Rtl8188fu.Ie.AbsorbSsid
import Rtl8188fu.Ie.CsaIe
import Rtl8188fu.Ie.P2pMerge
import Rtl8188fu.Ie.ShrinkInPlace
import Rtl8188fu.Ie.DeleteIe
import Rtl8188fu.Ie.DeleteAttr
import Rtl8188fu.Ie.BssDelete
import Rtl8188fu.Ie.BssDeleteAttr
import Rtl8188fu.Ie.RateByMode
import Rtl8188fu.Lib.WhileLoop
import Rtl8188fu.Lib.AlignedRecords
import Rtl8188fu.Recv.Amsdu
import Rtl8188fu.Lib.PacketBuffer
import Rtl8188fu.Recv.RxPointers
import Rtl8188fu.Recv.RxRefinement
import Rtl8188fu.Sec.Arcfour
import Rtl8188fu.Sec.SwFragments
import Rtl8188fu.Sec.SwRoundTrip
import Rtl8188fu.Sec.Ccm
import Rtl8188fu.Sec.Gcm
import Rtl8188fu.Sec.Aes
import Rtl8188fu.Sec.Ccmp
import Rtl8188fu.Sec.SwAead
import Rtl8188fu.Ez.ConfigText
import Rtl8188fu.Ez.ConfigVars
import Rtl8188fu.Ez.Tokenizer
import Rtl8188fu.Ez.MacText
import Rtl8188fu.Ez.ConfigBounds
import Rtl8188fu.Ez.SmartConfig
import Rtl8188fu.Ez.Session
import Rtl8188fu.Lib.ByteOrder
import Rtl8188fu.Lib.OnesComplement
import Rtl8188fu.Bridge.DhcpFlag
import Rtl8188fu.Bridge.NeighbourDiscovery
import Rtl8188fu.Bridge.PppoeTag
import Rtl8188fu.Lib.MemoryEffect
import Rtl8188fu.Bridge.FrameHandler
import Rtl8188fu.Bridge.ClientFrames
import Rtl8188fu.Bridge.FrameEffects
import Rtl8188fu.Bridge.FramesIntact
import Rtl8188fu.Rm.Repetition
import Rtl8188fu.Rm.RepetitionRuns
import Rtl8188fu.Rm.Identity
import Rtl8188fu.Lib.ElementScan
import Rtl8188fu.Rm.RequestParse
import Rtl8188fu.Rm.RequestBounds
import Rtl8188fu.Rm.RequestHoldings
import Rtl8188fu.Rm.ChannelSet
import Rtl8188fu.Rm.RequestCodec
import Rtl8188fu.Lib.NextFit
import Rtl8188fu.Rm.BeaconReport
import Rtl8188fu.Rm.BeaconReportLaw
import Rtl8188fu.Rm.ReportBuffers
import Rtl8188fu.Rm.Accounting
import Rtl8188fu.Rm.LiveObjects
import Rtl8188fu.Ap.BeaconIe
import Rtl8188fu.Ap.BeaconIeLaw
import Rtl8188fu.Ap.ChannelSwitch
import Rtl8188fu.Ap.MacAcl
import Rtl8188fu.Xmit.Classify
import Rtl8188fu.Wnm.NbReport
import Rtl8188fu.Wnm.NbParse
import Rtl8188fu.Wnm.Sorting
import Rtl8188fu.Wnm.SurveyLaw
import Rtl8188fu.Wnm.BtmRequest
import Rtl8188fu.Regd.Chplan
import Rtl8188fu.Coex.BssCoexist
import Rtl8188fu.Lib.ReadTrace
import Rtl8188fu.Scan.BssInfo
import Rtl8188fu.Recv.UsbTransfer
import Rtl8188fu.Ap.Expiry
import Rtl8188fu.Ap.PowerSaveOrder
import Rtl8188fu.Os.Cbuf
import Rtl8188fu.Os.SegMap
import Rtl8188fu.Oem.RegisterFields
import Rtl8188fu.Wnm.BtmResponse
import Rtl8188fu.Ie.VendorAttr
import Rtl8188fu.Mbo.Disallowed
import Rtl8188fu.Mbo.NonPrefChans
import Rtl8188fu.Ft.EventElements
import Rtl8188fu.Oem.VariantCache
import Rtl8188fu.Oem.LayoutNorm
import Rtl8188fu.Xmit.TxScheduler
