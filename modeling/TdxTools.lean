import TdxTools.VarEnroll.Refinement
import TdxTools.Attestation.ProcessHistory
import TdxTools.Attestation.Replay
import TdxTools.Attestation.Quote
import TdxTools.Attestation.ExtendIma
import TdxTools.CloudStack.VerifiedDownload
import TdxTools.Attestation.LogRecords
import TdxTools.Attestation.NoAction
import TdxTools.Attestation.BankSelection
import TdxTools.Attestation.ReportParsing
import TdxTools.FullDiskEncryption.TdReport
import TdxTools.CloudStack.VmGuest
import TdxTools.VarEnroll.RegionSafety
import TdxTools.VarEnroll.Search
import TdxTools.VarEnroll.HeaderSizes
import TdxTools.VarEnroll.DoVarEnroll
import TdxTools.CloudStack.CmdlineFields
import TdxTools.Attestation.QuotePayload
import TdxTools.Attestation.ReplayTotal
import TdxTools.VarEnroll.Packing
import TdxTools.VarEnroll.Reporting
import TdxTools.VarEnroll.Naming
import TdxTools.VarEnroll.GuidCodec
import TdxTools.Attestation.Descriptors
import TdxTools.VarEnroll.SignatureLists
import TdxTools.CloudStack.CmdlineAppend
import TdxTools.CloudStack.CmdlineKeys
import TdxTools.CloudStack.ChecksumFile
import TdxTools.CloudStack.CompleteDownload
import TdxTools.CloudStack.CpuPinning
import TdxTools.CloudStack.SgxAllocation
import TdxTools.CloudStack.Cluster
import TdxTools.CloudStack.CmdRunner
import TdxTools.CloudStack.FreshDelivery
import TdxTools.CloudStack.SettledTree
import TdxTools.CloudStack.DomainSettings
import TdxTools.VarEnroll.FullSize
import TdxTools.Attestation.HexDump
import TdxTools.General.HashChain
import TdxTools.Attestation.MeasuredBoot
import TdxTools.Attestation.DumpedLog
import TdxTools.VarEnroll.EditOrder
import TdxTools.FullDiskEncryption.ProvisionedGuest
import TdxTools.VarEnroll.CommandLine
import TdxTools.CloudStack.Libvirt
import TdxTools.CloudStack.GuestLeaks
import TdxTools.CloudStack.PreparedDomain
