import VhdxForensic.Core.Reader
import VhdxForensic.Core.OpenEquivalence
import VhdxForensic.Rust.Layout
import VhdxForensic.Core.LogFormat
import VhdxForensic.Core.Encoding
import VhdxForensic.Core.ReferenceDisk
import VhdxForensic.Rust.Sort
import VhdxForensic.Rust.Interleave
import VhdxForensic.Rust.LastWriter
import VhdxForensic.Rust.ShiftRegister
import VhdxForensic.Rust.Intervals
import VhdxForensic.Rust.ShortReads
import VhdxForensic.Forensic.LogAudit
import VhdxForensic.Forensic.RegionChecks
import VhdxForensic.Forensic.Anomaly
import VhdxForensic.Forensic.HeaderChecks
import VhdxForensic.Forensic.ParsedRegions
import VhdxForensic.Forensic.BatChecks
import VhdxForensic.Forensic.TableSize
import VhdxForensic.Forensic.AuditedImage
import VhdxForensic.Forensic.BlockPlacement
import VhdxForensic.Forensic.TrailingData
import VhdxForensic.Core.ReaderUse
import VhdxForensic.Core.Isolation
import VhdxForensic.Core.StoredBytes
import VhdxForensic.Core.BackingCalls
import VhdxForensic.Forensic.RegionLayout
import VhdxForensic.Forensic.MetadataChecks
import VhdxForensic.Forensic.ItemOverlaps
import VhdxForensic.Forensic.GhostData
import VhdxForensic.Forensic.Origins
import VhdxForensic.Forensic.Integrity
import VhdxForensic.Core.OwnershipBits
import VhdxForensic.Forensic.SlotRoles
import VhdxForensic.Core.OverlayBytes
import VhdxForensic.Core.OverlaySize
import VhdxForensic.Core.Checksum
import VhdxForensic.Forensic.Tampering
import VhdxForensic.Forensic.UnservedData
import VhdxForensic.Forensic.ReservedAreas
import VhdxForensic.Forensic.Repair
import VhdxForensic.Forensic.RepairFindings
import VhdxForensic.Forensic.RepairTrail
import VhdxForensic.Core.BackingIndependence
import VhdxForensic.Core.BoundedRequests
import VhdxForensic.Core.ReplayRestart
import VhdxForensic.Core.SharedSource
import VhdxForensic.Forensic.RepairAliasing
import VhdxForensic.Forensic.RepairedDisk
import VhdxForensic.Forensic.SilentReport
import VhdxForensic.Forensic.ParserAgreement
import VhdxForensic.Forensic.EmptyReport
import VhdxForensic.Forensic.DiskAfterRepair
