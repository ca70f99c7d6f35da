import DiskScope.Main
import DiskScope.Proofs.BestEffort
import DiskScope.Proofs.Bitmap.FiniteSet
import DiskScope.Proofs.Bitmap.RunScan
import DiskScope.Proofs.Partition.BootSectorCodec
import DiskScope.Proofs.Partition.ChainWalk
import DiskScope.Proofs.Sparse.Encoding
import DiskScope.Proofs.Sparse.Export
import DiskScope.Proofs.Sparse.ExportFailure
import DiskScope.Proofs.Xfs.BlockAddress
import DiskScope.Proofs.Xfs.DirectoryCodec
import DiskScope.Proofs.Xfs.ExtentCodec
import DiskScope.Proofs.Xfs.FieldTables
import DiskScope.Proofs.Xfs.FreeCount
import DiskScope.Proofs.Xfs.FreeTreeWalk
import DiskScope.Proofs.Xfs.InodeAddress
import DiskScope.Proofs.Xfs.InodeFields
import DiskScope.Proofs.Xfs.InodeInside
import DiskScope.Proofs.Xfs.InodeWindow
import DiskScope.Proofs.Xfs.LeafRecords
import DiskScope.Proofs.Xfs.Rendering
import DiskScope.Proofs.Xfs.ScanFailure
import DiskScope.Proofs.Xfs.ScanLoaded
import DiskScope.Proofs.Xfs.Validation
import DiskScope.Proofs.Xfs.EarlyVersions
import DiskScope.Proofs.Text.DumpReader
import DiskScope.Proofs.Text.Sizes
import DiskScope.Proofs.Xfs.MagicTables
import DiskScope.Proofs.Xfs.Sectors
import DiskScope.Proofs.Xfs.DeviceFork
import DiskScope.Proofs.Xfs.FlagNames
import DiskScope.Proofs.Xfs.FreeListRing
