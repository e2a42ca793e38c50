import EC440.FileSystem.Arguments
import EC440.FileSystem.Deletion
import EC440.FileSystem.DiskFile
import EC440.FileSystem.Listing
import EC440.FileSystem.Mounting
import EC440.FileSystem.Quotas
import EC440.FileSystem.SharedHeads
import EC440.FileSystem.Staging
import EC440.FileSystem.Truncation
import EC440.LocalStorage.CopiesNeeded
import EC440.LocalStorage.Faults
import EC440.LocalStorage.Lifecycle
import EC440.LocalStorage.PageCounts
import EC440.LocalStorage.Progress
import EC440.LocalStorage.Readers
import EC440.LocalStorage.Uninterrupted
import EC440.LocalStorage.Unshared
import EC440.LocalStorage.WholeLives
import EC440.Shell.Capacity
import EC440.Shell.Obedience
import EC440.Shell.OneShell
import EC440.Shell.Pipelines
import EC440.Shell.ReadLoop
import EC440.Shell.Rejections
import EC440.Shell.Trimming
import EC440.Threads.Exclusion
import EC440.Threads.HandOver
import EC440.Threads.Handshake
import EC440.Threads.Suspension
import EC440.UserThreads.Creation
import EC440.UserThreads.LostThreads
import EC440.UserThreads.NewThreads
