/-
The coarse category under which a host runtime files an error code. It is
finer than `ErrorKind` and serves only the conversion of a failure into
the host's own error value.
-/
import PosixFiles.Errno.Basic

namespace PosixFiles
namespace Errno

/-- The codes that have a category of their own, in rising order. -/
def categories : List (Int × String) :=
  [(1, "PermissionDenied"),
   (2, "NotFound"),
   (4, "Interrupted"),
   (5, "InputOutputError"),
   (7, "ArgumentListTooLong"),
   (11, "WouldBlock"),
   (12, "OutOfMemory"),
   (13, "PermissionDenied"),
   (16, "ResourceBusy"),
   (17, "AlreadyExists"),
   (18, "CrossesDevices"),
   (20, "NotADirectory"),
   (21, "IsADirectory"),
   (22, "InvalidInput"),
   (23, "TooManyOpenFiles"),
   (24, "TooManyOpenFiles"),
   (26, "ExecutableFileBusy"),
   (27, "FileTooLarge"),
   (28, "StorageFull"),
   (29, "NotSeekable"),
   (30, "ReadOnlyFilesystem"),
   (31, "TooManyLinks"),
   (32, "BrokenPipe"),
   (35, "Deadlock"),
   (36, "InvalidFilename"),
   (38, "Unsupported"),
   (39, "DirectoryNotEmpty"),
   (40, "FilesystemLoop"),
   (95, "Unsupported"),
   (98, "AddrInUse"),
   (99, "AddrNotAvailable"),
   (100, "NetworkDown"),
   (101, "NetworkUnreachable"),
   (103, "ConnectionAborted"),
   (104, "ConnectionReset"),
   (107, "NotConnected"),
   (110, "TimedOut"),
   (111, "ConnectionRefused"),
   (113, "HostUnreachable"),
   (115, "InProgress"),
   (116, "StaleNetworkFileHandle"),
   (122, "QuotaExceeded")]

/-- The category of a code. -/
def category (e : Errno) : String :=
  (categories.lookup e.code.toInt).getD "Uncategorized"

end Errno
end PosixFiles
