/-
Error codes of the system. A code is a 32-bit word; the ones that the
rules of this library mention have names.
-/

namespace PosixFiles

/-- The code with which a system call fails. -/
structure Errno where
  code : Int32
  deriving DecidableEq, Repr, Inhabited

namespace Errno

/-- Operation not permitted. -/
def eperm : Errno := ⟨1⟩
/-- No such file or directory. -/
def enoent : Errno := ⟨2⟩
/-- Interrupted system call. -/
def eintr : Errno := ⟨4⟩
/-- Input/output error. -/
def eio : Errno := ⟨5⟩
/-- No such device or address. -/
def enxio : Errno := ⟨6⟩
/-- Bad file descriptor. -/
def ebadf : Errno := ⟨9⟩
/-- Cannot allocate memory. -/
def enomem : Errno := ⟨12⟩
/-- Permission denied. -/
def eacces : Errno := ⟨13⟩
/-- Bad address. -/
def efault : Errno := ⟨14⟩
/-- Device or resource busy. -/
def ebusy : Errno := ⟨16⟩
/-- File exists. -/
def eexist : Errno := ⟨17⟩
/-- Not a directory. -/
def enotdir : Errno := ⟨20⟩
/-- Is a directory. -/
def eisdir : Errno := ⟨21⟩
/-- Invalid argument. -/
def einval : Errno := ⟨22⟩
/-- Numerical result out of range. -/
def erange : Errno := ⟨34⟩
/-- File name too long. -/
def enametoolong : Errno := ⟨36⟩
/-- Function not implemented. -/
def enosys : Errno := ⟨38⟩
/-- Directory not empty. -/
def enotempty : Errno := ⟨39⟩
/-- Too many levels of symbolic links. -/
def eloop : Errno := ⟨40⟩
/-- No data available. -/
def enodata : Errno := ⟨61⟩
/-- Operation not supported. -/
def enotsup : Errno := ⟨95⟩
/-- Address already in use. -/
def eaddrinuse : Errno := ⟨98⟩
/-- Connection timed out. -/
def etimedout : Errno := ⟨110⟩

end Errno
end PosixFiles
