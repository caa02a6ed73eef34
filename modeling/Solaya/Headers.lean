/-!
# The Linux ABI the kernel speaks

The `headers` crate generates its constants from the Linux uapi headers
(`asm-generic/errno.h`, `asm-generic/mman-common.h`, `linux/mman.h`,
`asm-generic/fcntl.h`, `asm-generic/ioctls.h`, `linux/wait.h`,
`asm-generic/termbits.h`, `linux/auxvec.h`, `linux/fs.h`) and musl's
`dirent.h`.  The model names the error numbers, the `mmap` and `mprotect`
flags, the file status and open flags, the `lseek` origins, the directory-entry
types, the `fcntl` and `ioctl` commands, the `wait4` options, the `termios`
flags and control-character slots and the auxiliary-vector keys that the
modelled functions use.
-/

namespace Solaya

/-- `headers::errno::Errno`. -/
inductive Errno where
  | enoent
  | esrch
  | eintr
  | eio
  | ebadf
  | echild
  | eagain
  | efault
  | eexist
  | enotdir
  | eisdir
  | einval
  | emfile
  | epipe
  deriving DecidableEq, Repr

/-! ## `headers::syscall_types` -/

/-- `PROT_NONE`. -/
def protNone : UInt32 := 0x0

/-- `PROT_READ`. -/
def protRead : UInt32 := 0x1

/-- `PROT_WRITE`. -/
def protWrite : UInt32 := 0x2

/-- `PROT_EXEC`. -/
def protExec : UInt32 := 0x4

/-- `MAP_PRIVATE`. -/
def mapPrivate : UInt32 := 0x02

/-- `MAP_FIXED`. -/
def mapFixed : UInt32 := 0x10

/-- `MAP_ANONYMOUS`. -/
def mapAnonymous : UInt32 := 0x20

/-- `O_NONBLOCK`. -/
def oNonblock : UInt32 := 0o4000

/-- `O_CLOEXEC`. -/
def oCloexec : UInt32 := 0o2000000

/-- `O_CREAT`. -/
def oCreat : UInt32 := 0o100

/-- `O_TRUNC`. -/
def oTrunc : UInt32 := 0o1000

/-- `O_APPEND`. -/
def oAppend : UInt32 := 0o2000

/-- `O_DIRECTORY`. -/
def oDirectory : UInt32 := 0o200000

/-- `F_GETFL`. -/
def fGetfl : UInt32 := 3

/-- `F_SETFL`. -/
def fSetfl : UInt32 := 4

/-- `FIONBIO`. -/
def fionbio : UInt32 := 0x5421

/-- `WNOHANG`. -/
def wnohang : UInt32 := 0x1

/-- `WUNTRACED`. -/
def wuntraced : UInt32 := 0x2

/-! ## `headers::fs` -/

/-- `SEEK_SET`. -/
def seekSet : Int32 := 0

/-- `SEEK_CUR`. -/
def seekCur : Int32 := 1

/-- `SEEK_END`. -/
def seekEnd : Int32 := 2

/-- `DT_DIR`. -/
def dtDir : UInt8 := 4

/-- `DT_REG`. -/
def dtReg : UInt8 := 8

/-! ## Auxiliary vector -/

/-- `AT_NULL`: the key that ends the auxiliary vector. -/
def atNull : Nat := 0

/-- `AT_PHDR`. -/
def atPhdr : Nat := 3

/-- `AT_PHENT`. -/
def atPhent : Nat := 4

/-- `AT_PHNUM`. -/
def atPhnum : Nat := 5

/-- `AT_PAGESZ`. -/
def atPagesz : Nat := 6

/-- `AT_RANDOM`. -/
def atRandom : Nat := 25

/-! ## `termios` -/

/-- `NCCS`: the number of control-character slots. -/
abbrev nccs : Nat := 19

/-- `VINTR`. -/
def vintr : Fin nccs := 0

/-- `VQUIT`. -/
def vquit : Fin nccs := 1

/-- `VERASE`. -/
def verase : Fin nccs := 2

/-- `VKILL`. -/
def vkill : Fin nccs := 3

/-- `VEOF`. -/
def veof : Fin nccs := 4

/-- `VTIME`. -/
def vtime : Fin nccs := 5

/-- `VMIN`. -/
def vmin : Fin nccs := 6

/-- `VSUSP`. -/
def vsusp : Fin nccs := 10

/-- `ICRNL`. -/
def icrnl : UInt32 := 0o400

/-- `OPOST`. -/
def opost : UInt32 := 0o1

/-- `ONLCR`. -/
def onlcr : UInt32 := 0o4

/-- `ISIG`. -/
def isig : UInt32 := 0o1

/-- `ICANON`. -/
def icanon : UInt32 := 0o2

/-- `ECHO`. -/
def echoFlag : UInt32 := 0o10

/-- `ECHOE`. -/
def echoe : UInt32 := 0o20

end Solaya
