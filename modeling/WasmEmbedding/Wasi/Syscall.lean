import WasmEmbedding.Wasm.Types

/-! # The functions of the system interface

Their names and types. Every function but `proc_exit` answers an error number.
-/
namespace WasmEmbedding.Wasi

/-- A function of the system interface. -/
inductive Syscall where
  | argsGet | argsSizesGet
  | clockResGet | clockTimeGet
  | environGet | environSizesGet
  | fdAdvise | fdAllocate | fdClose | fdDatasync | fdFdstatGet | fdFdstatSetFlags
  | fdFdstatSetRights | fdFilestatGet | fdFilestatSetSize | fdFilestatSetTimes | fdPread
  | fdPrestatDirName | fdPrestatGet | fdPwrite | fdRead | fdReaddir | fdRenumber | fdSeek
  | fdSync | fdTell | fdWrite
  | pathCreateDirectory | pathFilestatGet | pathFilestatSetTimes | pathLink | pathOpen
  | pathReadlink | pathRemoveDirectory | pathRename | pathSymlink | pathUnlinkFile
  | pollOneoff
  | procExit | procRaise
  | randomGet
  | schedYield
  | sockAccept | sockRecv | sockSend | sockShutdown
  deriving DecidableEq, Repr

namespace Syscall

/-- All functions, by name. -/
def all : List Syscall := [
  .argsGet, .argsSizesGet, .clockResGet, .clockTimeGet, .environGet, .environSizesGet,
  .fdAdvise, .fdAllocate, .fdClose, .fdDatasync, .fdFdstatGet, .fdFdstatSetFlags,
  .fdFdstatSetRights, .fdFilestatGet, .fdFilestatSetSize, .fdFilestatSetTimes, .fdPread,
  .fdPrestatDirName, .fdPrestatGet, .fdPwrite, .fdRead, .fdReaddir, .fdRenumber, .fdSeek,
  .fdSync, .fdTell, .fdWrite, .pathCreateDirectory, .pathFilestatGet, .pathFilestatSetTimes,
  .pathLink, .pathOpen, .pathReadlink, .pathRemoveDirectory, .pathRename, .pathSymlink,
  .pathUnlinkFile, .pollOneoff, .procExit, .procRaise, .randomGet, .schedYield, .sockAccept,
  .sockRecv, .sockSend, .sockShutdown]

/-- The name that guests import. -/
def name : Syscall → String
  | .argsGet => "args_get"
  | .argsSizesGet => "args_sizes_get"
  | .clockResGet => "clock_res_get"
  | .clockTimeGet => "clock_time_get"
  | .environGet => "environ_get"
  | .environSizesGet => "environ_sizes_get"
  | .fdAdvise => "fd_advise"
  | .fdAllocate => "fd_allocate"
  | .fdClose => "fd_close"
  | .fdDatasync => "fd_datasync"
  | .fdFdstatGet => "fd_fdstat_get"
  | .fdFdstatSetFlags => "fd_fdstat_set_flags"
  | .fdFdstatSetRights => "fd_fdstat_set_rights"
  | .fdFilestatGet => "fd_filestat_get"
  | .fdFilestatSetSize => "fd_filestat_set_size"
  | .fdFilestatSetTimes => "fd_filestat_set_times"
  | .fdPread => "fd_pread"
  | .fdPrestatDirName => "fd_prestat_dir_name"
  | .fdPrestatGet => "fd_prestat_get"
  | .fdPwrite => "fd_pwrite"
  | .fdRead => "fd_read"
  | .fdReaddir => "fd_readdir"
  | .fdRenumber => "fd_renumber"
  | .fdSeek => "fd_seek"
  | .fdSync => "fd_sync"
  | .fdTell => "fd_tell"
  | .fdWrite => "fd_write"
  | .pathCreateDirectory => "path_create_directory"
  | .pathFilestatGet => "path_filestat_get"
  | .pathFilestatSetTimes => "path_filestat_set_times"
  | .pathLink => "path_link"
  | .pathOpen => "path_open"
  | .pathReadlink => "path_readlink"
  | .pathRemoveDirectory => "path_remove_directory"
  | .pathRename => "path_rename"
  | .pathSymlink => "path_symlink"
  | .pathUnlinkFile => "path_unlink_file"
  | .pollOneoff => "poll_oneoff"
  | .procExit => "proc_exit"
  | .procRaise => "proc_raise"
  | .randomGet => "random_get"
  | .schedYield => "sched_yield"
  | .sockAccept => "sock_accept"
  | .sockRecv => "sock_recv"
  | .sockSend => "sock_send"
  | .sockShutdown => "sock_shutdown"

/-- The parameters. -/
def params : Syscall → List Wasm.ValType
  | .argsGet => [.i32, .i32]
  | .argsSizesGet => [.i32, .i32]
  | .clockResGet => [.i32, .i32]
  | .clockTimeGet => [.i32, .i64, .i32]
  | .environGet => [.i32, .i32]
  | .environSizesGet => [.i32, .i32]
  | .fdAdvise => [.i32, .i64, .i64, .i32]
  | .fdAllocate => [.i32, .i64, .i64]
  | .fdClose => [.i32]
  | .fdDatasync => [.i32]
  | .fdFdstatGet => [.i32, .i32]
  | .fdFdstatSetFlags => [.i32, .i32]
  | .fdFdstatSetRights => [.i32, .i64, .i64]
  | .fdFilestatGet => [.i32, .i32]
  | .fdFilestatSetSize => [.i32, .i64]
  | .fdFilestatSetTimes => [.i32, .i64, .i64, .i32]
  | .fdPread => [.i32, .i32, .i32, .i64, .i32]
  | .fdPrestatDirName => [.i32, .i32, .i32]
  | .fdPrestatGet => [.i32, .i32]
  | .fdPwrite => [.i32, .i32, .i32, .i64, .i32]
  | .fdRead => [.i32, .i32, .i32, .i32]
  | .fdReaddir => [.i32, .i32, .i32, .i64, .i32]
  | .fdRenumber => [.i32, .i32]
  | .fdSeek => [.i32, .i64, .i32, .i32]
  | .fdSync => [.i32]
  | .fdTell => [.i32, .i32]
  | .fdWrite => [.i32, .i32, .i32, .i32]
  | .pathCreateDirectory => [.i32, .i32, .i32]
  | .pathFilestatGet => [.i32, .i32, .i32, .i32, .i32]
  | .pathFilestatSetTimes => [.i32, .i32, .i32, .i32, .i64, .i64, .i32]
  | .pathLink => [.i32, .i32, .i32, .i32, .i32, .i32, .i32]
  | .pathOpen => [.i32, .i32, .i32, .i32, .i32, .i64, .i64, .i32, .i32]
  | .pathReadlink => [.i32, .i32, .i32, .i32, .i32, .i32]
  | .pathRemoveDirectory => [.i32, .i32, .i32]
  | .pathRename => [.i32, .i32, .i32, .i32, .i32, .i32]
  | .pathSymlink => [.i32, .i32, .i32, .i32, .i32]
  | .pathUnlinkFile => [.i32, .i32, .i32]
  | .pollOneoff => [.i32, .i32, .i32, .i32]
  | .procExit => [.i32]
  | .procRaise => [.i32]
  | .randomGet => [.i32, .i32]
  | .schedYield => []
  | .sockAccept => [.i32, .i32, .i32]
  | .sockRecv => [.i32, .i32, .i32, .i32, .i32, .i32]
  | .sockSend => [.i32, .i32, .i32, .i32, .i32]
  | .sockShutdown => [.i32, .i32]

/-- The type. -/
def type (c : Syscall) : Wasm.FuncType :=
  ⟨c.params, if c = .procExit then [] else [.i32]⟩

end Syscall

end WasmEmbedding.Wasi
