import WasmEmbedding.Engine.Memory
import WasmEmbedding.Text.Utf8
import WasmEmbedding.Wasi.Session
import WasmEmbedding.Wasi.Syscall

/-! # Running the functions of the system interface

A `Process` is what a call works on: the session, the caller's memory, and what all
guests share, the host's files and its standard streams. A call ends well, with an error
number for the guest, with the end of the guest, or with a failure that stops it. A
pointer out of bounds or out of its alignment is such a failure.

Every session is connected to the standard streams of the host, so what one guest has
read from the standard input is gone for all others. The input is kept in the pieces in
which it arrives; one call reads from one piece only.

Some of the interface is left out. Clocks stand at zero and random bytes are zero. The
functions for sockets, polling, times and attributes of files, and those that make,
list, link or remove files, know no more than which descriptors are open; they answer
with the number of an error.
-/
namespace WasmEmbedding.Wasi

open Engine (Memory)

/-- The error numbers that guests see. -/
inductive Errno where
  | badf | exist | ilseq | inval | isdir | nametoolong | noent | nosys | notdir | notsock
  | notsup | perm | spipe
  deriving DecidableEq, Repr

/-- The number of an error. -/
def Errno.number : Errno → Nat
  | .badf => 8
  | .exist => 20
  | .ilseq => 25
  | .inval => 28
  | .isdir => 31
  | .nametoolong => 37
  | .noent => 44
  | .nosys => 52
  | .notdir => 54
  | .notsock => 57
  | .notsup => 58
  | .perm => 63
  | .spipe => 70

/-- How a call ends early. -/
inductive Halt where
  | errno (e : Errno)
  /-- The guest asked to end. -/
  | exit (code : UInt32)
  | failure (message : String)
  deriving DecidableEq, Repr

/-- What a call works on. -/
structure Process where
  session : Session
  memory : Memory
  files : FileSystem
  /-- What is still to be read, in the pieces in which it arrives. -/
  stdin : List (List UInt8)
  stdout : List UInt8
  stderr : List UInt8

/-- A call. -/
abbrev Sys (α : Type) := ExceptT Halt (StateM Process) α

namespace Sys

/-- Ends with an error number. -/
def errno {α : Type} (e : Errno) : Sys α := throw (.errno e)

/-- A pointer is a multiple of its alignment. -/
def aligned (pointer alignment : Nat) : Sys Unit :=
  if pointer % alignment = 0 then pure () else throw (.failure "pointer not aligned")

/-- Bytes of the caller's memory. -/
def load (pointer count : Nat) : Sys (List UInt8) := do
  match (← get).memory.read pointer count with
  | some bytes => return bytes
  | none => throw (.failure "pointer out of bounds")

/-- Replaces bytes of the caller's memory. -/
def store (pointer : Nat) (bytes : List UInt8) : Sys Unit := do
  let p ← get
  match p.memory.write pointer bytes with
  | some m => set { p with memory := m }
  | none => throw (.failure "pointer out of bounds")

/-- A number of four bytes. -/
def loadWord (pointer : Nat) : Sys Nat := do
  aligned pointer 4
  return Memory.ofBytes (← load pointer 4)

/-- Writes a number of four bytes. -/
def storeWord (pointer n : Nat) : Sys Unit := do
  aligned pointer 4
  store pointer (Memory.toBytes 4 n)

/-- Writes a number of eight bytes. -/
def storeLong (pointer n : Nat) : Sys Unit := do
  aligned pointer 8
  store pointer (Memory.toBytes 8 n)

/-- A text of the caller's memory. -/
def loadText (pointer count : Nat) : Sys String := do
  match Text.Utf8.decode? (← load pointer count) with
  | some s => return s
  | none => errno .ilseq

/-- What an open descriptor stands for. -/
def descriptor (fd : Nat) : Sys Descriptor := do
  match (← get).session.get? fd with
  | some d => return d
  | none => errno .badf

/-- Changes what a descriptor stands for. -/
def setDescriptor (fd : Nat) (d : Descriptor) : Sys Unit :=
  modify fun p => { p with session := p.session.put fd d }

/-- The bytes of a text with a zero behind them. -/
def terminated (s : String) : List UInt8 := Text.Utf8.encode s ++ [0]

/-- Writes texts one after the other, and where each of them starts. -/
def storeTexts (pointers buffer : Nat) : List String → Sys Unit
  | [] => pure ()
  | s :: rest => do
    storeWord pointers buffer
    store buffer (terminated s)
    storeTexts (pointers + 4) (buffer + (terminated s).length) rest

/-- Writes how many texts there are, and how many bytes they take. -/
def storeSizes (count size : Nat) (texts : List String) : Sys Unit := do
  storeWord count texts.length
  storeWord size (texts.foldl (fun n s => n + (terminated s).length) 0)

/-- The first buffer of a list that is not empty: where it is, and its size. -/
def firstBuffer (pointer : Nat) : Nat → Sys (Nat × Nat)
  | 0 => return (0, 0)
  | n + 1 => do
    let start ← loadWord pointer
    let size ← loadWord (pointer + 4)
    if size = 0 then firstBuffer (pointer + 8) n else return (start, size)

/-- The file of a descriptor as it is now. -/
def content (path : Path) : Sys (List UInt8) := do
  match (← get).files.get? path with
  | some (.file bytes) => return bytes
  | _ => return []

/-- Reads from the standard input: what there is room for of the next piece. Nothing is
written at the end of the input. -/
def readInput (pointer size : Nat) : Sys Nat := do
  match (← get).stdin with
  | [] => return 0
  | piece :: later =>
    let left := if size < piece.length then piece.drop size :: later else later
    modify fun p => { p with stdin := left }
    store pointer (piece.take size)
    return (piece.take size).length

/-- Reads on from a descriptor's position. -/
def read (fd : Nat) (pointer size : Nat) : Sys Nat := do
  match ← descriptor fd with
  | .stdin => readInput pointer size
  | .file path position readable writable =>
    if !readable then errno .badf
    let bytes := ((← content path).drop position).take size
    store pointer bytes
    setDescriptor fd (.file path (position + bytes.length) readable writable)
    return bytes.length
  | _ => errno .badf

/-- The bytes with some of them, from a position on, replaced. -/
def splice (bytes : List UInt8) (position : Nat) (new : List UInt8) : List UInt8 :=
  bytes.take position ++ List.replicate (position - bytes.length) 0 ++ new ++
    bytes.drop (position + new.length)

/-- Writes at a descriptor's position. -/
def write (fd : Nat) (pointer size : Nat) : Sys Nat := do
  match ← descriptor fd with
  | .stdout =>
    let bytes ← load pointer size
    modify fun p => { p with stdout := p.stdout ++ bytes }
    return size
  | .stderr =>
    let bytes ← load pointer size
    modify fun p => { p with stderr := p.stderr ++ bytes }
    return size
  | .file path position readable writable =>
    if !writable then errno .badf
    let bytes ← load pointer size
    let old ← content path
    modify fun p => { p with files := p.files.put path (.file (splice old position bytes)) }
    setDescriptor fd (.file path (position + size) readable writable)
    return size
  | _ => errno .badf

/-- A bit of a set of flags. -/
def flag (flags bit : Nat) : Bool := flags.testBit bit

/-- The error number of a path that leads nowhere. -/
def pathErrno : FileFault → Errno
  | .notFound => .noent
  | .notADirectory => .notdir
  | _ => .perm

/-- The absolute path of a path below a directory; the way must not leave it. -/
def below (fs : FileSystem) (base : Path) (path : String) : Except Errno Path :=
  if path.isEmpty then .error .noent
  else if path.startsWith "/" then .error .perm
  else match fs.follow base (FileSystem.parts path) with
    | .ok p => if p.take base.length = base then .ok p else .error .perm
    | .error fault => .error (pathErrno fault)

/-- Opens what a path below a directory leads to. -/
def openPath (base : Path) (path : String) (openFlags rights : Nat) : Sys Nat := do
  let p ← get
  match below p.files base path with
  | .error e => errno e
  | .ok target =>
    let create := flag openFlags 0
    let directory := flag openFlags 1
    let exclusive := flag openFlags 2
    let truncate := flag openFlags 3
    let writable := flag rights 6
    let readable := flag rights 1 || !writable
    let fd := p.session.free
    let opened (d : Descriptor) : Sys Nat := do
      setDescriptor fd d
      return fd
    match p.files.get? target with
    | some _ =>
      if create && exclusive then errno .exist
    | none => pure ()
    match p.files.get? target with
    | some .directory =>
      if writable || create || truncate then errno .isdir else opened (.directory target none)
    | some (.file _) =>
      if directory then errno .notdir
      if truncate then modify fun p => { p with files := p.files.put target (.file []) }
      opened (.file target 0 readable writable)
    | none =>
      if create && !directory then
        match p.files.get? target.dropLast with
        | some .directory =>
          modify fun p => { p with files := p.files.put target (.file []) }
          opened (.file target 0 readable writable)
        | _ => errno .noent
      else errno .noent

/-- The position that a seek leads to. -/
def seek (fd : Nat) (offset : Int) (whence : Nat) : Sys Nat := do
  match ← descriptor fd with
  | .file path position readable writable =>
    let base ← match whence with
      | 0 => pure 0
      | 1 => pure position
      | 2 => do pure (← content path).length
      | _ => errno .inval
    let target := (base : Int) + offset
    if target < 0 then errno .inval
    setDescriptor fd (.file path target.toNat readable writable)
    return target.toNat
  | .directory _ _ => errno .badf
  | _ => errno .spipe

end Sys

open Sys

/-- Runs a function on its arguments; `proc_exit` ends the guest with a code below 126. -/
def Syscall.run (c : Syscall) (args : List Nat) : Sys Unit := do
  match c, args with
  | .argsGet, [pointers, buffer] => storeTexts pointers buffer (← get).session.args
  | .argsSizesGet, [count, size] => storeSizes count size (← get).session.args
  | .environGet, [pointers, buffer] => storeTexts pointers buffer (← get).session.envs
  | .environSizesGet, [count, size] => storeSizes count size (← get).session.envs
  | .clockResGet, [clock, result] =>
    if 1 < clock then errno (if clock < 4 then .badf else .inval)
    storeLong result 1
  | .clockTimeGet, [clock, _, result] =>
    if 1 < clock then errno (if clock < 4 then .badf else .inval)
    storeLong result 0
  | .randomGet, [pointer, size] => store pointer (List.replicate size 0)
  | .schedYield, _ => pure ()
  | .procExit, [code] =>
    if code < 126 then throw (.exit (UInt32.ofNat code))
    else throw (.failure "exit with invalid exit status outside of [0..126)")
  | .procRaise, _ => errno .notsup
  | .fdPrestatGet, [fd, result] =>
    match ← descriptor fd with
    | .directory _ (some guest) =>
      aligned result 4
      store result [0]
      storeWord (result + 4) (Text.Utf8.encode guest).length
    | _ => errno .badf
  | .fdPrestatDirName, [fd, pointer, size] =>
    match ← descriptor fd with
    | .directory _ (some guest) =>
      let bytes := Text.Utf8.encode guest
      if size < bytes.length then errno .nametoolong
      store pointer bytes
    | _ => errno .badf
  | .fdClose, [fd] =>
    let _ ← descriptor fd
    modify fun p => { p with session := p.session.close fd }
  | .fdRead, [fd, buffers, count, result] =>
    let _ ← descriptor fd
    let (pointer, size) ← firstBuffer buffers count
    storeWord result (← read fd pointer size)
  | .fdWrite, [fd, buffers, count, result] =>
    let _ ← descriptor fd
    let (pointer, size) ← firstBuffer buffers count
    storeWord result (← write fd pointer size)
  | .fdSeek, [fd, offset, whence, result] =>
    storeLong result (← seek fd (UInt64.ofNat offset).toInt64.toInt whence)
  | .fdTell, [fd, result] => storeLong result (← seek fd 0 1)
  | .pathOpen, [fd, _, pointer, size, openFlags, rights, _, _, result] =>
    let path ← loadText pointer size
    match ← descriptor fd with
    | .directory base _ => storeWord result (← openPath base path openFlags rights)
    | .file _ _ _ _ => errno .notdir
    | _ => errno .badf
  | .sockAccept, fd :: _ => socket fd
  | .sockRecv, fd :: _ => socket fd
  | .sockSend, fd :: _ => socket fd
  | .sockShutdown, fd :: _ => socket fd
  | .pollOneoff, _ => errno .inval
  | _, fd :: _ =>
    let _ ← descriptor fd
    errno .nosys
  | _, [] => errno .nosys
where
  /-- No descriptor is a socket. -/
  socket (fd : Nat) : Sys Unit := do
    let _ ← descriptor fd
    errno .notsock

end WasmEmbedding.Wasi
