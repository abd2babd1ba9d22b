/-
# The control protocol (`ipc_protocol.h`)

A request is one byte for the command and a payload of fixed size, a reply one byte for the
status and a text of fixed size.
-/
import MiniCi.Wire

namespace MiniCi

open CStr

def IPC_MAX_PAYLOAD : ℕ := 8192

/-! ## Commands -/

def CMD_STATUS : UInt8 := 1
def CMD_PAUSE : UInt8 := 2
def CMD_RESUME : UInt8 := 3
def CMD_SET_TIMEOUT : UInt8 := 4
def CMD_SET_HW : UInt8 := 10
def CMD_SET_STUDENTS : UInt8 := 11
def CMD_GET_TRACKER : UInt8 := 12
def CMD_GET_CSV_STAT : UInt8 := 14
def CMD_TOGGLE_DIST : UInt8 := 15

/-- `IpcStatus`. -/
inductive IpcStatus where
  | IPC_OK
  | IPC_ERROR
  deriving DecidableEq

export IpcStatus (IPC_OK IPC_ERROR)

/-! ## Packets -/

/-- `IpcRequest`. -/
structure IpcRequest where
  cmd : UInt8
  payload : Buf IPC_MAX_PAYLOAD
  deriving DecidableEq

/-- `sizeof(IpcRequest)`. -/
def sizeofIpcRequest : ℕ := 8193

/-- Read an `IpcRequest` off its 8193 bytes. -/
def IpcRequest.decode (p : Bytes) : IpcRequest :=
  { cmd := p.headD 0, payload := .ofBytes IPC_MAX_PAYLOAD p.tail }

/-- `IpcResponse`; `data` is the text, which NULs follow up to the end of the array. -/
structure IpcResponse where
  status : IpcStatus
  data : Bytes
  deriving DecidableEq

end MiniCi
