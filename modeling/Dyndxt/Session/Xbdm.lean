import Dyndxt.Params.Parse

/-!
# `xbdm.h` and `xbdm_err.h`

The result codes, the context that is kept for a connection, and the replies:
a reply is the code returned and what is written to the response buffer.
-/

namespace Dyndxt.Session
open Dyndxt.Params

/-! ## Result codes -/

def facilityXbox : UInt32 := 0x2DB

/-- `DEF_SUCCESS`. -/
def defSuccess (code : UInt32) : UInt32 := (facilityXbox <<< (16 : UInt32)) + code

/-- `DEF_ERROR`. -/
def defError (code : UInt32) : UInt32 := 0x80000000 + (facilityXbox <<< (16 : UInt32)) + code

def xboxSOk : UInt32 := defSuccess 0x00
def xboxSMultiline : UInt32 := defSuccess 0x02
def xboxSSendBinary : UInt32 := defSuccess 0x04
def xboxSNoMoreData : UInt32 := defError 0x104
def xboxEUnexpected : UInt32 := defError 0x00
def xboxEFail : UInt32 := defError 0x05
def xboxEUnknownCommand : UInt32 := defError 0x07
def xboxECreateFileFailed : UInt32 := defError 0x0D
def xboxEAccessDenied : UInt32 := defError 0x0E
def xboxETypeInvalid : UInt32 := defError 0x11

/-! ## Contexts -/

/-- The continuation handlers. -/
inductive ContinuationProc where
  | sendMethodAddresses
  | receiveImageData
deriving DecidableEq, Repr

/-- What `user_data` points to. -/
inductive UserData where
  | other
  | contextStore
deriving DecidableEq, Repr

structure CommandContext where
  handler : Option ContinuationProc := none
  dataSize : UInt32 := 0
  buffer : Nat := 0
  bufferSize : UInt32 := 0
  userData : UserData := .other
  bytesRemaining : UInt32 := 0
deriving DecidableEq, Repr

/-! ## Replies -/

inductive Reply where
  /-- `SetXBDMError`. -/
  | error (code : UInt32) (message : String)
  /-- `SetXBDMErrorWithSuffix`. -/
  | errorWithSuffix (code : UInt32) (message : String) (suffix : Chars)
  /-- `CPPrintError`. -/
  | parseError (parseReturnCode : Int)
  /-- A text appended to the emptied response. -/
  | text (code : UInt32) (message : String)
  /-- The response is left alone. -/
  | silent (code : UInt32)
deriving DecidableEq, Repr

/-- `CPPrintError`: the text and the code. -/
def cpPrintError (parseReturnCode : Int) : String × UInt32 :=
  if parseReturnCode = PcpErr.invalidInput.code then ("Invalid input", xboxEFail)
  else if parseReturnCode = PcpErr.outOfMemory.code then ("Out of memory", xboxECreateFileFailed)
  else if parseReturnCode = PcpErr.invalidKey.code then ("Malformed key", xboxEFail)
  else if parseReturnCode = PcpErr.invalidInputUnterminatedQuotedKey.code then
    ("Malformed key (unterminated quote)", xboxEFail)
  else if parseReturnCode = PcpErr.invalidInputUnterminatedEscape.code then
    ("Malformed key (unterminated escape char)", xboxEFail)
  else ("UNKNOWN ERROR", xboxEUnexpected)

def Reply.code : Reply → UInt32
  | .error code _ => code
  | .errorWithSuffix code _ _ => code
  | .parseError parseReturnCode => (cpPrintError parseReturnCode).2
  | .text code _ => code
  | .silent code => code

end Dyndxt.Session
