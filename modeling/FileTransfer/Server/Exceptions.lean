import FileTransfer.Server.World

/-!
# The server's `Exceptions.py`

The helpers that turn one exception into another, or into the error response.
What they print is left out.
-/

namespace FileTransfer.Server

/-- `error_response`, and `RequestHandler.error_response`: code 1607 without a
payload. -/
def errorResponse : Bytes := toLE 1 3 ++ toLE 2 1607 ++ toLE 4 0

theorem packHeader_error :
    packHeader Constants.version Constants.generalError 0 = some errorResponse := rfl

def registerNewClientExceptions (_err : Exn) : Py Bytes := pure errorResponse

/-- Both a payload shorter than a key and one with no user name before it. -/
def validatePublicKeyPayload (payload : Bytes) : Py Unit :=
  if payload.length < Constants.publicKey then raise .invalidPublicKey
  else if payload.length = Constants.publicKey then raise .invalidPublicKey
  else pure ()

/-- `UnicodeDecodeError` and `IndexError` become `ParsingDataException`. The
helper would swallow any other kind, but decoding a slice raises none. -/
def removePipePaddingExceptions {α : Type} (_err : Exn) : Py α := raise .parsingData

def saveFileExceptions {α : Type} (_e : Exn) : Py α := raise .saveFile

/-- Every branch raises `DefensiveDbException`. -/
def dbErrorHandler {α : Type} (_e : Exn) : Py α := raise .defensiveDb

end FileTransfer.Server
