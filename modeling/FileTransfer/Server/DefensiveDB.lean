import FileTransfer.Server.Exceptions

/-!
# The server's `DefensiveDB.py`

The query helpers, statement by statement. `run_thread_query` is one
operation; a helper that calls it twice leaves room for other threads in
between.
-/

namespace FileTransfer.Server

open FileTransfer.Effect

/-- `run_thread_query`: one statement under the lock. -/
def runThreadQuery (q : Query) : Py q.Reply := Program.op (S := sig) (.query q)

def getCurrentTimedate : Py Str := Program.op (S := sig) .now

/-- `update_entry(table, uid, field, data, file, filename)`; the table and the
field are those of `entry`. -/
def updateEntry (entry : Entry) (uid : Uid) (file : Bool) (filename : Str) : Py Unit :=
  tryExcept
    (do
      if file ∧ filename ≠ [] then
        let _ ← runThreadQuery (.updateNamed entry uid filename)
      else
        let _ ← runThreadQuery (.update entry uid)
      match entry with
      | .client _ _ =>
        let now ← getCurrentTimedate
        let _ ← runThreadQuery (.update (.client .lastSeen now) uid)
      | .verified _ => pure ())
    dbErrorHandler

/-- `get_data('clients', uid, field)`. -/
def getData (field : ClientField) (uid : Uid) : Py field.Ty :=
  tryExcept
    (do
      let data ← runThreadQuery (.selectClient field uid)
      match data with
      | none => raise .valueError
      | some v => pure v)
    dbErrorHandler

/-- `self.backup_path / username[:-1]`. -/
def userDir (env : Env) (username : Str) : PurePath :=
  env.backupPath.path.join username.dropLast

def addNewFileDb (env : Env) (uid : Uid) (fileName : Str) (verified : Nat) : Py Unit :=
  tryExcept
    (do
      let username ← getData .userName uid
      let path := (userDir env username).str
      let _ ← runThreadQuery (.insertFile ⟨uid, fileName, path, verified⟩))
    dbErrorHandler

/-- The uuid registered under `username` with code 1601, or `b''` with code
1600. -/
def findUsername (username : Str) : Py (Bytes × Nat) := do
  match ← runThreadQuery (.selectUuid username) with
  | none => pure ([], Constants.initRegistrationSucc)
  | some uid => pure (uid.bytes, Constants.registrationFail)

/-- The placeholder keys of a fresh row, `b'public_key'` and `b'aes_key'`. -/
def publicKeyPlaceholder : Bytes := utf8Encode "public_key".toList

def aesKeyPlaceholder : Bytes := utf8Encode "aes_key".toList

def addNewClientDb (uid : Uid) (name : Str) : Py Unit :=
  tryExcept
    (do
      let now ← getCurrentTimedate
      let _ ← runThreadQuery
        (.insertClient ⟨uid, name, publicKeyPlaceholder, now, aesKeyPlaceholder⟩))
    dbErrorHandler

def deleteUnverified (uid : Uid) (filename : Str) : Py Unit :=
  tryExcept
    (do let _ ← runThreadQuery (.deleteUnverified uid filename))
    dbErrorHandler

end FileTransfer.Server
