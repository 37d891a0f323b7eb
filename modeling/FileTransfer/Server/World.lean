import FileTransfer.Lib.Program
import FileTransfer.Lib.Table
import FileTransfer.Lib.FileTree
import FileTransfer.Server.Constants

/-!
# What the server acts on

The two tables of `defensive.db`, the file tree, and the operations the
handlers perform on them. A call of `run_thread_query` holds the lock for one
statement, so one statement is one operation; each call on a path is another.

Everything the server does not decide itself comes from an `Env`: the home
directory, the draws of `uuid4` and of the random generator, the clock, and
which statements and calls fail. It is asked at the current `tick`, which
counts operations, so ranging over all `Env` ranges over all behaviours.
-/

namespace FileTransfer.Server

open FileTransfer.Effect

/-! ## Tables -/

/-- A row of `clients`. -/
structure ClientRow where
  uuid : Uid
  userName : Str
  publicKey : Bytes
  lastSeen : Str
  aesKey : Bytes
deriving DecidableEq

/-- A row of `files`. -/
structure FileRow where
  uuid : Uid
  fileName : Str
  pathName : Str
  verified : Nat
deriving DecidableEq

/-- The columns of `clients` that statements name. -/
inductive ClientField where
  | userName
  | publicKey
  | lastSeen
  | aesKey
deriving DecidableEq

/-- TEXT columns hold a `str`, BLOB columns hold `bytes`. -/
abbrev ClientField.Ty : ClientField → Type
  | .userName => Str
  | .publicKey => Bytes
  | .lastSeen => Str
  | .aesKey => Bytes

def ClientRow.get (r : ClientRow) : (f : ClientField) → f.Ty
  | .userName => r.userName
  | .publicKey => r.publicKey
  | .lastSeen => r.lastSeen
  | .aesKey => r.aesKey

def ClientRow.set (r : ClientRow) : (f : ClientField) → f.Ty → ClientRow
  | .userName, v => { r with userName := v }
  | .publicKey, v => { r with publicKey := v }
  | .lastSeen, v => { r with lastSeen := v }
  | .aesKey, v => { r with aesKey := v }

@[simp] theorem ClientRow.set_uuid (r : ClientRow) (f : ClientField) (v : f.Ty) :
    (r.set f v).uuid = r.uuid := by
  cases f <;> rfl

/-- What `update_entry` assigns: a column of `clients`, or `verified` in
`files`. -/
inductive Entry where
  | client (field : ClientField) (data : field.Ty)
  | verified (data : Nat)

/-- The statements `run_thread_query` is called with. -/
inductive Query where
  /-- `SELECT field FROM clients WHERE uuid = ?` -/
  | selectClient (field : ClientField) (uid : Uid)
  /-- `SELECT uuid FROM clients WHERE user_name = ?` -/
  | selectUuid (userName : Str)
  /-- `INSERT INTO clients (...) VALUES (...)` -/
  | insertClient (row : ClientRow)
  /-- `INSERT OR IGNORE INTO files (...) VALUES (...)` -/
  | insertFile (row : FileRow)
  /-- `UPDATE table SET field = ? WHERE uuid = ?` -/
  | update (entry : Entry) (uid : Uid)
  /-- `UPDATE table SET field = ? WHERE uuid = ? AND file_name = ?` -/
  | updateNamed (entry : Entry) (uid : Uid) (fileName : Str)
  /-- `DELETE FROM files WHERE verified = 0 AND uuid = ? AND file_name = ?` -/
  | deleteUnverified (uid : Uid) (fileName : Str)

/-- `fetchone()` of a SELECT, `rowcount` of the other statements. -/
abbrev Query.Reply : Query → Type
  | .selectClient field _ => Option field.Ty
  | .selectUuid _ => Option Uid
  | _ => Nat

/-! ## Exceptions -/

/-- The exceptions (`Exception` and below) the server tells apart. -/
inductive Exn where
  | unicodeDecodeError
  | indexError
  | structError
  | valueError
  | typeError
  | osError
  | sqliteError
  | invalidPublicKey
  | decryptionError
  | saveFile
  | parsingData
  | defensiveDb
deriving DecidableEq

/-- What can be raised: an `Exception`, or the `SystemExit` of `exit(-1)`, which
`except Exception` does not catch. -/
inductive Raised where
  | exception (e : Exn)
  | systemExit
deriving DecidableEq

/-! ## The world -/

structure World where
  clients : Table ClientRow.uuid
  files : Table FileRow.uuid
  disk : Disk
  tick : Nat

/-- Empty tables, on some disk. -/
def World.init (disk : Disk) : World := ⟨.empty, .empty, disk, 0⟩

/-- How a call on a path can fail for reasons outside the file tree: before it
had any effect, or (a write) after the file was truncated and some bytes were
written. -/
inductive DiskFault where
  | refused
  | partialWrite (written : Nat)
deriving DecidableEq

/-- `Path.home() / 'backupsvr'`: an absolute path of plain names. -/
structure BackupPath where
  path : PurePath
  root_eq : path.root = ['/']
  plain : ∀ c ∈ path.parts, PurePath.Plain c

/-- Everything the server does not decide. -/
structure Env where
  backupPath : BackupPath
  uuid4 : Nat → Uid
  randomBytes : Nat → Nat → Bytes
  randomBytes_length : ∀ t n, (randomBytes t n).length = n
  now : Nat → Str
  queryFails : Nat → Bool
  diskFault : Nat → Option DiskFault

/-- No statement and no call on a path fails for outside reasons. -/
structure Env.Reliable (env : Env) : Prop where
  query : ∀ t, env.queryFails t = false
  disk : ∀ t, env.diskFault t = none

/-- What a handler can do besides computing. -/
inductive Op where
  | query (q : Query)
  | mkdir (p : PurePath)
  | writeFile (p : PurePath) (content : Bytes)
  | readFile (p : PurePath)
  | remove (p : PurePath)
  | uuid4
  | randomBytes (n : Nat)
  | now

abbrev Op.Reply : Op → Type
  | .query q => q.Reply
  | .mkdir _ => Unit
  | .writeFile _ _ => Unit
  | .readFile _ => Bytes
  | .remove _ => Unit
  | .uuid4 => Uid
  | .randomBytes _ => Bytes
  | .now => Str

/-- The operations of the server. -/
abbrev sig : Signature := ⟨Op, Op.Reply⟩

/-! ## Meaning of the operations -/

/-- Python raises `ValueError` for a NUL in a path and an `OSError` for
everything the system reports. -/
def pathExn : PathError → Exn
  | .embeddedNul => .valueError
  | .os => .osError

/-- One statement, inside its critical section. -/
def Query.exec : (q : Query) → World → Except Exn q.Reply × World
  | .selectClient field uid, w =>
    (.ok ((w.clients.find? (·.uuid = uid)).map (·.get field)), w)
  | .selectUuid userName, w =>
    (.ok ((w.clients.find? (·.userName = userName)).map (·.uuid)), w)
  | .insertClient row, w =>
    match w.clients.insert? row with
    | some clients => (.ok 1, { w with clients := clients })
    | none => (.error .sqliteError, w)  -- IntegrityError: the uuid is taken
  | .insertFile row, w =>
    (.ok (if (w.files.insert? row).isSome then 1 else 0),
      { w with files := w.files.insertOrIgnore row })
  | .update (.client field data) uid, w =>
    (.ok (w.clients.count (·.uuid = uid)),
      { w with clients := w.clients.update (·.uuid = uid) (·.set field data) (by simp) })
  | .update (.verified data) uid, w =>
    (.ok (w.files.count (·.uuid = uid)),
      { w with
        files := w.files.update (·.uuid = uid) ({ · with verified := data }) fun _ => rfl })
  | .updateNamed (.client _ _) _ _, w =>
    (.error .sqliteError, w)  -- OperationalError: clients has no column file_name
  | .updateNamed (.verified data) uid fileName, w =>
    let p := fun r : FileRow => decide (r.uuid = uid ∧ r.fileName = fileName)
    (.ok (w.files.count p),
      { w with files := w.files.update p ({ · with verified := data }) fun _ => rfl })
  | .deleteUnverified uid fileName, w =>
    let p := fun r : FileRow =>
      decide (r.verified = 0 ∧ r.uuid = uid ∧ r.fileName = fileName)
    (.ok (w.files.count p), { w with files := w.files.delete p })

/-- Turn the outcome of a call on a path into a reply. -/
def diskReply {α : Type} (w : World) : Except PathError (α × Disk) → Except Raised α × World
  | .ok (a, d) => (.ok a, { w with disk := d })
  | .error e => (.error (.exception (pathExn e)), w)

/-- One operation: a tick passes, then it fails from outside or takes effect. -/
def exec (env : Env) : Handler sig Raised World
  | .query q, w =>
    let w' := { w with tick := w.tick + 1 }
    if env.queryFails w.tick then (.error (.exception .sqliteError), w')
    else ((q.exec w').1.mapError Raised.exception, (q.exec w').2)
  | .mkdir p, w =>
    let w' := { w with tick := w.tick + 1 }
    match env.diskFault w.tick with
    | some _ => (.error (.exception .osError), w')
    | none =>
      ((w.disk.mkdirs p).1.mapError fun e => .exception (pathExn e),
        { w' with disk := (w.disk.mkdirs p).2 })
  | .writeFile p content, w =>
    let w' := { w with tick := w.tick + 1 }
    match env.diskFault w.tick with
    | some .refused => (.error (.exception .osError), w')
    | some (.partialWrite n) =>
      (.error (.exception .osError),
        (diskReply w' ((w.disk.write p (content.take n)).map ((), ·))).2)
    | none => diskReply w' ((w.disk.write p content).map ((), ·))
  | .readFile p, w =>
    let w' := { w with tick := w.tick + 1 }
    match env.diskFault w.tick with
    | some _ => (.error (.exception .osError), w')
    | none => diskReply w' ((w.disk.read p).map (·, w.disk))
  | .remove p, w =>
    let w' := { w with tick := w.tick + 1 }
    match env.diskFault w.tick with
    | some _ => (.error (.exception .osError), w')
    | none => diskReply w' ((w.disk.remove p).map ((), ·))
  | .uuid4, w => (.ok (env.uuid4 w.tick), { w with tick := w.tick + 1 })
  | .randomBytes n, w => (.ok (env.randomBytes w.tick n), { w with tick := w.tick + 1 })
  | .now, w => (.ok (env.now w.tick), { w with tick := w.tick + 1 })

/-! ## The handlers' language -/

/-- Python code of the server. -/
abbrev Py := Program sig Raised

/-- `path.mkdir(parents=True, exist_ok=True)`. -/
def mkdir (path : PurePath) : Py Unit := Program.op (S := sig) (.mkdir path)

/-- `with open(path, 'wb') as file: file.write(content)`. -/
def writeFile (path : PurePath) (content : Bytes) : Py Unit :=
  Program.op (S := sig) (.writeFile path content)

/-- `open(path, 'rb').read()`. -/
def readFile (path : PurePath) : Py Bytes := Program.op (S := sig) (.readFile path)

/-- `os.remove(path)`. -/
def remove (path : PurePath) : Py Unit := Program.op (S := sig) (.remove path)

/-- `uuid.uuid4()`. -/
def uuid4 : Py Uid := Program.op (S := sig) .uuid4

/-- `raise e`. -/
def raise {α : Type} (e : Exn) : Py α := throw (.exception e)

/-- `try: body except Exception as e: handler(e)`. -/
def tryExcept {α : Type} (body : Py α) (handler : Exn → Py α) : Py α :=
  tryCatch body fun
    | .exception e => handler e
    | .systemExit => throw .systemExit

/-- A pure step that may raise. -/
def ofExcept {α : Type} : Except Exn α → Py α
  | .ok a => pure a
  | .error e => raise e

end FileTransfer.Server
