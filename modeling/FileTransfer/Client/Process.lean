import FileTransfer.Lib.Program
import FileTransfer.Client.ConnectionHandler
import FileTransfer.Client.RequestHandler

/-!
# A client process

The members of the `Client` object and of the handlers it owns, the folder it
runs in, and the operations its code is made of: looking at the members,
assigning to them, the two directions of the socket, and files. What was sent
and received is logged, with the folder as it was at that moment; no code reads
the log.
-/

namespace FileTransfer.Client

open FileTransfer.Effect

/-! ## The folder -/

/-- The files of the client, under the names the code opens them by, and whether
the next attempts to open one succeed. Nobody else writes to the folder. -/
structure Folder where
  file : Bytes → Option Bytes
  opens : Nat → Bool

namespace Folder

/-- One attempt to open a file is over. -/
def attempted (folder : Folder) : Folder :=
  { folder with opens := fun n => folder.opens (n + 1) }

/-- `std::ifstream(name)`: the content, if the file is there and opens. -/
def ifstream (folder : Folder) (name : Bytes) : Option Bytes :=
  if folder.opens 0 then folder.file name else none

/-- `std::ofstream(name) << content`: whether the file opened, and the folder. -/
def ofstream (folder : Folder) (name content : Bytes) : Bool × Folder :=
  if folder.opens 0 then
    (true, { folder.attempted with file := Function.update folder.file name (some content) })
  else (false, folder.attempted)

@[simp] theorem attempted_file (folder : Folder) : folder.attempted.file = folder.file := rfl

end Folder

/-- `"key.priv"`. -/
def keyPriv : Bytes := utf8Encode "key.priv".toList

/-- `"me.info"`. -/
def meInfo : Bytes := utf8Encode "me.info".toList

/-! ## The state of a process -/

/-- The members of the `Client` object. `_connectionHandler` is a part of the
process; of `_rsaKeys` nothing is read after the constructor. -/
structure Members (K : Type) where
  /-- `_filename`, `_encryptionHandler._key` and the path in `_ti` -/
  requestHandler : RequestHandler
  publicKey : Bytes
  userName : Bytes
  privateKey : K
  requestPacket : RequestPacket
  responsePacket : ResponsePacket
  crcValid : Bool
  registeredClient : Bool

/-- What happened to a client process. -/
inductive Event where
  /-- the constructor returned -/
  | started (userName : Bytes) (folder : Folder)
  /-- `sendData` was called on the packet -/
  | sent (packet : RequestPacket) (folder : Folder)
  /-- `receiveData` returned `true` -/
  | received (packet : ResponsePacket) (folder : Folder)
  /-- `signIn` or `registerNewClient` returned -/
  | returned (value : Bool)

structure Process (K : Type) where
  members : Members K
  connection : ConnectionHandler
  folder : Folder
  log : List Event
  running : Bool

namespace Process

variable {K : Type}

/-- The process after `sendData`, which left the connection as given. -/
def sends (s : Process K) (connection : ConnectionHandler) : Process K :=
  { s with
    connection := connection
    log := s.log ++ [.sent s.members.requestPacket s.folder] }

/-- The process after `receiveData` came to an end without a response. -/
def misses (s : Process K) (packet : ResponsePacket) (connection : ConnectionHandler) :
    Process K :=
  { s with
    members := { s.members with responsePacket := packet }
    connection := connection }

/-- The process after `receiveData` brought a response. -/
def receives (s : Process K) (packet : ResponsePacket) (connection : ConnectionHandler) :
    Process K :=
  { s.misses packet connection with log := s.log ++ [.received packet s.folder] }

end Process

/-! ## The operations -/

inductive ClientOp (K : Type) where
  | members
  | assign (members : Members K)
  | sendData
  | receiveData
  | lookup (name : Bytes)
  | ifstream (name : Bytes)
  | ofstream (name content : Bytes)

/-- What an operation gives back. `lookup` is what `std::filesystem::exists` and
the reading of an existing file are made of. -/
abbrev ClientOp.Reply {K : Type} : ClientOp K → Type
  | .members => Members K
  | .assign _ => Unit
  | .sendData => Bool
  | .receiveData => Bool
  | .lookup _ => Option Bytes
  | .ifstream _ => Option Bytes
  | .ofstream _ _ => Bool

def clientOps (K : Type) : Signature where
  Op := ClientOp K
  Reply := ClientOp.Reply

/-- A piece of the client's code. -/
abbrev Cpp (K α : Type) := Program (clientOps K) Fault α

section Exec

variable {K α : Type}

/-- What an operation does to the process. -/
def exec : Handler (clientOps K) Fault (Process K)
  | .members, s => (.ok s.members, s)
  | .assign members, s => (.ok (), { s with members := members })
  | .sendData, s =>
    let result := ConnectionHandler.sendData s.members.requestPacket s.connection
    (result.1, s.sends result.2)
  | .receiveData, s =>
    let result := ConnectionHandler.receiveData s.members.responsePacket s.connection
    (result.1,
      if result.1 = .ok true then s.receives result.2.1 result.2.2
      else s.misses result.2.1 result.2.2)
  | .lookup name, s => (.ok (s.folder.file name), s)
  | .ifstream name, s =>
    (.ok (s.folder.ifstream name), { s with folder := s.folder.attempted })
  | .ofstream name content, s =>
    (.ok (s.folder.ofstream name content).1,
      { s with folder := (s.folder.ofstream name content).2 })

namespace Cpp

def members : Cpp K (Members K) := Program.op (S := clientOps K) .members

def assign (members : Members K) : Cpp K Unit := Program.op (S := clientOps K) (.assign members)

def sendData : Cpp K Bool := Program.op (S := clientOps K) .sendData

def receiveData : Cpp K Bool := Program.op (S := clientOps K) .receiveData

def lookup (name : Bytes) : Cpp K (Option Bytes) := Program.op (S := clientOps K) (.lookup name)

def ifstream (name : Bytes) : Cpp K (Option Bytes) :=
  Program.op (S := clientOps K) (.ifstream name)

def ofstream (name content : Bytes) : Cpp K Bool :=
  Program.op (S := clientOps K) (.ofstream name content)

/-- A function that works on values alone. -/
def lift : Except Fault α → Cpp K α
  | .ok a => .ret a
  | .error e => .throw e

/-- `try { body } catch (const std::exception&) { return otherwise; }`. -/
def catchException (otherwise : α) (body : Cpp K α) : Cpp K α :=
  Program.tryCatch body fun
  | .exception => .ret otherwise
  | e => .throw e

variable (s : Process K)

@[simp] theorem run_members : Program.run exec members s = (.ok s.members, s) :=
  Program.run_op exec _ s

@[simp] theorem run_assign (c : Members K) :
    Program.run exec (assign c) s = (.ok (), { s with members := c }) := Program.run_op exec _ s

@[simp] theorem run_sendData :
    Program.run exec sendData s =
      ((ConnectionHandler.sendData s.members.requestPacket s.connection).1,
        s.sends (ConnectionHandler.sendData s.members.requestPacket s.connection).2) :=
  Program.run_op exec _ s

theorem run_receiveData :
    Program.run exec receiveData s = exec .receiveData s := Program.run_op exec _ s

@[simp] theorem run_lookup (name : Bytes) :
    Program.run exec (lookup name) s = (.ok (s.folder.file name), s) := Program.run_op exec _ s

@[simp] theorem run_ifstream (name : Bytes) :
    Program.run exec (ifstream name) s =
      (.ok (s.folder.ifstream name), { s with folder := s.folder.attempted }) :=
  Program.run_op exec _ s

@[simp] theorem run_ofstream (name content : Bytes) :
    Program.run exec (ofstream name content) s = (.ok (s.folder.ofstream name content).1,
      { s with folder := (s.folder.ofstream name content).2 }) :=
  Program.run_op exec _ s

@[simp] theorem run_lift (x : Except Fault α) : Program.run exec (lift x) s = (x, s) := by
  cases x <;> rfl

/-- Nothing that the body did to the process is rolled back. -/
theorem run_catchException (otherwise : α) (body : Cpp K α) :
    Program.run exec (catchException otherwise body) s =
      (match (Program.run exec body s).1 with
        | .error .exception => .ok otherwise
        | result => result, (Program.run exec body s).2) := by
  simp only [catchException, Program.run_tryCatch]
  generalize Program.run exec body s = result
  rcases result with ⟨(_ | _ | _) | b, s'⟩ <;> rfl

end Cpp

/-! ## The log

No operation reads the log, and each one only adds to it. -/

/-- The process with a longer past. -/
def Process.behind (s : Process K) (past : List Event) : Process K :=
  { s with log := past ++ s.log }

theorem exec_behind (o : ClientOp K) (s : Process K) (past : List Event) :
    exec o (s.behind past) = ((exec o s).1, (exec o s).2.behind past) := by
  cases o with
  | sendData => simp [exec, Process.behind, Process.sends]
  | receiveData =>
    by_cases hok :
        (ConnectionHandler.receiveData s.members.responsePacket s.connection).1 = .ok true
    · simp [exec, Process.behind, Process.receives, Process.misses, hok]
    · simp [exec, Process.behind, Process.misses, hok]
  | _ => rfl

/-- The past of a process changes nothing but its log. -/
theorem run_behind (p : Cpp K α) (s : Process K) (past : List Event) :
    Program.run exec p (s.behind past) =
      ((Program.run exec p s).1, (Program.run exec p s).2.behind past) := by
  have hstep : ∀ (o : ClientOp K) (s t : Process K), True → t = s.behind past →
      True ∧ (exec o s).1 = (exec o t).1 ∧ (exec o t).2 = (exec o s).2.behind past := by
    rintro o s t - rfl
    rw [exec_behind]
    exact ⟨trivial, rfl, rfl⟩
  obtain ⟨hresult, hstate⟩ := Program.run_related
    (R := fun (s t : Process K) => t = s.behind past) hstep (Program.uses_trivial p)
    (s := s) rfl
  exact Prod.ext hresult.symm hstate

/-- What a piece of code adds to the log. -/
def events (p : Cpp K α) (s : Process K) : List Event :=
  (Program.run exec p { s with log := [] }).2.log

theorem log_run (p : Cpp K α) (s : Process K) :
    (Program.run exec p s).2.log = s.log ++ events p s := by
  have hbehind := run_behind p { s with log := [] } s.log
  have hs : Process.behind { s with log := [] } s.log = s := by simp [Process.behind]
  rw [hs] at hbehind
  rw [hbehind]
  rfl

/-- What comes behind a piece of code only adds to its log. -/
theorem log_bind {β : Type} (p : Cpp K α) (f : α → Cpp K β) (s : Process K) :
    (Program.run exec p s).2.log <+: (Program.run exec (p >>= f) s).2.log := by
  rw [Program.run_bind]
  generalize Program.run exec p s = result
  rcases result with ⟨e | a, s'⟩
  · exact List.prefix_refl _
  · exact ⟨_, (log_run (f a) s').symm⟩

end Exec

end FileTransfer.Client
