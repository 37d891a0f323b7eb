import FileTransfer.Server.RequestHandler

/-!
# Running the handlers

One lemma for each building block says what a run of it does, so that the
proofs about handlers never look inside an operation again. A statement costs
a tick whether it succeeds or not.
-/

namespace FileTransfer.Server

open FileTransfer.Effect

/-- The world one operation later, when the operation did nothing else. -/
def World.ticked (w : World) : World := { w with tick := w.tick + 1 }

@[simp] theorem World.ticked_clients (w : World) : w.ticked.clients = w.clients := rfl
@[simp] theorem World.ticked_files (w : World) : w.ticked.files = w.files := rfl
@[simp] theorem World.ticked_disk (w : World) : w.ticked.disk = w.disk := rfl

/-- Run Python code. -/
abbrev Py.run {α : Type} (env : Env) (p : Py α) (w : World) : Except Raised α × World :=
  Program.run (exec env) p w

section Run

variable {α β : Type} (env : Env)

@[simp] theorem run_raise (e : Exn) (w : World) :
    Program.run (exec env) (raise e : Py α) w = (.error (.exception e), w) := rfl

@[simp] theorem run_ofExcept (x : Except Exn α) (w : World) :
    Program.run (exec env) (ofExcept x) w = (x.mapError Raised.exception, w) := by
  cases x <;> rfl

/-- A handler takes over from any `Exception`, in the world it left. -/
@[simp] theorem run_tryExcept (body : Py α) (handler : Exn → Py α) (w : World) :
    Program.run (exec env) (tryExcept body handler) w =
      match Program.run (exec env) body w with
      | (.ok a, w') => (.ok a, w')
      | (.error (.exception e), w') => Program.run (exec env) (handler e) w'
      | (.error .systemExit, w') => (.error .systemExit, w') := by
  rw [tryExcept, Program.tryCatch_eq, Program.run_tryCatch]
  rcases Program.run (exec env) body w with ⟨(e | a), w'⟩
  · cases e <;> rfl
  · rfl

/-- A guarded body that returns did so by itself or through the handler. -/
theorem run_tryExcept_ok {body : Py α} {handler : Exn → Py α} {w w' : World} {a : α}
    (h : Program.run (exec env) (tryExcept body handler) w = (.ok a, w')) :
    Program.run (exec env) body w = (.ok a, w') ∨
      ∃ e w₁, Program.run (exec env) (handler e) w₁ = (.ok a, w') := by
  rw [run_tryExcept] at h
  rcases hbody : Program.run (exec env) body w with ⟨e | b, w₁⟩
  · rw [hbody] at h
    cases e with
    | exception e => exact .inr ⟨e, w₁, h⟩
    | systemExit => cases h
  · rw [hbody] at h
    exact .inl h

/-- A triple for a guarded body: the handler starts, and an exit goes on, where
the body raised. -/
theorem triple_tryExcept {pre exn : World → Prop} {post : α → World → Prop} {body : Py α}
    {handler : Exn → Py α} (hbody : Program.Triple (exec env) pre body post fun _ => exn)
    (hhandler : ∀ e, Program.Triple (exec env) exn (handler e) post fun _ => exn) :
    Program.Triple (exec env) pre (tryExcept body handler) post fun _ => exn := by
  refine hbody.tryCatch fun e => ?_
  cases e with
  | exception e => exact hhandler e
  | systemExit => exact fun _ hw => hw

/-- A statement that fails from outside, or takes effect. -/
theorem run_runThreadQuery (q : Query) (w : World) :
    Program.run (exec env) (runThreadQuery q) w =
      if env.queryFails w.tick then (.error (.exception .sqliteError), w.ticked)
      else ((q.exec w.ticked).1.mapError Raised.exception, (q.exec w.ticked).2) := by
  rw [runThreadQuery, Program.run_op]
  rfl

/-- `get_data` reads the row of the uid, and every failure of it is one
exception. -/
theorem run_getData (field : ClientField) (uid : Uid) (w : World) :
    Program.run (exec env) (getData field uid) w =
      match (if env.queryFails w.tick then none else w.clients.find? (·.uuid = uid)) with
      | some row => (.ok (row.get field), w.ticked)
      | none => (.error (.exception .defensiveDb), w.ticked) := by
  rw [getData, run_tryExcept, Program.run_bind, run_runThreadQuery]
  by_cases hfails : env.queryFails w.tick
  · simp [hfails, dbErrorHandler]
  · simp only [hfails, Bool.false_eq_true, if_false, Query.exec, World.ticked_clients,
      Except.mapError]
    cases w.clients.find? (·.uuid = uid) with
    | none => simp [dbErrorHandler]
    | some row => simp

theorem run_getData_ok {field : ClientField} {uid : Uid} {w w' : World} {v : field.Ty} :
    Program.run (exec env) (getData field uid) w = (.ok v, w') ↔
      env.queryFails w.tick = false ∧
        ∃ row, w.clients.find? (·.uuid = uid) = some row ∧ v = row.get field ∧ w' = w.ticked := by
  rw [run_getData]
  by_cases hfails : env.queryFails w.tick
  · simp [hfails]
  · cases hrow : w.clients.find? (·.uuid = uid) with
    | none => simp [hfails]
    | some row => simp [hfails, eq_comm]

theorem run_getData_world (field : ClientField) (uid : Uid) (w : World) :
    (Program.run (exec env) (getData field uid) w).2 = w.ticked := by
  rw [run_getData]
  split <;> rfl

/-- The content an upload decrypts to under `key`. -/
def decryptedWith (crypto : Crypto) (payload key : Bytes) : Except Exn Bytes := do
  let padded ← aesCbcDecrypt crypto key (payload.drop Constants.contentIndex)
  unpadAes padded

/-- The content an upload decrypts to under the key in the client's row. -/
def decrypted (crypto : Crypto) (row : ClientRow) (payload : Bytes) : Except Exn Bytes :=
  decryptedWith crypto payload row.aesKey

/-- Decryption reads the key and computes. -/
theorem run_decryptFile (crypto : Crypto) (uid : Uid) (payload : Bytes) (w : World) :
    Program.run (exec env) (decryptFile crypto uid payload) w =
      match (if env.queryFails w.tick then none else w.clients.find? (·.uuid = uid)) with
      | none => (.error (.exception .decryptionError), w.ticked)
      | some row =>
        ((decrypted crypto row payload).mapError fun _ => .exception .decryptionError,
          w.ticked) := by
  rw [decryptFile, run_tryExcept, Program.run_bind, run_getData]
  cases (if env.queryFails w.tick then none else w.clients.find? (·.uuid = uid)) with
  | none => rfl
  | some row =>
    simp only [Program.run_bind, run_ofExcept, decrypted, decryptedWith, ClientRow.get]
    cases aesCbcDecrypt crypto row.aesKey (payload.drop Constants.contentIndex) with
    | error e => rfl
    | ok padded =>
      simp only [Except.mapError, bind, Except.bind]
      cases unpadAes padded <;> rfl

theorem run_decryptFile_ok {crypto : Crypto} {uid : Uid} {payload file : Bytes} {w w' : World} :
    Program.run (exec env) (decryptFile crypto uid payload) w = (.ok file, w') ↔
      env.queryFails w.tick = false ∧ ∃ row, w.clients.find? (·.uuid = uid) = some row ∧
        decrypted crypto row payload = .ok file ∧ w' = w.ticked := by
  rw [run_decryptFile]
  by_cases hfails : env.queryFails w.tick
  · simp [hfails]
  · cases hrow : w.clients.find? (·.uuid = uid) with
    | none => simp [hfails]
    | some row =>
      cases hfile : decrypted crypto row payload <;>
        simp [hfails, Except.mapError, hfile, eq_comm]

/-! The calls on paths, the draws and the clock, each at the type it has in the
handlers. -/

@[simp] theorem run_mkdir (p : PurePath) (w : World) :
    Program.run (exec env) (mkdir p) w =
      exec env (.mkdir p) w :=
  Program.run_op _ _ _

@[simp] theorem run_writeFile (p : PurePath) (content : Bytes) (w : World) :
    Program.run (exec env) (writeFile p content) w =
      exec env (.writeFile p content) w :=
  Program.run_op _ _ _

@[simp] theorem run_readFile (p : PurePath) (w : World) :
    Program.run (exec env) (readFile p) w =
      exec env (.readFile p) w :=
  Program.run_op _ _ _

@[simp] theorem run_remove (p : PurePath) (w : World) :
    Program.run (exec env) (remove p) w =
      exec env (.remove p) w :=
  Program.run_op _ _ _

@[simp] theorem run_uuid4 (w : World) :
    Program.run (exec env) uuid4 w =
      (.ok (env.uuid4 w.tick), w.ticked) :=
  Program.run_op _ _ _

@[simp] theorem run_getCurrentTimedate (w : World) :
    Program.run (exec env) getCurrentTimedate w = (.ok (env.now w.tick), w.ticked) :=
  Program.run_op _ _ _

/-- `add_new_file_db`: two statements, the second an `INSERT OR IGNORE`. -/
theorem run_addNewFileDb (uid : Uid) (fileName : Str) (verified : Nat) (w : World) :
    Program.run (exec env) (addNewFileDb env uid fileName verified) w =
      match (if env.queryFails w.tick then none else w.clients.find? (·.uuid = uid)) with
      | none => (.error (.exception .defensiveDb), w.ticked)
      | some row =>
        if env.queryFails (w.tick + 1) then (.error (.exception .defensiveDb), w.ticked.ticked)
        else (.ok (), { w.ticked.ticked with
          files := w.files.insertOrIgnore
            ⟨uid, fileName, (userDir env row.userName).str, verified⟩ }) := by
  simp only [addNewFileDb, run_tryExcept, Program.run_bind, run_getData env .userName]
  cases (if env.queryFails w.tick then none else w.clients.find? (·.uuid = uid)) with
  | none => rfl
  | some row =>
    simp only [run_runThreadQuery env (.insertFile _), World.ticked]
    by_cases hfails : env.queryFails (w.tick + 1)
    · simp [hfails, dbErrorHandler]
    · simp [hfails, Query.exec, Except.mapError, ClientRow.get]

variable {env} {w w' : World}

/-- The public key in a row can be recovered. -/
def ClientRow.Recovers (crypto : Crypto) (row : ClientRow) (key : crypto.RsaKey) : Prop :=
  row.publicKey ≠ publicKeyPlaceholder ∧ crypto.importKey row.publicKey = .ok (some key) ∧
    crypto.hasPrivate key = false

theorem run_recoverPublicKey_ok {crypto : Crypto} {uid : Uid} {key : crypto.RsaKey} :
    Program.run (exec env) (recoverPublicKey crypto uid) w = (.ok key, w') ↔
      env.queryFails w.tick = false ∧ ∃ row, w.clients.find? (·.uuid = uid) = some row ∧
        row.Recovers crypto key ∧ w' = w.ticked := by
  rw [recoverPublicKey, Program.run_bind_ok]
  constructor
  · rintro ⟨publicKey, w₁, hget, h⟩
    obtain ⟨hquery, row, hrow, rfl, rfl⟩ := (run_getData_ok env).mp hget
    split at h
    · cases h
    · next hreal =>
      rw [Program.run_bind, run_ofExcept] at h
      cases himport : crypto.importKey (row.get .publicKey) with
      | error e =>
        rw [himport] at h
        cases h
      | ok found =>
        rw [himport] at h
        cases found with
        | none => cases h
        | some key' =>
          simp only [Except.mapError, recoverPublicKeyExceptions] at h
          split at h
          · cases h
          · next hprivate =>
            cases h
            exact ⟨hquery, row, hrow, ⟨hreal, himport, by simpa using hprivate⟩, rfl⟩
  · rintro ⟨hquery, row, hrow, ⟨hreal, himport, hprivate⟩, rfl⟩
    refine ⟨row.publicKey, w.ticked, (run_getData_ok env).mpr ⟨hquery, row, hrow, rfl, rfl⟩, ?_⟩
    simp [hreal, himport, Except.mapError, recoverPublicKeyExceptions, hprivate]

/-- Recovering a key reads the row and computes. -/
theorem run_recoverPublicKey_world (crypto : Crypto) (uid : Uid) :
    (Program.run (exec env) (recoverPublicKey crypto uid) w).2 = w.ticked := by
  have hget := run_getData_world env .publicKey uid w
  rw [recoverPublicKey, Program.run_bind]
  generalize Program.run (exec env) (getData .publicKey uid) w = result at hget ⊢
  rcases result with ⟨e | publicKey, w₁⟩
  · exact hget
  · obtain rfl : w₁ = w.ticked := hget
    dsimp only
    split
    · rfl
    · rw [Program.run_bind, run_ofExcept]
      cases crypto.importKey publicKey with
      | error e => rfl
      | ok found =>
        cases found with
        | none => rfl
        | some key =>
          simp only [Except.mapError, recoverPublicKeyExceptions]
          split <;> rfl

/-! What has to go well for a file to be saved. -/

theorem run_mkdir_ok {p : PurePath} :
    Program.run (exec env) (mkdir p) w = (.ok (), w') ↔
      env.diskFault w.tick = none ∧
        ∃ d, w.disk.mkdirs p = (.ok (), d) ∧ w' = { w.ticked with disk := d } := by
  rw [run_mkdir]
  simp only [exec]
  cases env.diskFault w.tick with
  | some fault => simp
  | none =>
    rcases w.disk.mkdirs p with ⟨e | u, d⟩
    · simp [Except.mapError]
    · simp [Except.mapError, World.ticked, eq_comm]

theorem run_writeFile_ok {p : PurePath} {content : Bytes} :
    Program.run (exec env) (writeFile p content) w = (.ok (), w') ↔
      env.diskFault w.tick = none ∧
        ∃ d, w.disk.write p content = .ok d ∧ w' = { w.ticked with disk := d } := by
  rw [run_writeFile]
  simp only [exec]
  cases env.diskFault w.tick with
  | some fault => cases fault <;> simp
  | none =>
    cases w.disk.write p content with
    | error e => simp [Except.map, diskReply]
    | ok d => simp [Except.map, diskReply, World.ticked, eq_comm]

theorem run_addNewFileDb_ok {uid : Uid} {fileName : Str} {verified : Nat} :
    Program.run (exec env) (addNewFileDb env uid fileName verified) w = (.ok (), w') ↔
      env.queryFails w.tick = false ∧ env.queryFails (w.tick + 1) = false ∧
        ∃ row, w.clients.find? (·.uuid = uid) = some row ∧ w' = { w.ticked.ticked with
          files := w.files.insertOrIgnore
            ⟨uid, fileName, (userDir env row.userName).str, verified⟩ } := by
  rw [run_addNewFileDb]
  by_cases hfails : env.queryFails w.tick
  · simp [hfails]
  · cases hrow : w.clients.find? (·.uuid = uid) with
    | none => simp [hfails]
    | some row => by_cases hfails' : env.queryFails (w.tick + 1) <;> simp [hfails, hfails', eq_comm]

/-- `save_file` returns when the file is written and its row is offered to the
table. -/
theorem run_saveFile_ok {uid : Uid} {name : Str} {file : Bytes} :
    Program.run (exec env) (saveFile env uid name file) w = (.ok (), w') ↔
      (∀ i ∈ [0, 3, 4], env.queryFails (w.tick + i) = false) ∧
      (∀ i ∈ [1, 2], env.diskFault (w.tick + i) = none) ∧
      ∃ row d d', w.clients.find? (·.uuid = uid) = some row ∧
        w.disk.mkdirs (userDir env row.userName) = (.ok (), d) ∧
        d.write ((userDir env row.userName).join name) file = .ok d' ∧
        w' = { w with
          files := w.files.insertOrIgnore ⟨uid, name, (userDir env row.userName).str, 0⟩
          disk := d'
          tick := w.tick + 5 } := by
  have hbody : Program.run (exec env) (saveFile env uid name file) w = (.ok (), w') ↔
      Program.run (exec env) (do
        let username ← getData .userName uid
        let path := userDir env username
        mkdir path
        writeFile (path.join name) file
        addNewFileDb env uid name 0) w = (.ok (), w') := by
    constructor
    · intro h
      refine (run_tryExcept_ok env h).resolve_right ?_
      rintro ⟨e, w₁, hraise⟩
      cases hraise
    · intro h
      rw [saveFile, run_tryExcept, h]
  rw [hbody]
  constructor
  · intro h
    obtain ⟨user, w₁, hget, h⟩ := (Program.run_bind_ok _).mp h
    obtain ⟨⟨⟩, w₂, hmkdir, h⟩ := (Program.run_bind_ok _).mp h
    obtain ⟨⟨⟩, w₃, hwrite, hadd⟩ := (Program.run_bind_ok _).mp h
    obtain ⟨hquery, row, hrow, rfl, rfl⟩ := (run_getData_ok env).mp hget
    obtain ⟨hfault, d, hd, rfl⟩ := run_mkdir_ok.mp hmkdir
    obtain ⟨hfault', d', hd', rfl⟩ := run_writeFile_ok.mp hwrite
    obtain ⟨hquery', hquery'', row', hrow', rfl⟩ := run_addNewFileDb_ok.mp hadd
    obtain rfl : row' = row := Option.some.inj (hrow'.symm.trans hrow)
    exact ⟨by simpa using ⟨hquery, hquery', hquery''⟩, by simpa using ⟨hfault, hfault'⟩,
      row', d, d', hrow, hd, hd', rfl⟩
  · rintro ⟨hquery, hfault, row, d, d', hrow, hd, hd', rfl⟩
    refine (Program.run_bind_ok _).mpr ⟨row.userName, w.ticked,
      (run_getData_ok env).mpr ⟨hquery 0 (by simp), row, hrow, rfl, rfl⟩, ?_⟩
    refine (Program.run_bind_ok _).mpr ⟨(), { w.ticked.ticked with disk := d },
      run_mkdir_ok.mpr ⟨hfault 1 (by simp), d, hd, rfl⟩, ?_⟩
    refine (Program.run_bind_ok _).mpr ⟨(), { w.ticked.ticked.ticked with disk := d' },
      run_writeFile_ok.mpr ⟨hfault 2 (by simp), d', hd', rfl⟩, ?_⟩
    exact run_addNewFileDb_ok.mpr ⟨hquery 3 (by simp), hquery 4 (by simp), row, hrow, rfl⟩

end Run

/-! What the answer to an upload reads changes nothing. -/

section Read

variable {env : Env} {w : World}

theorem run_readfile_world (path : PurePath) :
    (Program.run (exec env) (readfile path) w).2 = w.ticked := by
  have hread : (exec env (.readFile path) w).2 = w.ticked := by
    simp only [exec]
    split
    · rfl
    · cases w.disk.read path <;> rfl
  rw [readfile, run_tryExcept, Program.run_bind, run_readFile]
  generalize exec env (.readFile path) w = result at hread ⊢
  rcases result with ⟨e | buffer, w₁⟩
  · cases e <;> exact hread
  · cases hcrc : memcrc buffer <;> simpa [hcrc] using hread

theorem run_buildDecryptedFilePayload_world (uid : Uid) (name : Str) (payload : Bytes) :
    ∃ t, (Program.run (exec env) (buildDecryptedFilePayload env uid name payload) w).2 =
      { w with tick := t } := by
  rw [buildDecryptedFilePayload, Program.run_bind, run_getData env .userName]
  cases (if env.queryFails w.tick then none else w.clients.find? (·.uuid = uid)) with
  | none => exact ⟨_, rfl⟩
  | some row =>
    have hread := @run_readfile_world env w.ticked ((userDir env (row.get .userName)).join name)
    simp only [Program.run_bind]
    generalize Program.run (exec env)
      (readfile ((userDir env (row.get .userName)).join name)) w.ticked = result at hread ⊢
    rcases result with ⟨e | crc, w₁⟩
    · exact ⟨_, hread⟩
    · obtain rfl : w₁ = w.ticked.ticked := hread
      simp only [run_ofExcept]
      cases packCrc crc <;> exact ⟨_, rfl⟩

end Read

/-! ## Selection -/

/-- What `req_select` passes to a handler besides the uid and the payload. -/
def handlerArg (header : Header) : Nat :=
  if header.code = Constants.exitCrc ∨ header.code = Constants.validCrc then header.code
  else header.version

theorem reqSelect_respond {env : Env} {crypto : Crypto} {header : Header} {payload : Bytes}
    {handler : Uid → Nat → Bytes → Py Bytes} (hversion : header.version = Constants.version)
    (hmap : responseMap env crypto header.code = some (respond handler)) :
    reqSelect env crypto header payload =
      respond handler header.uid (handlerArg header) payload := by
  simp only [reqSelect, hversion, ne_eq, not_true_eq_false, if_false, hmap, handlerArg]

/-! ## Concrete runs -/

/-- The uid that repeats one byte. -/
def Uid.ofNat (n : Nat) : Uid := ⟨List.replicate 16 (UInt8.ofNat n), rfl⟩

/-- An environment in which nothing fails, the backup path is `/b`, random bytes
are zeros and uids come from `draw`. -/
def Env.calm (draw : Nat → Uid) : Env where
  backupPath := ⟨⟨['/'], [['b']]⟩, rfl, by decide⟩
  uuid4 := draw
  randomBytes _ n := List.replicate n 0
  randomBytes_length _ n := List.length_replicate
  now _ := []
  queryFails _ := false
  diskFault _ := none

theorem Env.calm_reliable (draw : Nat → Uid) : (Env.calm draw).Reliable :=
  ⟨fun _ => rfl, fun _ => rfl⟩

/-- The padded plaintext `v1`. -/
def plainBlock : Bytes := [0x76, 0x31] ++ List.replicate 14 14

/-- Its AES-256 encryption under the key of zeros. -/
def cipherBlock : Bytes :=
  [0x44, 0x7f, 0xda, 0xe5, 0x7e, 0xa7, 0x1a, 0x9d, 0xa1, 0x6d, 0x0e, 0xff, 0x26, 0xa3, 0x9a, 0xf9]

/-- A permutation of blocks that is AES under that key on these two. -/
def swapBlock (b : Bytes) : Bytes :=
  if b = plainBlock then cipherBlock else if b = cipherBlock then plainBlock else b

/-- Algorithms for concrete runs: every key imports, OAEP puts the seed before
the message, and AES is `swapBlock`. -/
def toyCrypto : Crypto where
  RsaKey := Unit
  importKey _ := .ok (some ())
  hasPrivate _ := false
  oaepEncrypt _ seed message := .ok (seed ++ message)
  aesDecryptBlock _ := swapBlock

end FileTransfer.Server
