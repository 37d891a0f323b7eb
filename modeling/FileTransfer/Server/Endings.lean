import FileTransfer.Server.FilesTable

/-!
# How the handlers end

A handler ends in one of three ways: it returns a frame, an `Exception` leaves
it, or the thread exits. Each handler is shown to return a well-formed frame,
whatever its operations reply. The only way around it is `readfile`, which
exits when the file just saved cannot be read back.
-/

namespace FileTransfer.Server

open FileTransfer.Effect

/-! ## Frames -/

/-- A 7-byte header, and behind it as many bytes as its size field says. -/
def WellFormed (response : Bytes) : Prop :=
  7 ≤ response.length ∧ fromLE (slice response 3 7) = response.length - 7

instance (response : Bytes) : Decidable (WellFormed response) :=
  inferInstanceAs (Decidable (_ ∧ _))

theorem wellFormed_errorResponse : WellFormed errorResponse := by decide

theorem WellFormed.ne_nil {response : Bytes} (h : WellFormed response) : response ≠ [] := by
  rintro rfl
  exact absurd h.1 (by decide)

/-- What `init_response` packs with the length of its payload. -/
theorem wellFormed_initResponse {version code : Nat} {payload response : Bytes}
    (h : initResponse version code payload.length payload = .ok response) :
    WellFormed response := by
  simp only [initResponse, packHeader] at h
  split at h
  · cases h
  · next header hheader =>
    split at hheader
    · next hfits =>
      cases hheader
      cases h
      have hslice : slice (toLE 1 version ++ toLE 2 code ++ toLE 4 payload.length ++ payload) 3 7 =
          toLE 4 payload.length := slice_append (by simp) (by simp)
      refine ⟨?_, ?_⟩
      · simp only [List.length_append, length_toLE]
        omega
      · rw [hslice, fromLE_toLE (by simpa using hfits.2.2)]
        simp only [List.length_append, length_toLE]
        omega
    · cases hheader

/-! ## Nothing exits the thread -/

/-- No operation exits the thread. -/
def NoExit (o : Op) (r : Except Raised o.Reply) : Prop := r ≠ .error .systemExit

theorem noExit_exec (env : Env) (o : Op) (w : World) : NoExit o (exec env o w).1 := by
  have hdisk : ∀ {α : Type} {r : Except PathError (α × Disk)} {w : World},
      (diskReply w r).1 ≠ .error .systemExit := by
    intro α r w
    cases r <;> simp [diskReply]
  unfold NoExit
  cases o with
  | query q =>
    simp only [exec]
    split
    · simp
    · cases (q.exec { w with tick := w.tick + 1 }).1 <;> simp [Except.mapError]
  | mkdir p =>
    simp only [exec]
    split
    · simp
    · cases (w.disk.mkdirs p).1 <;> simp [Except.mapError]
  | writeFile p content =>
    simp only [exec]
    split
    · simp
    · simp
    · exact hdisk
  | readFile p =>
    simp only [exec]
    split
    · simp
    · exact hdisk
  | remove p =>
    simp only [exec]
    split
    · simp
    · exact hdisk
  | _ => simp [exec]

/-- `p` returns values that satisfy `post` and may raise any `Exception`, but
does not exit the thread. -/
abbrev Stays {α : Type} (p : Py α) (post : α → Prop) : Prop :=
  p.Ends NoExit post (· ≠ .systemExit)

/-- `p` returns a value that satisfies `post`. -/
abbrev Returns {α : Type} (p : Py α) (post : α → Prop) : Prop :=
  p.Ends NoExit post fun _ => False

section Stays

variable {α : Type} {post : α → Prop}

theorem stays_op (o : Op) : Stays (Program.op (S := sig) o) fun _ => True :=
  Program.ends_op fun _ he heq => he (congrArg Except.error heq)

theorem stays_raise (e : Exn) : Stays (raise e : Py α) post := by
  intro h
  cases h

theorem stays_ofExcept (x : Except Exn α) : Stays (ofExcept x) fun _ => True := by
  cases x with
  | ok a => trivial
  | error e => exact stays_raise e

theorem stays_initResponse (version code : Nat) (payload : Bytes) :
    Stays (ofExcept (initResponse version code payload.length payload)) WellFormed := by
  cases h : initResponse version code payload.length payload with
  | ok response => exact wellFormed_initResponse h
  | error e => exact stays_raise e

theorem stays_tryExcept {body : Py α} {handler : Exn → Py α} (hbody : Stays body post)
    (hhandler : ∀ e, Stays (handler e) post) : Stays (tryExcept body handler) post := by
  refine hbody.tryCatch fun e he => ?_
  cases e with
  | exception e => exact hhandler e
  | systemExit => exact absurd rfl he

/-- A handler that always returns makes the whole return. -/
theorem returns_tryExcept {body : Py α} {handler : Exn → Py α} (hbody : Stays body post)
    (hhandler : ∀ e, Returns (handler e) post) : Returns (tryExcept body handler) post := by
  refine hbody.tryCatch fun e he => ?_
  cases e with
  | exception e => exact hhandler e
  | systemExit => exact absurd rfl he

/-! The helpers of `DefensiveDB.py`. -/

theorem stays_getData (field : ClientField) (uid : Uid) :
    Stays (getData field uid) fun _ => True := by
  refine stays_tryExcept ((stays_op (.query (.selectClient field uid))).bind fun r _ => ?_)
    fun _ => stays_raise _
  cases r with
  | none => exact stays_raise _
  | some v => trivial

theorem stays_updateEntry (entry : Entry) (uid : Uid) (file : Bool) (filename : Str) :
    Stays (updateEntry entry uid file filename) fun _ => True := by
  refine stays_tryExcept ?_ fun _ => stays_raise _
  -- whichever form the UPDATE has, the time is noted behind it
  have hseen : Stays (do
      let now ← getCurrentTimedate
      let _ ← runThreadQuery (.update (.client .lastSeen now) uid)) fun _ => True := by
    refine (stays_op .now).bind fun now _ => ?_
    exact (stays_op (.query (.update (.client .lastSeen now) uid))).bind fun _ _ => trivial
  dsimp only
  by_cases hnamed : file = true ∧ filename ≠ []
  · rw [if_pos hnamed]
    refine (stays_op (.query (.updateNamed entry uid filename))).bind fun _ _ => ?_
    cases entry with
    | client field data => exact hseen
    | verified data => trivial
  · rw [if_neg hnamed]
    refine (stays_op (.query (.update entry uid))).bind fun _ _ => ?_
    cases entry with
    | client field data => exact hseen
    | verified data => trivial

theorem stays_addNewFileDb (env : Env) (uid : Uid) (name : Str) (verified : Nat) :
    Stays (addNewFileDb env uid name verified) fun _ => True := by
  refine stays_tryExcept ((stays_getData .userName uid).bind fun user _ => ?_)
    fun _ => stays_raise _
  exact (stays_op (.query (.insertFile ⟨uid, name, (userDir env user).str, verified⟩))).bind
    fun _ _ => trivial

theorem stays_findUsername (name : Str) : Stays (findUsername name) fun _ => True := by
  refine (stays_op (.query (.selectUuid name))).bind fun r _ => ?_
  cases r <;> trivial

theorem stays_addNewClientToDb (name : Str) : Stays (addNewClientToDb name) fun _ => True := by
  refine (stays_op .uuid4).bind fun uid _ => ?_
  have hadd : Stays (addNewClientDb uid name) fun _ => True := by
    refine stays_tryExcept ((stays_op .now).bind fun now _ => ?_) fun _ => stays_raise _
    exact (stays_op (.query (.insertClient
      ⟨uid, name, publicKeyPlaceholder, now, aesKeyPlaceholder⟩))).bind fun _ _ => trivial
  exact hadd.bind fun _ _ => trivial

/-! The helpers of the handlers. -/

variable {env : Env} (crypto : Crypto)

theorem stays_generateAesKey (uid : Uid) : Stays (generateAesKey crypto uid) fun _ => True := by
  have hrecover : Stays (recoverPublicKey crypto uid) fun _ => True := by
    refine (stays_getData .publicKey uid).bind fun key _ => ?_
    split
    · exact stays_raise _
    · refine (stays_ofExcept _).bind fun rsaKey _ => ?_
      cases rsaKey with
      | none => exact stays_raise _
      | some k =>
        simp only [recoverPublicKeyExceptions]
        split
        · exact stays_raise _
        · trivial
  refine hrecover.bind fun rsaKey _ => ?_
  refine (stays_op (.randomBytes Constants.aesKeySize)).bind fun aesKey _ => ?_
  refine (stays_updateEntry (.client .aesKey aesKey) uid false []).bind fun _ _ => ?_
  exact (stays_op (.randomBytes 20)).bind fun seed _ => stays_ofExcept _

theorem stays_setPublicKey (uid : Uid) (payload : Bytes) :
    Stays (setPublicKey uid payload) fun _ => True := by
  have hvalid : Stays (validatePublicKeyPayload payload) fun _ => True := by
    simp only [validatePublicKeyPayload]
    split
    · exact stays_raise _
    · split
      · exact stays_raise _
      · trivial
  exact hvalid.bind fun _ _ => stays_updateEntry _ _ _ _

theorem stays_removePipePadding (payload : Bytes) (start stop : Nat) :
    Stays (removePipePadding payload start stop) fun _ => True := by
  simp only [removePipePadding]
  cases utf8Decode (slice payload start stop) with
  | none => exact stays_raise _
  | some name => trivial

theorem stays_decryptFile (uid : Uid) (payload : Bytes) :
    Stays (decryptFile crypto uid payload) fun _ => True := by
  refine stays_tryExcept ((stays_getData .aesKey uid).bind fun key _ => ?_) fun _ => stays_raise _
  refine (stays_ofExcept _).bind fun _ _ => ?_
  exact stays_ofExcept _

theorem stays_saveFile (uid : Uid) (name : Str) (file : Bytes) :
    Stays (saveFile env uid name file) fun _ => True := by
  refine stays_tryExcept ((stays_getData .userName uid).bind fun user _ => ?_)
    fun _ => stays_raise _
  refine (stays_op (.mkdir (userDir env user))).bind fun _ _ => ?_
  refine (stays_op (.writeFile ((userDir env user).join name) file)).bind fun _ _ => ?_
  exact stays_addNewFileDb env uid name 0

theorem stays_deleteFromBackup (uid : Uid) (name : Str) :
    Stays (deleteFromBackup env uid name) fun _ => True := by
  refine stays_tryExcept ((stays_getData .userName uid).bind fun user _ => ?_) fun _ => trivial
  exact (stays_op (.remove ((userDir env user).join name))).bind fun _ _ => trivial

theorem stays_deleteUnverified (uid : Uid) (name : Str) :
    Stays (deleteUnverified uid name) fun _ => True :=
  stays_tryExcept ((stays_op (.query (.deleteUnverified uid name))).bind fun _ _ => trivial)
    fun _ => stays_raise _

/-! The handlers that always return. -/

theorem returns_registerNewClient (uid : Uid) (version : Nat) (payload : Bytes) :
    Returns (registerNewClient uid version payload) WellFormed := by
  refine returns_tryExcept ?_ fun _ => wellFormed_errorResponse
  split
  · exact stays_raise _
  · next name _ =>
    refine (stays_findUsername name).bind fun found _ => ?_
    obtain ⟨clientId, code⟩ := found
    dsimp only
    split
    · exact stays_initResponse _ _ _
    · exact (stays_addNewClientToDb name).bind fun uid _ => stays_initResponse _ _ _

theorem returns_handlePublicKey (uid : Uid) (version : Nat) (payload : Bytes) :
    Returns (handlePublicKey crypto uid version payload) WellFormed := by
  refine returns_tryExcept ?_ fun _ => wellFormed_errorResponse
  refine (stays_setPublicKey uid payload).bind fun _ _ => ?_
  exact (stays_generateAesKey crypto uid).bind fun aes _ => stays_initResponse _ _ _

/-- The denial always fits its header. -/
theorem returns_handleSignInReqeust (uid : Uid) (version : Nat) (payload : Bytes) :
    Returns (handleSignInReqeust crypto uid version payload) WellFormed := by
  refine returns_tryExcept ?_ fun _ => ?_
  · exact (stays_generateAesKey crypto uid).bind fun aes _ => stays_initResponse _ _ _
  · have hfits : initResponse Constants.version Constants.recconetDenied uid.bytes.length
        uid.bytes = .ok (uidResponse Constants.recconetDenied uid) :=
      initResponse_uid (by decide) uid
    rw [hfits]
    exact wellFormed_initResponse hfits

theorem returns_validOrAbort (uid : Uid) (code : Nat) (payload : Bytes) :
    Returns (validOrAbort env uid code payload) WellFormed := by
  refine returns_tryExcept ?_ fun _ => wellFormed_errorResponse
  refine (stays_removePipePadding payload 0 Constants.fileNameSize).bind fun name _ => ?_
  split
  · exact (stays_updateEntry _ _ _ _).bind fun _ _ => stays_initResponse _ _ _
  · split
    · refine (stays_deleteFromBackup uid name).bind fun _ _ => ?_
      exact (stays_deleteUnverified uid name).bind fun _ _ => stays_initResponse _ _ _
    · exact stays_initResponse _ _ _

/-- An upload returns a frame, or the thread exits. -/
theorem ends_handleEncryptedFile (uid : Uid) (version : Nat) (payload : Bytes) :
    (handleEncryptedFile env crypto uid version payload).Ends NoExit WellFormed
      (· = .systemExit) := by
  have hbody : Program.Ends NoExit WellFormed (fun _ => True) (do
      let name ← removePipePadding payload Constants.nameIndex Constants.contentIndex
      let decryptedFile ← decryptFile crypto uid payload
      saveFile env uid name decryptedFile
      let pay ← buildDecryptedFilePayload env uid name payload
      ofExcept (initResponse Constants.version Constants.validFileCrc pay.length pay) :
        Py Bytes) := by
    refine (Program.ends_trivial _).bind fun name _ => ?_
    refine (Program.ends_trivial _).bind fun file _ => ?_
    refine (Program.ends_trivial _).bind fun _ _ => ?_
    refine (Program.ends_trivial _).bind fun pay _ => ?_
    cases h : initResponse Constants.version Constants.validFileCrc pay.length pay with
    | ok response => exact wellFormed_initResponse h
    | error e => trivial
  refine hbody.tryCatch fun e _ => ?_
  cases e with
  | exception e => exact wellFormed_errorResponse
  | systemExit => rfl

end Stays

/-! ## When the thread exits -/

/-- Running `p` exits the thread. -/
def Exits {α : Type} (env : Env) (p : Py α) (w : World) : Prop :=
  (Program.run (exec env) p w).1 = .error .systemExit

section Exits

variable {α β : Type} {env : Env} {w : World}

theorem Stays.not_exits {p : Py α} {post : α → Prop} (h : Stays p post) : ¬ Exits env p w := by
  intro hexit
  have hend := Program.run_ends (noExit_exec env) h w
  rw [Exits] at hexit
  rw [hexit] at hend
  exact hend rfl

theorem exits_bind {p : Py α} {f : α → Py β} :
    Exits env (p >>= f) w ↔ Exits env p w ∨
      ∃ a w₁, Program.run (exec env) p w = (.ok a, w₁) ∧ Exits env (f a) w₁ := by
  rw [Exits, Exits, Program.run_bind]
  rcases Program.run (exec env) p w with ⟨e | a, w₁⟩
  · simp
  · simp [Exits]

theorem exits_tryExcept {body : Py α} {handler : Exn → Py α}
    (hhandler : ∀ e w, ¬ Exits env (handler e) w) :
    Exits env (tryExcept body handler) w ↔ Exits env body w := by
  rw [Exits, Exits, run_tryExcept]
  rcases Program.run (exec env) body w with ⟨e | a, w₁⟩
  · cases e with
    | exception e => simpa [Exits] using hhandler e w₁
    | systemExit => simp
  · simp

/-- `readfile` exits when the file cannot be read; the CRC itself always works. -/
theorem exits_readfile {path : PurePath} :
    Exits env (readfile path) w ↔
      env.diskFault w.tick ≠ none ∨ ∀ buffer, w.disk.read path ≠ .ok buffer := by
  rw [Exits, readfile, run_tryExcept, Program.run_bind, run_readFile]
  simp only [exec]
  cases env.diskFault w.tick with
  | some fault => simp
  | none =>
    cases w.disk.read path with
    | error e => simp [Except.map, diskReply]
    | ok buffer =>
      obtain ⟨crc, hcrc, -⟩ := memcrc_some buffer
      simp [Except.map, diskReply, hcrc]

variable {crypto : Crypto} {uid : Uid} {name : Str} {payload : Bytes}

/-- The answer to an upload is built unless the file cannot be read. -/
theorem exits_buildDecryptedFilePayload :
    Exits env (buildDecryptedFilePayload env uid name payload) w ↔
      env.queryFails w.tick = false ∧ ∃ row, w.clients.find? (·.uuid = uid) = some row ∧
        (env.diskFault (w.tick + 1) ≠ none ∨
          ∀ buffer, w.disk.read ((userDir env row.userName).join name) ≠ .ok buffer) := by
  have hpack : ∀ (crc : Nat) (contentSize : Bytes), Stays (do
      let crcBytes ← ofExcept (packCrc crc)
      pure (uid.bytes ++ contentSize ++ utf8Encode name ++ crcBytes) : Py Bytes) fun _ => True :=
    fun crc contentSize => (stays_ofExcept (packCrc crc)).bind fun _ _ => trivial
  constructor
  · intro h
    obtain ⟨user, w₁, hget, h⟩ := (exits_bind.mp h).resolve_left (stays_getData _ _).not_exits
    obtain ⟨hquery, row, hrow, rfl, rfl⟩ := (run_getData_ok env).mp hget
    have hread := (exits_bind.mp h).resolve_right
      fun ⟨crc, w₂, _, h⟩ => (hpack crc (payload.take Constants.uint32T)).not_exits h
    exact ⟨hquery, row, hrow, exits_readfile.mp hread⟩
  · rintro ⟨hquery, row, hrow, hread⟩
    refine exits_bind.mpr (.inr ⟨row.userName, w.ticked, ?_, ?_⟩)
    · exact (run_getData_ok env).mpr ⟨hquery, row, hrow, rfl, rfl⟩
    · exact exits_bind.mpr (.inl (exits_readfile.mpr hread))

/-- An upload that gets as far as saving its file, which then cannot be read
back. -/
def ReadBackFails (env : Env) (crypto : Crypto) (uid : Uid) (payload : Bytes) (w : World) : Prop :=
  (∀ i ∈ [0, 1, 4, 5, 6], env.queryFails (w.tick + i) = false) ∧
  (∀ i ∈ [2, 3], env.diskFault (w.tick + i) = none) ∧ env.diskFault (w.tick + 7) ≠ none ∧
  ∃ name row file d d', uploadName payload = some name ∧
    w.clients.find? (·.uuid = uid) = some row ∧ decrypted crypto row payload = .ok file ∧
    w.disk.mkdirs (userDir env row.userName) = (.ok (), d) ∧
    d.write ((userDir env row.userName).join name) file = .ok d'

/-- That is when an upload exits the thread. -/
theorem exits_handleEncryptedFile {version : Nat} :
    Exits env (handleEncryptedFile env crypto uid version payload) w ↔
      ReadBackFails env crypto uid payload w := by
  refine (exits_tryExcept fun _ w => ?_).trans ?_
  · simp [Exits]
  have hpack : ∀ pay, Stays (ofExcept
      (initResponse Constants.version Constants.validFileCrc pay.length pay)) fun _ => True :=
    fun pay => stays_ofExcept _
  constructor
  · intro h
    obtain ⟨name, w₁, hparse, hrest⟩ :=
      (exits_bind.mp h).resolve_left (stays_removePipePadding _ _ _).not_exits
    obtain ⟨hname, rfl⟩ := run_removePipePadding_ok.mp hparse
    obtain ⟨file, w₂, hdecrypt, hrest⟩ :=
      (exits_bind.mp hrest).resolve_left (stays_decryptFile _ _ _).not_exits
    obtain ⟨hquery, row, hrow, hfile, rfl⟩ := (run_decryptFile_ok env).mp hdecrypt
    obtain ⟨⟨⟩, w₃, hsave, hrest⟩ :=
      (exits_bind.mp hrest).resolve_left (stays_saveFile _ _ _).not_exits
    have hbuild := (exits_bind.mp hrest).resolve_right
      fun ⟨pay, w₄, _, h⟩ => (hpack pay).not_exits h
    obtain ⟨hqueries, hfaults, row', d, d', hrow', hd, hd', rfl⟩ := run_saveFile_ok.mp hsave
    obtain rfl : row' = row := Option.some.inj (hrow'.symm.trans hrow)
    obtain ⟨hquery', row'', hrow'', hread⟩ := exits_buildDecryptedFilePayload.mp hbuild
    obtain rfl : row'' = row' := Option.some.inj (hrow''.symm.trans hrow)
    -- what was just written is there, so only a fault keeps it from being read
    have hfault : env.diskFault (w₁.tick + 7) ≠ none :=
      hread.resolve_right fun hall => hall file (Disk.read_of_write hd')
    refine ⟨?_, ?_, hfault, name, row'', file, d, d', hname, hrow, hfile, hd, hd'⟩
    · have hzero := hqueries 0 (by simp)
      have hthree := hqueries 3 (by simp)
      have hfour := hqueries 4 (by simp)
      simp only [List.forall_mem_cons, List.not_mem_nil, false_implies, implies_true, and_true]
      exact ⟨hquery, hzero, hthree, hfour, hquery'⟩
    · simp only [List.forall_mem_cons, List.not_mem_nil, false_implies, implies_true, and_true]
      exact ⟨hfaults 1 (by simp), hfaults 2 (by simp)⟩
  · rintro ⟨hqueries, hfaults, hfault, name, row, file, d, d', hname, hrow, hfile, hd, hd'⟩
    refine exits_bind.mpr (.inr ⟨name, w, run_removePipePadding_ok.mpr ⟨hname, rfl⟩, ?_⟩)
    refine exits_bind.mpr (.inr ⟨file, w.ticked, (run_decryptFile_ok env).mpr
      ⟨hqueries 0 (by simp), row, hrow, hfile, rfl⟩, ?_⟩)
    refine exits_bind.mpr (.inr ⟨(), { w with
      files := w.files.insertOrIgnore ⟨uid, name, (userDir env row.userName).str, 0⟩
      disk := d'
      tick := w.tick + 6 }, run_saveFile_ok.mpr ⟨?_, ?_, row, d, d', hrow, hd, hd', rfl⟩, ?_⟩)
    · simp only [List.forall_mem_cons, List.not_mem_nil, false_implies, implies_true, and_true]
      exact ⟨hqueries 1 (by simp), hqueries 4 (by simp), hqueries 5 (by simp)⟩
    · simp only [List.forall_mem_cons, List.not_mem_nil, false_implies, implies_true, and_true]
      exact ⟨hfaults 2 (by simp), hfaults 3 (by simp)⟩
    · exact exits_bind.mpr (.inl (exits_buildDecryptedFilePayload.mpr
        ⟨hqueries 6 (by simp), row, hrow, .inl hfault⟩))

end Exits

end FileTransfer.Server
