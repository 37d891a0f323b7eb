import FileTransfer.Server.Run

/-!
# Which files a request touches

A file changes only where a step opens it for writing (`open(path, 'wb')` in
`save_file`) or removes it (`os.remove` in `delete_from_backup`). Both act on
one path, made of the registered user name and the name in the payload, and
`Opens` and `Removes` say from the world before the step when it comes to that.
-/

namespace FileTransfer.Server

open FileTransfer.Effect

/-! ## One operation -/

variable {env : Env} {crypto : Crypto} {o : Op}

/-- The location whose file an operation opens for writing or removes. -/
def touched (env : Env) : World × Op → Option Location
  | (w, .writeFile p content) =>
    if env.diskFault w.tick ≠ some .refused ∧ (w.disk.write p content).isOk then some p.resolve
    else none
  | (w, .remove p) =>
    if env.diskFault w.tick = none ∧ (w.disk.remove p).isOk then some p.resolve else none
  | _ => none

/-- Whether a file can be opened for writing does not depend on what will be
written. -/
theorem isOk_write {d : Disk} {p : PurePath} {content content' : Bytes} :
    (d.write p content).isOk = (d.write p content').isOk := by
  simp only [Disk.write]
  cases d.locate p with
  | error e => rfl
  | ok loc =>
    dsimp only
    split <;> rfl

/-- An operation leaves every file alone that it does not touch. -/
theorem fileAt_exec {w : World} {loc : Location} (h : touched env (w, o) ≠ some loc) :
    (exec env o w).2.disk.fileAt loc = w.disk.fileAt loc := by
  -- a call that changes one node changes the file at its own path only
  have hput : ∀ {p : PurePath} {r : Except PathError Disk} {n : Option Node},
      (∀ d, r = .ok d → d.node = Function.update w.disk.node p.resolve n) →
      (r.isOk → p.resolve ≠ loc) →
      (diskReply { w with tick := w.tick + 1 } (r.map ((), ·))).2.disk.fileAt loc =
        w.disk.fileAt loc := by
    intro p r n hnode hne
    cases r with
    | error e => rfl
    | ok d => exact Disk.fileAt_of_node_update (hnode d rfl) (hne rfl).symm
  cases o with
  | query q =>
    simp only [exec]
    split
    · rfl
    · -- no statement reaches the disk
      cases q with
      | insertClient row => simp only [Query.exec]; split <;> rfl
      | update entry uid => cases entry <;> rfl
      | updateNamed entry uid name => cases entry <;> rfl
      | _ => rfl
  | mkdir p =>
    simp only [exec]
    split
    · rfl
    · exact Disk.mkdirs_fileAt _ _ _
  | writeFile p content =>
    simp only [exec]
    split
    · rfl
    · next n hfault =>
      refine hput (fun d hd => (Disk.write_ok hd).2) fun hok heq => h ?_
      rw [isOk_write] at hok
      have hopened : env.diskFault w.tick ≠ some .refused ∧ (w.disk.write p content).isOk :=
        ⟨by simp [hfault], hok⟩
      rw [touched, if_pos hopened, heq]
    · next hfault =>
      refine hput (fun d hd => (Disk.write_ok hd).2) fun hok heq => h ?_
      have hopened : env.diskFault w.tick ≠ some .refused ∧ (w.disk.write p content).isOk :=
        ⟨by simp [hfault], hok⟩
      rw [touched, if_pos hopened, heq]
  | readFile p =>
    simp only [exec]
    split
    · rfl
    · cases w.disk.read p <;> rfl
  | remove p =>
    simp only [exec]
    split
    · rfl
    · next hfault =>
      refine hput (fun d hd => (Disk.remove_ok hd).2) fun hok heq => h ?_
      rw [touched, if_pos ⟨hfault, hok⟩, heq]
  | _ => rfl

/-- Removing a file leaves no file there. -/
theorem fileAt_exec_remove {w : World} {p : PurePath} {loc : Location}
    (h : touched env (w, .remove p) = some loc) :
    (exec env (.remove p) w).2.disk.fileAt loc = none := by
  simp only [touched] at h
  split at h
  · next hremoved =>
    cases h
    obtain ⟨hfault, hok⟩ := hremoved
    cases hd : w.disk.remove p with
    | error e => rw [hd] at hok; cases hok
    | ok d =>
      simp only [exec, hfault, hd, Except.map, diskReply, Disk.fileAt, (Disk.remove_ok hd).2,
        Function.update_self]
  · cases h

/-! ## One program -/

/-- A run of `p` touches the file at `loc`. -/
def Touching {α : Type} (env : Env) (p : Py α) (w : World) (loc : Location) : Prop :=
  ∃ x ∈ p.trace (exec env) w, touched env x = some loc

section Touching

variable {α β : Type} {w : World} {loc : Location}

theorem touching_bind {p : Py α} {f : α → Py β} :
    Touching env (p >>= f) w loc ↔ Touching env p w loc ∨
      ∃ a w₁, Program.run (exec env) p w = (.ok a, w₁) ∧ Touching env (f a) w₁ loc := by
  constructor
  · rintro ⟨x, hx, hloc⟩
    rcases (Program.mem_trace_bind _).mp hx with hx | ⟨a, w₁, hrun, hx⟩
    · exact .inl ⟨x, hx, hloc⟩
    · exact .inr ⟨a, w₁, hrun, x, hx, hloc⟩
  · rintro (⟨x, hx, hloc⟩ | ⟨a, w₁, hrun, x, hx, hloc⟩)
    · exact ⟨x, (Program.mem_trace_bind _).mpr (.inl hx), hloc⟩
    · exact ⟨x, (Program.mem_trace_bind _).mpr (.inr ⟨a, w₁, hrun, hx⟩), hloc⟩

/-- A handler that touches nothing itself adds nothing. -/
theorem touching_tryExcept {body : Py α} {handler : Exn → Py α}
    (hhandler : ∀ e w, ¬ Touching env (handler e) w loc) :
    Touching env (tryExcept body handler) w loc ↔ Touching env body w loc := by
  constructor
  · rintro ⟨x, hx, hloc⟩
    rcases (Program.mem_trace_tryCatch _).mp hx with hx | ⟨e, w₁, -, hx⟩
    · exact ⟨x, hx, hloc⟩
    · cases e with
      | exception e => exact absurd ⟨x, hx, hloc⟩ (hhandler e w₁)
      | systemExit => cases hx
  · rintro ⟨x, hx, hloc⟩
    exact ⟨x, (Program.mem_trace_tryCatch _).mpr (.inl hx), hloc⟩

theorem touching_op (o : Op) :
    Touching env (Program.op (S := sig) o) w loc ↔ touched env (w, o) = some loc := by
  rw [Touching, Program.trace_op]
  simp only [List.mem_singleton, exists_eq_left]

/-- No run of `p` touches any file. -/
abbrev Harmless (env : Env) (p : Py α) : Prop := ∀ w loc, ¬ Touching env p w loc

theorem harmless_pure (a : α) : Harmless env (pure a : Py α) := by
  rintro w loc ⟨x, hx, -⟩
  cases hx

theorem harmless_raise (e : Exn) : Harmless env (raise e : Py α) := by
  rintro w loc ⟨x, hx, -⟩
  cases hx

theorem harmless_ofExcept (r : Except Exn α) : Harmless env (ofExcept r) := by
  rintro w loc ⟨x, hx, -⟩
  cases r <;> cases hx

theorem harmless_runThreadQuery (q : Query) : Harmless env (runThreadQuery q) := by
  intro w loc h
  cases (touching_op _).mp h

theorem harmless_bind {p : Py α} {f : α → Py β} (hp : Harmless env p)
    (hf : ∀ a, Harmless env (f a)) : Harmless env (p >>= f) := by
  intro w loc h
  rcases touching_bind.mp h with h | ⟨a, w₁, -, h⟩
  · exact hp w loc h
  · exact hf a w₁ loc h

theorem harmless_tryExcept {body : Py α} {handler : Exn → Py α} (hbody : Harmless env body)
    (hhandler : ∀ e, Harmless env (handler e)) : Harmless env (tryExcept body handler) :=
  fun w loc h => hbody w loc ((touching_tryExcept fun e w => hhandler e w loc).mp h)

/-! The helpers that only read, or only reach the database. -/

theorem harmless_getData (field : ClientField) (uid : Uid) : Harmless env (getData field uid) := by
  refine harmless_tryExcept (harmless_bind (harmless_runThreadQuery _) fun r => ?_)
    fun _ => harmless_raise _
  cases r with
  | none => exact harmless_raise _
  | some v => exact harmless_pure v

theorem harmless_removePipePadding (payload : Bytes) (start stop : Nat) :
    Harmless env (removePipePadding payload start stop) := by
  unfold removePipePadding
  split
  · exact harmless_raise _
  · exact harmless_pure _

theorem harmless_decryptFile (uid : Uid) (payload : Bytes) :
    Harmless env (decryptFile crypto uid payload) := by
  refine harmless_tryExcept (harmless_bind (harmless_getData _ _) fun key => ?_)
    fun _ => harmless_raise _
  exact harmless_bind (harmless_ofExcept _) fun _ => harmless_ofExcept _

theorem harmless_addNewFileDb (uid : Uid) (name : Str) (verified : Nat) :
    Harmless env (addNewFileDb env uid name verified) := by
  refine harmless_tryExcept (harmless_bind (harmless_getData _ _) fun user => ?_)
    fun _ => harmless_raise _
  exact harmless_bind (harmless_runThreadQuery _) fun _ => harmless_pure _

theorem harmless_deleteUnverified (uid : Uid) (name : Str) :
    Harmless env (deleteUnverified uid name) :=
  harmless_tryExcept (harmless_bind (harmless_runThreadQuery _) fun _ => harmless_pure _)
    fun _ => harmless_raise _

theorem harmless_buildDecryptedFilePayload (uid : Uid) (name : Str) (payload : Bytes) :
    Harmless env (buildDecryptedFilePayload env uid name payload) := by
  refine harmless_bind (harmless_getData _ _) fun user => ?_
  have hread : Harmless env (readfile ((userDir env user).join name)) := by
    have hop : Harmless env (readFile ((userDir env user).join name)) := by
      intro w loc h
      cases (touching_op _).mp h
    refine harmless_tryExcept (harmless_bind hop fun buffer => ?_) fun _ => ?_
    · cases memcrc buffer with
      | none => exact harmless_raise _
      | some crc => exact harmless_pure _
    · rintro w loc ⟨x, hx, -⟩
      cases hx
  refine harmless_bind hread fun crc => ?_
  exact harmless_bind (harmless_ofExcept _) fun _ => harmless_pure _

/-! ## The two that do -/

variable {uid : Uid} {name : Str} {file payload : Bytes}

theorem touching_writeFile {p : PurePath} :
    Touching env (writeFile p file) w loc ↔ env.diskFault w.tick ≠ some .refused ∧
      (w.disk.write p file).isOk ∧ loc = p.resolve := by
  refine (touching_op _).trans ?_
  simp only [touched]
  split
  · next hopened => simp [hopened, eq_comm]
  · next hclosed =>
    constructor
    · intro h
      cases h
    · rintro ⟨hfault, hok, -⟩
      exact absurd ⟨hfault, hok⟩ hclosed

theorem touching_remove {p : PurePath} :
    Touching env (remove p) w loc ↔ env.diskFault w.tick = none ∧
      (w.disk.remove p).isOk ∧ loc = p.resolve := by
  refine (touching_op _).trans ?_
  simp only [touched]
  split
  · next hremoved => simp [hremoved, eq_comm]
  · next hkept =>
    constructor
    · intro h
      cases h
    · rintro ⟨hfault, hok, -⟩
      exact absurd ⟨hfault, hok⟩ hkept

/-- `save_file` opens its path once the directory is there. -/
theorem touching_saveFile :
    Touching env (saveFile env uid name file) w loc ↔
      env.queryFails w.tick = false ∧ ∃ row d,
        w.clients.find? (·.uuid = uid) = some row ∧ env.diskFault (w.tick + 1) = none ∧
        w.disk.mkdirs (userDir env row.userName) = (.ok (), d) ∧
        env.diskFault (w.tick + 2) ≠ some .refused ∧
        (d.write ((userDir env row.userName).join name) file).isOk ∧
        loc = ((userDir env row.userName).join name).resolve := by
  refine (touching_tryExcept fun _ w => @harmless_raise env Unit .saveFile w loc).trans ?_
  constructor
  · intro h
    obtain ⟨user, w₁, hget, h⟩ := (touching_bind.mp h).resolve_left (harmless_getData _ _ w loc)
    obtain ⟨hquery, row, hrow, rfl, rfl⟩ := (run_getData_ok env).mp hget
    have hmkdir : Harmless env (mkdir (userDir env (row.get .userName))) := by
      intro w loc h
      cases (touching_op _).mp h
    obtain ⟨⟨⟩, w₂, hmade, h⟩ := (touching_bind.mp h).resolve_left (hmkdir _ loc)
    obtain ⟨hfault, d, hd, rfl⟩ := run_mkdir_ok.mp hmade
    have hwrite := (touching_bind.mp h).resolve_right
      fun ⟨_, w₃, _, h⟩ => harmless_addNewFileDb _ _ _ w₃ loc h
    obtain ⟨hopen, hok, hloc⟩ := touching_writeFile.mp hwrite
    exact ⟨hquery, row, d, hrow, hfault, hd, hopen, hok, hloc⟩
  · rintro ⟨hquery, row, d, hrow, hfault, hd, hopen, hok, hloc⟩
    refine touching_bind.mpr (.inr ⟨row.userName, w.ticked, ?_, ?_⟩)
    · exact (run_getData_ok env).mpr ⟨hquery, row, hrow, rfl, rfl⟩
    refine touching_bind.mpr (.inr ⟨(), { w.ticked.ticked with disk := d }, ?_, ?_⟩)
    · exact run_mkdir_ok.mpr ⟨hfault, d, hd, rfl⟩
    exact touching_bind.mpr (.inl (touching_writeFile.mpr ⟨hopen, hok, hloc⟩))

/-- `delete_from_backup` removes its path. -/
theorem touching_deleteFromBackup :
    Touching env (deleteFromBackup env uid name) w loc ↔
      env.queryFails w.tick = false ∧ ∃ row,
        w.clients.find? (·.uuid = uid) = some row ∧ env.diskFault (w.tick + 1) = none ∧
        (w.disk.remove ((userDir env row.userName).join name)).isOk ∧
        loc = ((userDir env row.userName).join name).resolve := by
  refine (touching_tryExcept fun _ w =>
    @harmless_pure env (Option Bytes) (some errorResponse) w loc).trans ?_
  constructor
  · intro h
    obtain ⟨user, w₁, hget, h⟩ := (touching_bind.mp h).resolve_left (harmless_getData _ _ w loc)
    obtain ⟨hquery, row, hrow, rfl, rfl⟩ := (run_getData_ok env).mp hget
    have hremove := (touching_bind.mp h).resolve_right fun ⟨_, w₂, _, h⟩ => harmless_pure _ w₂ loc h
    obtain ⟨hfault, hok, hloc⟩ := touching_remove.mp hremove
    exact ⟨hquery, row, hrow, hfault, hok, hloc⟩
  · rintro ⟨hquery, row, hrow, hfault, hok, hloc⟩
    refine touching_bind.mpr (.inr ⟨row.userName, w.ticked, ?_, ?_⟩)
    · exact (run_getData_ok env).mpr ⟨hquery, row, hrow, rfl, rfl⟩
    exact touching_bind.mpr (.inl (touching_remove.mpr ⟨hfault, hok, hloc⟩))

end Touching

/-! ## One step -/

namespace Step

variable (env crypto) (s : Step)

/-- The locations whose files the step opened for writing or removed. -/
def touches : List Location :=
  ((reqSelect env crypto s.header s.payload).trace (exec env) s.before).filterMap (touched env)

/-- The request is an upload that gets as far as opening the file at `loc`: its
name can be read, its client is registered, its content decrypts under that
client's key, and nothing fails until the file is open. -/
def Opens (loc : Location) : Prop :=
  s.header.version = Constants.version ∧ s.header.code = Constants.sendFile ∧
  ∃ name row file d,
    uploadName s.payload = some name ∧
    s.before.clients.find? (·.uuid = s.header.uid) = some row ∧
    decrypted crypto row s.payload = .ok file ∧
    env.queryFails s.before.tick = false ∧ env.queryFails (s.before.tick + 1) = false ∧
    env.diskFault (s.before.tick + 2) = none ∧
    s.before.disk.mkdirs (userDir env row.userName) = (.ok (), d) ∧
    env.diskFault (s.before.tick + 3) ≠ some .refused ∧
    (d.write ((userDir env row.userName).join name) file).isOk ∧
    loc = ((userDir env row.userName).join name).resolve

/-- The request is an abort that gets as far as removing the file at `loc`. -/
def Removes (loc : Location) : Prop :=
  s.header.version = Constants.version ∧ s.header.code = Constants.exitCrc ∧
  ∃ name row,
    finalName s.payload = some name ∧
    s.before.clients.find? (·.uuid = s.header.uid) = some row ∧
    env.queryFails s.before.tick = false ∧ env.diskFault (s.before.tick + 1) = none ∧
    (s.before.disk.remove ((userDir env row.userName).join name)).isOk ∧
    loc = ((userDir env row.userName).join name).resolve

/-- An upload that opened the file at `loc`. -/
def Wrote (loc : Location) : Prop :=
  s.header.code = Constants.sendFile ∧ loc ∈ s.touches env crypto

variable {env crypto s}

/-- A file that is not touched stays what it was. -/
theorem fileAt_after {loc : Location} (h : loc ∉ s.touches env crypto) :
    (s.after env crypto).disk.fileAt loc = s.before.disk.fileAt loc := by
  refine Program.run_of_trace (exec env)
    (I := fun w : World => w.disk.fileAt loc = s.before.disk.fileAt loc) rfl fun x hx hsame => ?_
  have hne : touched env x ≠ some loc := fun heq => h (List.mem_filterMap.mpr ⟨x, hx, heq⟩)
  exact (fileAt_exec hne).trans hsame

/-- Only an upload and an abort touch files. -/
theorem code_of_touches {loc : Location} (h : loc ∈ s.touches env crypto) :
    s.header.code = Constants.sendFile ∨ s.header.code = Constants.exitCrc := by
  obtain ⟨x, hx, htouched⟩ := List.mem_filterMap.mp h
  obtain ⟨w, o⟩ := x
  have hop := (Program.trace_invariant (I := fun _ : World => True)
    (fun o w _ _ => ⟨replies_trivial o (exec env o w).1, trivial⟩)
    (reqSelect_within crypto) trivial (w, o) hx).1
  cases hop with
  | writeFile content hcode => exact .inl hcode
  | remove hcode => exact .inr hcode
  | _ => cases htouched

theorem mem_touches_iff_touching {loc : Location} :
    loc ∈ s.touches env crypto ↔
      Touching env (reqSelect env crypto s.header s.payload) s.before loc :=
  List.mem_filterMap

theorem touching_handleEncryptedFile {w : World} {uid : Uid} {payload : Bytes} {version : Nat}
    {loc : Location} :
    Touching env (handleEncryptedFile env crypto uid version payload) w loc ↔
      ∃ name file, uploadName payload = some name ∧
        Program.run (exec env) (decryptFile crypto uid payload) w = (.ok file, w.ticked) ∧
        Touching env (saveFile env uid name file) w.ticked loc := by
  refine (touching_tryExcept fun _ w => @harmless_pure env Bytes errorResponse w loc).trans ?_
  constructor
  · intro hbody
    obtain ⟨name, w₁, hread, hnamed⟩ :=
      (touching_bind.mp hbody).resolve_left (harmless_removePipePadding _ _ _ w loc)
    obtain ⟨hname, rfl⟩ := run_removePipePadding_ok.mp hread
    obtain ⟨file, w₂, hdecrypt, hsaving⟩ :=
      (touching_bind.mp hnamed).resolve_left (harmless_decryptFile _ _ _ loc)
    obtain ⟨-, -, -, -, rfl⟩ := (run_decryptFile_ok env).mp hdecrypt
    have hsave := (touching_bind.mp hsaving).resolve_right fun ⟨_, w₃, _, hrest⟩ =>
      harmless_bind (harmless_buildDecryptedFilePayload _ _ _)
        (fun _ => harmless_ofExcept _) w₃ loc hrest
    exact ⟨name, file, hname, hdecrypt, hsave⟩
  · rintro ⟨name, file, hname, hdecrypt, hsave⟩
    refine touching_bind.mpr (.inr ⟨name, w, run_removePipePadding_ok.mpr ⟨hname, rfl⟩, ?_⟩)
    refine touching_bind.mpr (.inr ⟨file, w.ticked, hdecrypt, ?_⟩)
    exact touching_bind.mpr (.inl hsave)

theorem touching_validOrAbort {w : World} {uid : Uid} {payload : Bytes} {loc : Location} :
    Touching env (validOrAbort env uid Constants.exitCrc payload) w loc ↔
      ∃ name, finalName payload = some name ∧
        Touching env (deleteFromBackup env uid name) w loc := by
  refine (touching_tryExcept fun _ w => @harmless_pure env Bytes errorResponse w loc).trans ?_
  constructor
  · intro hbody
    obtain ⟨name, w₁, hread, hnamed⟩ :=
      (touching_bind.mp hbody).resolve_left (harmless_removePipePadding _ _ _ w loc)
    obtain ⟨hname, rfl⟩ := run_removePipePadding_ok.mp hread
    have hdelete := (touching_bind.mp hnamed).resolve_right fun ⟨_, w₂, _, hrest⟩ =>
      harmless_bind (harmless_deleteUnverified uid name)
        (fun _ => harmless_ofExcept
          (initResponse Constants.version Constants.fileApproval uid.bytes.length uid.bytes))
        w₂ loc hrest
    exact ⟨name, hname, hdelete⟩
  · rintro ⟨name, hname, hdelete⟩
    refine touching_bind.mpr (.inr ⟨name, w, run_removePipePadding_ok.mpr ⟨hname, rfl⟩, ?_⟩)
    exact touching_bind.mpr (.inl hdelete)

theorem touching_reqSelect {handler : Uid → Nat → Bytes → Py Bytes} {header : Header}
    {payload : Bytes} {w : World} {loc : Location}
    (hmap : responseMap env crypto header.code = some (respond handler)) :
    Touching env (reqSelect env crypto header payload) w loc ↔
      header.version = Constants.version ∧
        Touching env (handler header.uid (handlerArg header) payload) w loc := by
  by_cases hversion : header.version = Constants.version
  · rw [reqSelect_respond hversion hmap]
    constructor
    · intro h
      exact ⟨hversion, (touching_bind.mp h).resolve_right
        fun ⟨_, w₁, _, hrest⟩ => harmless_pure _ w₁ loc hrest⟩
    · rintro ⟨-, h⟩
      exact touching_bind.mpr (.inl h)
  · rw [reqSelect, if_pos hversion]
    constructor
    · exact fun h => absurd h (harmless_pure _ w loc)
    · exact fun h => absurd h.1 hversion

theorem touches_upload_iff {loc : Location} (hcode : s.header.code = Constants.sendFile) :
    loc ∈ s.touches env crypto ↔ s.Opens env crypto loc := by
  have hmap : responseMap env crypto s.header.code =
      some (respond (handleEncryptedFile env crypto)) := by rw [hcode]; rfl
  rw [mem_touches_iff_touching, touching_reqSelect hmap, touching_handleEncryptedFile]
  constructor
  · rintro ⟨hversion, name, file, hname, hdecrypt, hsave⟩
    obtain ⟨hquery, row, hrow, hfile, -⟩ := (run_decryptFile_ok env).mp hdecrypt
    obtain ⟨hquery', row', d, hrow', hfault, hd, hopen, hok, hloc⟩ := touching_saveFile.mp hsave
    obtain rfl : row = row' := Option.some.inj (hrow.symm.trans hrow')
    exact ⟨hversion, hcode, name, row, file, d, hname, hrow, hfile, hquery, hquery', hfault, hd,
      hopen, hok, hloc⟩
  · rintro ⟨hversion, -, name, row, file, d, hname, hrow, hfile, hquery, hquery', hfault, hd,
      hopen, hok, hloc⟩
    refine ⟨hversion, name, file, hname, ?_, ?_⟩
    · exact (run_decryptFile_ok env).mpr ⟨hquery, row, hrow, hfile, rfl⟩
    · exact touching_saveFile.mpr ⟨hquery', row, d, hrow, hfault, hd, hopen, hok, hloc⟩

theorem touches_abort_iff {loc : Location} (hcode : s.header.code = Constants.exitCrc) :
    loc ∈ s.touches env crypto ↔ s.Removes env loc := by
  have hmap : responseMap env crypto s.header.code = some (respond (validOrAbort env)) := by
    rw [hcode]
    rfl
  have harg : handlerArg s.header = Constants.exitCrc := by
    rw [handlerArg, if_pos (Or.inl hcode), hcode]
  rw [mem_touches_iff_touching, touching_reqSelect hmap, harg, touching_validOrAbort]
  constructor
  · rintro ⟨hversion, name, hname, hdelete⟩
    obtain ⟨hquery, row, hrow, hfault, hok, hloc⟩ := touching_deleteFromBackup.mp hdelete
    exact ⟨hversion, hcode, name, row, hname, hrow, hquery, hfault, hok, hloc⟩
  · rintro ⟨hversion, -, name, row, hname, hrow, hquery, hfault, hok, hloc⟩
    exact ⟨hversion, name, hname,
      touching_deleteFromBackup.mpr ⟨hquery, row, hrow, hfault, hok, hloc⟩⟩

/-- **When a request touches a file**, in terms of the request and the world it
meets. -/
theorem mem_touches_iff {loc : Location} :
    loc ∈ s.touches env crypto ↔ s.Opens env crypto loc ∨ s.Removes env loc := by
  constructor
  · intro h
    rcases code_of_touches h with hcode | hcode
    · exact .inl ((touches_upload_iff hcode).mp h)
    · exact .inr ((touches_abort_iff hcode).mp h)
  · rintro (h | h)
    · exact (touches_upload_iff h.2.1).mpr h
    · exact (touches_abort_iff h.2.1).mpr h

/-- **Where a step touches files**: at the file it is about, in the directory of
the user registered under its uid. -/
theorem mem_touches {loc : Location} (h : loc ∈ s.touches env crypto) :
    ∃ user name, s.before.Registered s.header.uid user ∧ s.fileName = some name ∧
      loc = ((userDir env user).join name).resolve := by
  rcases mem_touches_iff.mp h with hopens | hremoves
  · obtain ⟨-, hcode, name, row, file, d, hname, hrow, -, -, -, -, -, -, -, hloc⟩ := hopens
    have hfile : s.fileName = some name := by rw [fileName, if_pos hcode, hname]
    exact ⟨row.userName, name, registered_of_find? hrow, hfile, hloc⟩
  · obtain ⟨-, hcode, name, row, hname, hrow, -, -, -, hloc⟩ := hremoves
    have hnot : s.header.code ≠ Constants.sendFile := by rw [hcode]; decide
    exact ⟨row.userName, name, registered_of_find? hrow,
      by rw [fileName, if_neg hnot, if_pos hcode, hname], hloc⟩

end Step

end FileTransfer.Server
