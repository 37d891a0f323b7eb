import FileTransfer.Server.Verification
import FileTransfer.Server.Confinement
import FileTransfer.Server.Endings

/-!
# Rows and the files they point at

A row of `files` names a directory and a file in it. An upload writes the file
before it offers the row, and only an abort (902) removes files, so a row loses
its file in one way: the abort removes the file whatever its row says, and then
deletes the row only if it is not verified.
-/

namespace FileTransfer.Server

open FileTransfer.Effect
open FileTransfer.PurePath

/-! ## Where a row points -/

/-- The location of `path_name/file_name`. -/
def FileRow.location (row : FileRow) : Location :=
  ((parse row.pathName).join row.fileName).resolve

/-- Every row points at a file. -/
def World.NoDangling (w : World) : Prop :=
  ∀ row ∈ w.files, (w.disk.fileAt row.location).isSome

theorem absolute_userDir (env : Env) (user : Str) : (userDir env user).Absolute := by
  refine Absolute.join ⟨.inl env.backupPath.root_eq, fun c hc => ?_⟩ _
  have hplain := env.backupPath.plain c hc
  exact ⟨hplain.nonempty, hplain.notDot, hplain.noSlash⟩

/-- The row an upload offers points at the path it wrote. -/
theorem location_upload (env : Env) (uid : Uid) (user name : Str) (verified : Nat) :
    FileRow.location ⟨uid, name, (userDir env user).str, verified⟩ =
      ((userDir env user).join name).resolve := by
  rw [FileRow.location, parse_str (absolute_userDir env user)]

section Operation

variable {env : Env} {w : World} {loc : Location}

/-- A file that was written is there. -/
theorem isSome_of_write {d d' : Disk} {p : PurePath} {content : Bytes}
    (h : d.write p content = .ok d') (loc : Location)
    (hloc : loc = p.resolve ∨ (d.fileAt loc).isSome) : (d'.fileAt loc).isSome := by
  obtain ⟨-, hnode⟩ := Disk.write_ok h
  by_cases heq : loc = p.resolve
  · rw [heq, Disk.fileAt, hnode, Function.update_self]
    rfl
  · rw [Disk.fileAt_of_node_update hnode heq]
    exact hloc.resolve_left heq

/-- Nothing but a removal takes a file away. -/
theorem isSome_exec {o : Op} (ho : ∀ p, o ≠ .remove p) (h : (w.disk.fileAt loc).isSome) :
    ((exec env o w).2.disk.fileAt loc).isSome := by
  by_cases htouched : touched env (w, o) = some loc
  · cases o with
    | remove p => exact absurd rfl (ho p)
    | writeFile p content =>
      have hwrite : ∀ content', ((diskReply { w with tick := w.tick + 1 }
          ((w.disk.write p content').map ((), ·))).2.disk.fileAt loc).isSome := by
        intro content'
        cases hd : w.disk.write p content' with
        | error e => exact h
        | ok d => exact isSome_of_write hd loc (.inr h)
      simp only [exec]
      split
      · exact h
      · exact hwrite _
      · exact hwrite _
    | _ => cases htouched
  · rw [fileAt_exec htouched]
    exact h

end Operation

/-! ## An upload -/

section Upload

variable {env : Env} {crypto : Crypto} {files : Table FileRow.uuid}

/-- Every row that was not in `files` points at a file. -/
def NewRowsWritten (files : Table FileRow.uuid) (w : World) : Prop :=
  ∀ row ∈ w.files, row ∈ files ∨ (w.disk.fileAt row.location).isSome

theorem newRowsWritten_of_files {w : World} (h : w.files = files) : NewRowsWritten files w :=
  fun _ hrow => .inl (h ▸ hrow)

/-- A `save_file` that raises has recorded nothing. -/
theorem files_saveFile_raised (uid : Uid) (name : Str) (file : Bytes) :
    Program.Triple (exec env) (fun w => w.files = files) (saveFile env uid name file)
      (fun _ _ => True) fun _ w => w.files = files := by
  have hget : Program.Triple (exec env) (fun w => w.files = files) (getData .userName uid)
      (fun _ w => w.files = files) fun _ w => w.files = files :=
    Program.triple_of_run_snd fun w hw => by rw [run_getData_world]; exact hw
  refine triple_tryExcept env ?_ fun _ _ hw => hw
  refine hget.bind fun user => ?_
  have hmkdir : Program.Triple (exec env) (fun w => w.files = files) (mkdir (userDir env user))
      (fun _ w => w.files = files) fun _ w => w.files = files :=
    Program.triple_of_run_snd fun w hw => by rw [run_mkdir, files_exec_mkdir]; exact hw
  refine hmkdir.bind fun _ => ?_
  have hwrite : Program.Triple (exec env) (fun w => w.files = files)
      (writeFile ((userDir env user).join name) file)
      (fun _ w => w.files = files) fun _ w => w.files = files :=
    Program.triple_of_run_snd fun w hw => by rw [run_writeFile, files_exec_writeFile]; exact hw
  refine hwrite.bind fun _ w hw => ?_
  rw [run_addNewFileDb]
  split
  · exact hw
  · split
    · exact hw
    · trivial

/-- A `save_file` that returns has written the file its row points at. -/
theorem newRowsWritten_saveFile (uid : Uid) (name : Str) (file : Bytes) :
    Program.Triple (exec env) (fun w => w.files = files) (saveFile env uid name file)
      (fun _ => NewRowsWritten files) fun _ => NewRowsWritten files := by
  intro w hw
  have hraised := @files_saveFile_raised env files uid name file w hw
  rcases hrun : Program.run (exec env) (saveFile env uid name file) w with ⟨e | u, w₁⟩
  · rw [hrun] at hraised
    exact newRowsWritten_of_files hraised
  · obtain ⟨-, -, row, d, d', -, -, hd', rfl⟩ := run_saveFile_ok.mp hrun
    intro new hnew
    rcases Table.mem_insertOrIgnore.mp hnew with hold | ⟨rfl, -⟩
    · exact .inl (hw ▸ hold)
    · exact .inr (isSome_of_write hd' _ (.inl (location_upload env _ _ _ _)))

theorem newRowsWritten_handleEncryptedFile (uid : Uid) (version : Nat) (payload : Bytes) :
    Program.Triple (exec env) (fun w => w.files = files)
      (handleEncryptedFile env crypto uid version payload)
      (fun _ => NewRowsWritten files) fun _ => NewRowsWritten files := by
  refine triple_tryExcept env ?_ fun _ _ hw => hw
  have hname : Program.Triple (exec env) (fun w => w.files = files)
      (removePipePadding payload Constants.nameIndex Constants.contentIndex)
      (fun _ w => w.files = files) fun _ => NewRowsWritten files := by
    intro w hw
    rw [run_removePipePadding]
    split
    · exact hw
    · exact newRowsWritten_of_files hw
  refine hname.bind fun name => ?_
  have hdecrypt : Program.Triple (exec env) (fun w => w.files = files)
      (decryptFile crypto uid payload)
      (fun _ w => w.files = files) fun _ => NewRowsWritten files := by
    intro w hw
    rw [run_decryptFile]
    split
    · exact newRowsWritten_of_files hw
    · next row _ =>
      cases decrypted crypto row payload with
      | error e => exact newRowsWritten_of_files hw
      | ok file => exact hw
  refine hdecrypt.bind fun file => ?_
  refine (newRowsWritten_saveFile uid name file).bind fun _ => ?_
  have hbuild : Program.Triple (exec env) (NewRowsWritten files)
      (buildDecryptedFilePayload env uid name payload)
      (fun _ => NewRowsWritten files) fun _ => NewRowsWritten files :=
    Program.triple_of_run_snd fun w hw => by
      obtain ⟨t, ht⟩ := @run_buildDecryptedFilePayload_world env w uid name payload
      rw [ht]
      exact hw
  refine hbuild.bind fun pay w hw => ?_
  rw [run_ofExcept]
  cases initResponse Constants.version Constants.validFileCrc pay.length pay <;> exact hw

end Upload

/-! ## An abort -/

section Abort

variable {env : Env} {w : World} {uid : Uid} {name : Str}

theorem run_deleteUnverified :
    Program.run (exec env) (deleteUnverified uid name) w =
      if env.queryFails w.tick then (.error (.exception .defensiveDb), w.ticked)
      else (.ok (), { w.ticked with files := dropUnverified w.files uid name }) := by
  have hquery := run_runThreadQuery env (.deleteUnverified uid name) w
  by_cases hfails : env.queryFails w.tick
  · simp [deleteUnverified, hquery, hfails, dbErrorHandler]
  · simp [deleteUnverified, hquery, hfails, Query.exec, Except.mapError, dropUnverified]

variable (env w uid name)

/-- The world after `delete_from_backup`: the call of `os.remove` is over, or there
was no user name to call it with. -/
def afterRemoval : World :=
  match (if env.queryFails w.tick then none else w.clients.find? (·.uuid = uid)) with
  | none => w.ticked
  | some row => (exec env (.remove ((userDir env row.userName).join name)) w.ticked).2

variable {env w uid name}

/-- Whatever `os.remove` raises is caught. -/
theorem run_deleteFromBackup :
    ∃ r, Program.run (exec env) (deleteFromBackup env uid name) w =
      (.ok r, afterRemoval env w uid name) := by
  rw [deleteFromBackup, run_tryExcept, Program.run_bind, run_getData env .userName, afterRemoval]
  cases (if env.queryFails w.tick then none else w.clients.find? (·.uuid = uid)) with
  | none => exact ⟨_, rfl⟩
  | some row =>
    have hexit := noExit_exec env (.remove ((userDir env row.userName).join name)) w.ticked
    simp only [Program.run_bind, run_remove, ClientRow.get]
    generalize exec env (.remove ((userDir env row.userName).join name)) w.ticked = result
      at hexit ⊢
    obtain ⟨r, w₁⟩ := result
    cases r with
    | ok u => exact ⟨_, rfl⟩
    | error e =>
      cases e with
      | exception e => exact ⟨_, rfl⟩
      | systemExit => exact absurd rfl hexit

/-- An abort that gets as far as removing the file. -/
theorem afterRemoval_removed {row : ClientRow} {d : Disk}
    (hrow : w.clients.find? (·.uuid = uid) = some row) (hquery : env.queryFails w.tick = false)
    (hfault : env.diskFault (w.tick + 1) = none)
    (hremove : w.disk.remove ((userDir env row.userName).join name) = .ok d) :
    afterRemoval env w uid name = { w with disk := d, tick := w.tick + 2 } := by
  rw [afterRemoval, hquery, if_neg (by decide), hrow]
  simp only [exec, World.ticked, hfault, hremove, Except.map, diskReply]

/-- **An abort**: the file is removed, or not, and then the row is deleted; the
answer depends on the second statement only. -/
theorem run_exitCrc {payload : Bytes} (hname : finalName payload = some name) :
    Program.run (exec env) (validOrAbort env uid Constants.exitCrc payload) w =
      if env.queryFails (afterRemoval env w uid name).tick then
        (.ok errorResponse, (afterRemoval env w uid name).ticked)
      else (.ok (uidResponse Constants.fileApproval uid),
        { (afterRemoval env w uid name).ticked with
          files := dropUnverified (afterRemoval env w uid name).files uid name }) := by
  have hother : ¬ Constants.exitCrc = Constants.validCrc := by decide
  obtain ⟨r, hdelete⟩ := @run_deleteFromBackup env w uid name
  rw [validOrAbort, run_tryExcept, Program.run_bind, run_removePipePadding, ← finalName, hname]
  simp only [if_neg hother, if_true, Program.run_bind, hdelete, run_deleteUnverified]
  by_cases hfails : env.queryFails (afterRemoval env w uid name).tick
  · simp only [if_pos hfails]
    rfl
  · simp only [if_neg hfails, run_ofExcept, initResponse_uid (show 1604 < 2 ^ 16 by decide)]
    rfl

end Abort

/-! ## One step -/

namespace Step

variable {env : Env} {crypto : Crypto} {s : Step} {loc : Location}

/-- A step that does not remove a file keeps it. -/
theorem isSome_after (h : ¬ s.Removes env loc) (hfile : (s.before.disk.fileAt loc).isSome) :
    ((s.after env crypto).disk.fileAt loc).isSome := by
  by_cases htouches : loc ∈ s.touches env crypto
  · have hopens := (mem_touches_iff.mp htouches).resolve_right h
    refine invariant (I := fun w => (w.disk.fileAt loc).isSome) (fun o w ho hw => ?_) hfile
    refine isSome_exec ?_ hw
    rintro p rfl
    cases ho with
    | remove hcode => exact absurd (hopens.2.1.symm.trans hcode) (by decide)
  · rw [fileAt_after htouches]
    exact hfile

/-- An upload records its file, if at all, once it is there. -/
theorem files_after_sendFile (hcode : s.header.code = Constants.sendFile) :
    NewRowsWritten s.before.files (s.after env crypto) := by
  by_cases hversion : s.header.version = Constants.version
  · rw [after_respond hversion (by rw [hcode]; rfl)]
    exact (newRowsWritten_handleEncryptedFile _ _ _).run_snd rfl
  · have hsame : s.after env crypto = s.before := by
      rw [after, serve, reqSelect, if_pos hversion]
      rfl
    exact newRowsWritten_of_files (congrArg World.files hsame)

/-- Other requests add no row. -/
theorem location_before (hcode : s.header.code ≠ Constants.sendFile) {row : FileRow}
    (hrow : row ∈ (s.after env crypto).files) :
    ∃ r ∈ s.before.files, r.location = row.location := by
  refine files_invariant (J := fun files => ∀ row ∈ files, ∃ r ∈ s.before.files,
    r.location = row.location) ?_ ?_ ?_ ?_ row hrow
  · exact fun row hrow => ⟨row, hrow, rfl⟩
  · exact fun hupload => absurd hupload hcode
  · intro _ files name _ hJ row hrow
    obtain ⟨r, hr, rfl⟩ := mem_markVerified.mp hrow
    obtain ⟨r₀, hr₀, hloc⟩ := hJ r hr
    refine ⟨r₀, hr₀, hloc.trans ?_⟩
    split <;> rfl
  · intro _ files name _ hJ row hrow
    exact hJ row (mem_dropUnverified.mp hrow).1

/-- What is served for an abort. -/
theorem serve_exitCrc {name : Str} (hversion : s.header.version = Constants.version)
    (hcode : s.header.code = Constants.exitCrc) (hname : finalName s.payload = some name) :
    serve env crypto s.header s.payload s.before =
      if env.queryFails (afterRemoval env s.before s.header.uid name).tick then
        (.ok (.response errorResponse), (afterRemoval env s.before s.header.uid name).ticked)
      else (.ok (.response (uidResponse Constants.fileApproval s.header.uid)),
        { (afterRemoval env s.before s.header.uid name).ticked with
          files := dropUnverified (afterRemoval env s.before s.header.uid name).files
            s.header.uid name }) := by
  have hmap : responseMap env crypto s.header.code = some (respond (validOrAbort env)) := by
    rw [hcode]
    rfl
  have harg : handlerArg s.header = Constants.exitCrc := by
    rw [handlerArg, if_pos (Or.inl hcode), hcode]
  rw [serve_respond hversion hmap, harg, run_exitCrc hname]
  by_cases hfails : env.queryFails (afterRemoval env s.before s.header.uid name).tick
  · simp only [if_pos hfails]
  · simp only [if_neg hfails]

/-- An abort that removes a file, in full. -/
theorem after_removes (h : s.Removes env loc) :
    (s.after env crypto).disk.fileAt loc = none ∧
    ∃ name, finalName s.payload = some name ∧ (s.after env crypto).files =
      if env.queryFails (s.before.tick + 2) then s.before.files
      else dropUnverified s.before.files s.header.uid name := by
  obtain ⟨hversion, hcode, name, row, hname, hrow, hquery, hfault, hok, rfl⟩ := h
  cases hremove : s.before.disk.remove ((userDir env row.userName).join name) with
  | error e =>
    rw [hremove] at hok
    cases hok
  | ok d =>
    have hafter := congrArg Prod.snd (@serve_exitCrc env crypto s name hversion hcode hname)
    rw [afterRemoval_removed hrow hquery hfault hremove, ← after] at hafter
    have hgone : d.fileAt ((userDir env row.userName).join name).resolve = none := by
      rw [Disk.fileAt, (Disk.remove_ok hremove).2, Function.update_self]
    rw [hafter]
    by_cases hfails : env.queryFails (s.before.tick + 2)
    · simp only [if_pos hfails]
      exact ⟨hgone, name, hname, rfl⟩
    · simp only [if_neg hfails]
      exact ⟨hgone, name, hname, rfl⟩

variable (env s)

/-- The step removes a file only together with every row that points at it: the
row is not verified, it is the row the DELETE names, and the DELETE works. -/
def RemovesCleanly : Prop :=
  ∀ loc, s.Removes env loc → ∀ row ∈ s.before.files, row.location = loc →
    row.verified = 0 ∧ row.uuid = s.header.uid ∧ finalName s.payload = some row.fileName ∧
      env.queryFails (s.before.tick + 2) = false

variable {env s}

/-- **One step**: while no row dangles, a step leaves none dangling exactly if it
removes cleanly. -/
theorem noDangling_after_iff (h : s.before.NoDangling) :
    (s.after env crypto).NoDangling ↔ s.RemovesCleanly env := by
  constructor
  · intro hafter loc hremoves row hrow hloc
    obtain ⟨hgone, name, hname, hfiles⟩ := @after_removes env crypto s loc hremoves
    -- the row points at nothing now, so it is not there any more
    have hdeleted : row ∉ (s.after env crypto).files := fun hmem => by
      have hfile := hafter row hmem
      rw [hloc, hgone] at hfile
      cases hfile
    rw [hfiles] at hdeleted
    by_cases hfails : env.queryFails (s.before.tick + 2)
    · rw [if_pos hfails] at hdeleted
      exact absurd hrow hdeleted
    · rw [if_neg hfails, mem_dropUnverified] at hdeleted
      obtain ⟨hunverified, huid, hfile⟩ := not_not.mp fun hkept => hdeleted ⟨hrow, hkept⟩
      exact ⟨hunverified, huid, hfile ▸ hname, by simpa using hfails⟩
  · intro hclean row hrow
    by_cases hcode : s.header.code = Constants.sendFile
    · have hnew := files_after_sendFile hcode row hrow
      rcases hnew with hold | hwritten
      · refine isSome_after (fun hremoves => ?_) (h row hold)
        exact absurd (hremoves.2.1.symm.trans hcode) (by decide)
      · exact hwritten
    · obtain ⟨r, hr, hloc⟩ := location_before hcode hrow
      by_cases hremoves : s.Removes env row.location
      · -- every row that pointed there is deleted
        obtain ⟨-, name, hname, hfiles⟩ := @after_removes env crypto s _ hremoves
        obtain ⟨-, -, -, hquery⟩ := hclean _ hremoves r hr hloc
        rw [hfiles, hquery, if_neg (by decide), mem_dropUnverified] at hrow
        obtain ⟨hunverified, huid, hfile, -⟩ := hclean _ hremoves row hrow.1 rfl
        exact absurd ⟨hunverified, huid, Option.some.inj (hfile.symm.trans hname)⟩ hrow.2
      · exact isSome_after hremoves (hloc ▸ h r hr)

end Step

/-! ## Whole runs -/

section Runs

variable {env : Env} {crypto : Crypto} {disk : Disk} {hist : List Step} {w : World}

/-- **No row dangles** in any world that a run of clean steps leads to. -/
theorem rows_point_at_files
    (hrun : Run env crypto (Step.RemovesCleanly env) (.init disk) hist w) : w.NoDangling :=
  hrun.invariant (I := World.NoDangling) nofun fun _ hclean h =>
    (Step.noDangling_after_iff h).mpr hclean

end Runs

/-- An abort of the file `name`. -/
def abortRequest (uid : Uid) (name : Bytes) : Header × Bytes := request uid 902 (padName name)

/-- A packed abort of a known name. -/
theorem serve_abortRequest (env : Env) (crypto : Crypto) (uid : Uid) {name : Str} {bytes : Bytes}
    (hname : utf8Encode name = bytes) (hpipe : '|' ∉ name) (hlen : bytes.length ≤ 255)
    (w : World) :
    serve env crypto (abortRequest uid bytes).1 (abortRequest uid bytes).2 w =
      if env.queryFails (afterRemoval env w uid name).tick then
        (.ok (.response errorResponse), (afterRemoval env w uid name).ticked)
      else (.ok (.response (uidResponse Constants.fileApproval uid)),
        { (afterRemoval env w uid name).ticked with
          files := dropUnverified (afterRemoval env w uid name).files uid name }) :=
  @Step.serve_exitCrc env crypto ⟨(abortRequest uid bytes).1, (abortRequest uid bytes).2, w⟩ name
    rfl rfl (finalName_confirmRequest uid hname hpipe hlen)

/-- A client `u` uploads `f` and gives it up. -/
def abortedUpload : List (Header × Bytes) :=
  [request (Uid.ofNat 0) 825 [0x75, 0x00], keyRequest (Uid.ofNat 1),
    uploadRequest (Uid.ofNat 1) [0x66], abortRequest (Uid.ofNat 1) [0x66]]

theorem abortedUpload_noDangling :
    (handleAll (.calm Uid.ofNat) toyCrypto (.init .bare) abortedUpload).NoDangling := by
  refine @rows_point_at_files _ _ .bare _ _ (run_script _ _ fun s hs => ?_)
  have hrows : ∀ s ∈ script (.calm Uid.ofNat) toyCrypto (.init .bare) abortedUpload,
      s.header.code = 902 → s.payload = (confirmRequest (Uid.ofNat 1) [0x66]).2 ∧
        ∀ row ∈ s.before.files.rows,
          row.verified = 0 ∧ row.uuid = s.header.uid ∧ row.fileName = ['f'] := by
    have hlist : abortedUpload =
        [request (Uid.ofNat 0) 825 [0x75, 0x00], keyRequest (Uid.ofNat 1)] ++
          [uploadRequest (Uid.ofNat 1) [0x66]] ++ [abortRequest (Uid.ofNat 1) [0x66]] := rfl
    rw [hlist, script_concat, handleAll_upload, List.forall_mem_append, List.forall_mem_singleton]
    decide +kernel
  intro loc hremoves row hrow _
  obtain ⟨hpayload, hunverified⟩ := hrows s hs hremoves.2.1
  obtain ⟨hzero, huid, hname⟩ := hunverified row hrow
  refine ⟨hzero, huid, ?_, rfl⟩
  rw [hpayload, hname]
  exact finalName_confirmRequest _ (by decide) (by decide) (by decide)

/-- The same abort, after the file was confirmed. -/
def lateAbort : List (Header × Bytes) :=
  confirmedUpload ++ [abortRequest (Uid.ofNat 1) [0x66]]

theorem lateAbort_plainly :
    ∀ s ∈ script (.calm Uid.ofNat) toyCrypto (.init .bare) lateAbort, s.Plainly := by
  have hplain : Plain ['f'] := by decide
  have hupload : uploadName (uploadRequest (Uid.ofNat 1) [0x66]).2 = some ['f'] :=
    uploadName_uploadRequest (Uid.ofNat 1) (by decide) (by decide) (by decide)
  have habort : finalName (abortRequest (Uid.ofNat 1) [0x66]).2 = some ['f'] :=
    finalName_confirmRequest (Uid.ofNat 1) (by decide) (by decide) (by decide)
  intro s hs
  simp only [lateAbort, confirmedUpload, List.cons_append, List.nil_append, script, List.mem_cons,
    List.not_mem_nil, or_false] at hs
  rcases hs with rfl | rfl | rfl | rfl | rfl
  · constructor
    · intro name _ hname
      obtain rfl : ['u', '\x00'] = name := Option.some.inj hname
      decide
    · intro name hname
      cases hname
  · constructor
    · exact fun name hcode => absurd hcode (by decide)
    · intro name hname
      cases hname
  · constructor
    · exact fun name hcode => absurd hcode (by decide)
    · exact fun name hname => Option.some.inj (hupload.symm.trans hname) ▸ hplain
  · constructor
    · exact fun name hcode => absurd hcode (by decide)
    · intro name hname
      cases hname
  · constructor
    · exact fun name hcode => absurd hcode (by decide)
    · exact fun name hname => Option.some.inj (habort.symm.trans hname) ▸ hplain

/-- **An abort of a confirmed file** removes the file and leaves its row, with
plain names and nothing failing. -/
theorem lateAbort_leaves_row :
    ¬ ∀ (env : Env) (crypto : Crypto) (disk : Disk) (hist : List Step) (w : World),
      env.Reliable → Run env crypto Step.Plainly (.init disk) hist w → w.NoDangling := by
  intro h
  have hdangling := h _ _ _ _ _ (Env.calm_reliable Uid.ofNat)
    (run_script (.calm Uid.ofNat) toyCrypto lateAbort_plainly)
  obtain ⟨row, hrow, hgone⟩ :
      ∃ row ∈ (handleAll (.calm Uid.ofNat) toyCrypto (.init .bare) lateAbort).files.rows,
        (handleAll (.calm Uid.ofNat) toyCrypto (.init .bare) lateAbort).disk.fileAt row.location =
          none := by
    rw [lateAbort, handleAll_concat, handleAll_confirmedUpload,
      serve_abortRequest (.calm Uid.ofNat) toyCrypto (Uid.ofNat 1)
        (show utf8Encode ['f'] = [0x66] by decide) (by decide) (by decide)]
    decide +kernel
  have hfile := hdangling row hrow
  rw [hgone] at hfile
  cases hfile

end FileTransfer.Server
