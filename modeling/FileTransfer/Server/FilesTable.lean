import FileTransfer.Server.Registration

/-!
# The files table

An upload offers a row to the table, a confirmation (900) marks rows, an abort
(902) deletes one; nothing else reaches the table. The primary key is the uuid
alone, so an offered row is dropped as soon as the client has any row.
-/

namespace FileTransfer.Server

open FileTransfer.Effect

/-! ## The three changes -/

/-- What a confirmation of `name` does: an empty name stands for all names. -/
def markVerified (files : Table FileRow.uuid) (uid : Uid) (name : Str) : Table FileRow.uuid :=
  if name = [] then files.update (·.uuid = uid) ({ · with verified := 1 }) fun _ => rfl
  else
    files.update (fun r => decide (r.uuid = uid ∧ r.fileName = name)) ({ · with verified := 1 })
      fun _ => rfl

theorem mem_markVerified {files : Table FileRow.uuid} {uid : Uid} {name : Str} {row : FileRow} :
    row ∈ markVerified files uid name ↔ ∃ r ∈ files,
      (if r.uuid = uid ∧ (name = [] ∨ r.fileName = name) then { r with verified := 1 } else r) =
        row := by
  unfold markVerified
  by_cases hname : name = []
  · rw [if_pos hname, Table.mem_update]
    simp [hname]
  · rw [if_neg hname, Table.mem_update]
    simp [hname]

/-- What an abort of `name` does. -/
def dropUnverified (files : Table FileRow.uuid) (uid : Uid) (name : Str) : Table FileRow.uuid :=
  files.delete fun r => decide (r.verified = 0 ∧ r.uuid = uid ∧ r.fileName = name)

theorem mem_dropUnverified {files : Table FileRow.uuid} {uid : Uid} {name : Str} {row : FileRow} :
    row ∈ dropUnverified files uid name ↔
      row ∈ files ∧ ¬ (row.verified = 0 ∧ row.uuid = uid ∧ row.fileName = name) := by
  rw [dropUnverified, Table.mem_delete, decide_eq_false_iff_not]

section Operation

variable {env : Env} {registered : Uid → Str → Prop} {fresh : Uid → Prop} {header : Header}
  {payload : Bytes} {o : Op}

theorem files_diskReply {α : Type} {w : World} {r : Except PathError (α × Disk)} :
    (diskReply w r).2.files = w.files := by
  cases r <;> rfl

/-! A call on a path leaves the table alone. -/

theorem files_exec_mkdir (p : PurePath) (w : World) :
    (exec env (.mkdir p) w).2.files = w.files := by
  simp only [exec]
  split <;> rfl

theorem files_exec_writeFile (p : PurePath) (content : Bytes) (w : World) :
    (exec env (.writeFile p content) w).2.files = w.files := by
  simp only [exec]
  split
  · rfl
  · exact files_diskReply
  · exact files_diskReply

theorem files_exec_readFile (p : PurePath) (w : World) :
    (exec env (.readFile p) w).2.files = w.files := by
  simp only [exec]
  split
  · rfl
  · exact files_diskReply

theorem files_exec_remove (p : PurePath) (w : World) :
    (exec env (.remove p) w).2.files = w.files := by
  simp only [exec]
  split
  · rfl
  · exact files_diskReply

/-- Everything an operation can do to the files table. -/
theorem files_exec (h : Footprint env registered fresh header payload o) (w : World) :
    (exec env o w).2.files = w.files ∨
    (header.code = Constants.sendFile ∧ ∃ user name, uploadName payload = some name ∧
      registered header.uid user ∧ (exec env o w).2.files =
        w.files.insertOrIgnore ⟨header.uid, name, (userDir env user).str, 0⟩) ∨
    (header.code = Constants.validCrc ∧ ∃ name, finalName payload = some name ∧
      (exec env o w).2.files = markVerified w.files header.uid name) ∨
    (header.code = Constants.exitCrc ∧ ∃ name, finalName payload = some name ∧
      (exec env o w).2.files = dropUnverified w.files header.uid name) := by
  -- a query that fails changes nothing
  have hquery : ∀ (q : Query), (exec env (.query q) w).2.files = w.files ∨
      (exec env (.query q) w).2.files = (q.exec w).2.files := by
    intro q
    simp only [exec]
    split
    · exact .inl rfl
    · refine .inr ?_
      cases q with
      | insertClient row => simp only [Query.exec]; split <;> rfl
      | update entry uid => cases entry <;> rfl
      | updateNamed entry uid name => cases entry <;> rfl
      | _ => rfl
  have hclients : ∀ (q : Query), (q.exec w).2.files = w.files →
      (exec env (.query q) w).2.files = w.files := by
    intro q hq
    rcases hquery q with h | h
    · exact h
    · exact h.trans hq
  cases h with
  | now => exact .inl rfl
  | uuid4 => exact .inl rfl
  | randomBytes => exact .inl rfl
  | findUsername => exact .inl (hclients _ rfl)
  | getData => exact .inl (hclients _ rfl)
  | setPublicKey => exact .inl (hclients _ rfl)
  | setAesKey => exact .inl (hclients _ rfl)
  | setLastSeen => exact .inl (hclients _ rfl)
  | insertClient =>
    refine .inl (hclients _ ?_)
    simp only [Query.exec]
    split <;> rfl
  | mkdir => exact .inl (files_exec_mkdir _ w)
  | writeFile => exact .inl (files_exec_writeFile _ _ w)
  | readFile => exact .inl (files_exec_readFile _ w)
  | remove => exact .inl (files_exec_remove _ w)
  | @insertFile user name hcode hname huser =>
    rcases hquery (.insertFile ⟨header.uid, name, (userDir env user).str, 0⟩) with h | h
    · exact .inl h
    · exact .inr (.inl ⟨hcode, user, name, hname, huser, h⟩)
  | @verify name hcode hname hne =>
    rcases hquery (.updateNamed (.verified 1) header.uid name) with h | h
    · exact .inl h
    · refine .inr (.inr (.inl ⟨hcode, name, hname, h.trans ?_⟩))
      rw [markVerified, if_neg hne]
      rfl
  | verifyAll hcode hname =>
    rcases hquery (.update (.verified 1) header.uid) with h | h
    · exact .inl h
    · refine .inr (.inr (.inl ⟨hcode, [], hname, h.trans ?_⟩))
      rw [markVerified, if_pos rfl]
      rfl
  | @deleteUnverified name hcode hname =>
    rcases hquery (.deleteUnverified header.uid name) with h | h
    · exact .inl h
    · exact .inr (.inr (.inr ⟨hcode, name, hname, h⟩))

end Operation

namespace Step

variable {env : Env} {crypto : Crypto} {s : Step}

/-- **The rule for the files table**: what the three changes preserve, a step
preserves. -/
theorem files_invariant {J : Table FileRow.uuid → Prop} (h : J s.before.files)
    (hinsert : s.header.code = Constants.sendFile → ∀ files user name,
      uploadName s.payload = some name → s.before.Registered s.header.uid user → J files →
      J (files.insertOrIgnore ⟨s.header.uid, name, (userDir env user).str, 0⟩))
    (hmark : s.header.code = Constants.validCrc → ∀ files name,
      finalName s.payload = some name → J files → J (markVerified files s.header.uid name))
    (hdrop : s.header.code = Constants.exitCrc → ∀ files name,
      finalName s.payload = some name → J files → J (dropUnverified files s.header.uid name)) :
    J (s.after env crypto).files := by
  -- an 825 touches no file; any other code leaves the user names it reads as they are
  by_cases hregister : s.header.code = Constants.register
  · refine invariant (I := fun w => J w.files) (fun o w ho hw => ?_) h
    rcases files_exec ho w with heq | ⟨hcode, -⟩ | ⟨hcode, -⟩ | ⟨hcode, -⟩
    · rw [heq]
      exact hw
    all_goals
      rw [hregister] at hcode
      cases hcode
  · have hrun := Program.run_invariant
      (I := fun w : World => w.names = s.before.names ∧ J w.files)
      (fun o w ho hw => by
        obtain ⟨hreply, hnames⟩ := exec_known hregister o w ho hw.1
        refine ⟨hreply, hnames, ?_⟩
        rcases files_exec ho w with heq | ⟨hcode, user, name, hname, huser, heq⟩ |
          ⟨hcode, name, hname, heq⟩ | ⟨hcode, name, hname, heq⟩
        · rw [heq]
          exact hw.2
        · rw [heq]
          exact hinsert hcode _ user name hname huser hw.2
        · rw [heq]
          exact hmark hcode _ name hname hw.2
        · rw [heq]
          exact hdrop hcode _ name hname hw.2)
      (reqSelect_within crypto) (s := s.before) ⟨rfl, h⟩
    exact hrun.2

end Step

/-! ## What the handlers answer -/

section Answers

variable {env : Env} {crypto : Crypto} {w w' : World} {uid : Uid} {name : Str} {payload : Bytes}

theorem run_updateVerified :
    Program.run (exec env) (updateEntry (.verified 1) uid true name) w =
      if env.queryFails w.tick then (.error (.exception .defensiveDb), w.ticked)
      else (.ok (), { w.ticked with files := markVerified w.files uid name }) := by
  -- the two forms of the UPDATE
  by_cases hname : name = []
  · have hquery := run_runThreadQuery env (.update (.verified 1) uid) w
    by_cases hfails : env.queryFails w.tick
    · simp [updateEntry, hname, hquery, hfails, dbErrorHandler]
    · simp [updateEntry, hname, hquery, hfails, Query.exec, Except.mapError, markVerified]
  · have hquery := run_runThreadQuery env (.updateNamed (.verified 1) uid name) w
    by_cases hfails : env.queryFails w.tick
    · simp [updateEntry, hname, hquery, hfails, dbErrorHandler]
    · simp [updateEntry, hname, hquery, hfails, Query.exec, Except.mapError, markVerified]

/-- **A confirmation**: its name is read, the rows are marked, and it is answered
with 1604; or nothing happens and the answer is an error. -/
theorem run_validCrc :
    Program.run (exec env) (validOrAbort env uid Constants.validCrc payload) w =
      match finalName payload with
      | none => (.ok errorResponse, w)
      | some name =>
        if env.queryFails w.tick then (.ok errorResponse, w.ticked)
        else (.ok (uidResponse Constants.fileApproval uid),
          { w.ticked with files := markVerified w.files uid name }) := by
  rw [validOrAbort, run_tryExcept, Program.run_bind, run_removePipePadding, ← finalName]
  cases finalName payload with
  | none => rfl
  | some name =>
    simp only [if_true, Program.run_bind, run_updateVerified]
    by_cases hfails : env.queryFails w.tick
    · simp only [if_pos hfails]
      rfl
    · simp only [if_neg hfails, run_ofExcept, initResponse_uid (show 1604 < 2 ^ 16 by decide)]
      rfl

/-- **An upload answered with 1603** has offered its row to the table. -/
theorem run_handleEncryptedFile_ok {version : Nat} {response : Bytes}
    (h : Program.run (exec env) (handleEncryptedFile env crypto uid version payload) w =
      (.ok response, w'))
    (hcode : responseCode response = Constants.validFileCrc) :
    ∃ name path, uploadName payload = some name ∧
      w'.files = w.files.insertOrIgnore ⟨uid, name, path, 0⟩ := by
  rcases run_tryExcept_ok env h with hbody | ⟨e, w₁, herror⟩
  · obtain ⟨name, w₁, hname, hbody⟩ := (Program.run_bind_ok _).mp hbody
    obtain ⟨file, w₂, hdecrypt, hbody⟩ := (Program.run_bind_ok _).mp hbody
    obtain ⟨⟨⟩, w₃, hsave, hbody⟩ := (Program.run_bind_ok _).mp hbody
    obtain ⟨pay, w₄, hbuild, hanswer⟩ := (Program.run_bind_ok _).mp hbody
    rw [run_removePipePadding] at hname
    split at hname
    · next name' hname' =>
      cases hname
      obtain ⟨-, -, -, -, hw₂⟩ := (run_decryptFile_ok env).mp hdecrypt
      have hw₄ : w₄.files = w₃.files := by
        obtain ⟨t, hread⟩ := @run_buildDecryptedFilePayload_world env w₃ uid name payload
        have hw₄ : w₄ = { w₃ with tick := t } := by rw [← hread, hbuild]
        rw [hw₄]
      have hw' : w' = w₄ := by
        rw [run_ofExcept] at hanswer
        exact (congrArg Prod.snd hanswer).symm
      obtain ⟨-, -, row, d, d', -, -, -, rfl⟩ := run_saveFile_ok.mp hsave
      exact ⟨_, (userDir env row.userName).str, hname', by rw [hw', hw₄, hw₂]; rfl⟩
    · cases hname
  · -- the error response has another code
    cases herror
    cases hcode

end Answers

namespace Step

variable {env : Env} {crypto : Crypto} {s : Step} {name : Str}

/-- An answer other than the error response comes from the handler. -/
theorem answered_respond {handler : Uid → Nat → Bytes → Py Bytes} {code : Nat}
    (hmap : responseMap env crypto s.header.code = some (respond handler))
    (h : s.Answered env crypto code) (hcode : code ≠ Constants.generalError) :
    ∃ response,
      Program.run (exec env) (handler s.header.uid (handlerArg s.header) s.payload) s.before =
        (.ok response, s.after env crypto) ∧ responseCode response = code := by
  obtain ⟨response, hserve, hresponse⟩ := answered_iff.mp h
  by_cases hversion : s.header.version = Constants.version
  · refine ⟨response, ?_, hresponse⟩
    rw [after]
    simp only [serve, reqSelect_respond hversion hmap, respond, Program.run_bind] at hserve ⊢
    generalize Program.run (exec env) (handler s.header.uid _ s.payload) s.before = result
      at hserve ⊢
    rcases result with ⟨e | b, w⟩
    · cases hserve
    · cases hserve
      rfl
  · rw [serve, reqSelect, if_pos hversion] at hserve
    cases hserve
    exact absurd hresponse.symm hcode

/-- An upload answered with 1603. -/
theorem files_after_upload (hcode : s.header.code = Constants.sendFile)
    (h : s.Answered env crypto Constants.validFileCrc) :
    ∃ name path, uploadName s.payload = some name ∧ (s.after env crypto).files =
      s.before.files.insertOrIgnore ⟨s.header.uid, name, path, 0⟩ := by
  have hmap : responseMap env crypto s.header.code =
      some (respond (handleEncryptedFile env crypto)) := by rw [hcode]; rfl
  obtain ⟨response, hrun, hresponse⟩ := answered_respond hmap h (by decide)
  exact run_handleEncryptedFile_ok hrun hresponse

/-- What is served for a confirmation. -/
theorem serve_validCrc (hversion : s.header.version = Constants.version)
    (hcode : s.header.code = Constants.validCrc) :
    serve env crypto s.header s.payload s.before =
      match finalName s.payload with
      | none => (.ok (.response errorResponse), s.before)
      | some name =>
        if env.queryFails s.before.tick then (.ok (.response errorResponse), s.before.ticked)
        else (.ok (.response (uidResponse Constants.fileApproval s.header.uid)),
          { s.before.ticked with files := markVerified s.before.files s.header.uid name }) := by
  have hmap : responseMap env crypto s.header.code = some (respond (validOrAbort env)) := by
    rw [hcode]
    rfl
  have harg : handlerArg s.header = Constants.validCrc := by
    rw [handlerArg, if_pos (Or.inr hcode), hcode]
  rw [serve_respond hversion hmap, harg, run_validCrc]
  cases finalName s.payload with
  | none => rfl
  | some name => by_cases hfails : env.queryFails s.before.tick <;> simp [hfails]

/-- **What a confirmation does to the table**: nothing, and it is answered with an
error; or it is answered with 1604 and marks the rows of its name. -/
theorem validCrc_cases (hcode : s.header.code = Constants.validCrc) :
    ((s.after env crypto).files = s.before.files ∧
      s.Answered env crypto Constants.generalError ∧
      (s.header.version = Constants.version → env.queryFails s.before.tick = false →
        finalName s.payload = none)) ∨
    (s.header.version = Constants.version ∧ env.queryFails s.before.tick = false ∧
      s.Answered env crypto Constants.fileApproval ∧ ∃ name, finalName s.payload = some name ∧
        (s.after env crypto).files = markVerified s.before.files s.header.uid name) := by
  by_cases hversion : s.header.version = Constants.version
  · have hserve := @serve_validCrc env crypto s hversion hcode
    unfold after Answered answer
    rw [hserve]
    cases finalName s.payload with
    | none => exact .inl ⟨rfl, congrArg some responseCode_errorResponse, fun _ _ => rfl⟩
    | some name =>
      by_cases hfails : env.queryFails s.before.tick
      · simp only [if_pos hfails]
        refine .inl ⟨rfl, congrArg some responseCode_errorResponse, fun _ hworks => ?_⟩
        exact absurd (hfails.symm.trans hworks) (by decide)
      · simp only [if_neg hfails]
        exact .inr ⟨hversion, by simpa using hfails,
          congrArg some (responseCode_uidResponse (by decide) _), name, rfl, rfl⟩
  · have hserve : serve env crypto s.header s.payload s.before =
        (.ok (.response errorResponse), s.before) := by
      rw [serve, reqSelect, if_pos hversion]
      rfl
    refine .inl ⟨?_, ?_, fun h => absurd h hversion⟩
    · rw [after, hserve]
    · rw [Answered, answer, hserve]
      exact congrArg some responseCode_errorResponse

/-- Nothing, or an answer 1604 and marks. -/
theorem files_after_validCrc (hcode : s.header.code = Constants.validCrc) :
    ((s.after env crypto).files = s.before.files ∧
      ¬ s.Answered env crypto Constants.fileApproval) ∨
    (s.header.version = Constants.version ∧ env.queryFails s.before.tick = false ∧
      s.Answered env crypto Constants.fileApproval ∧ ∃ name, finalName s.payload = some name ∧
        (s.after env crypto).files = markVerified s.before.files s.header.uid name) := by
  rcases @validCrc_cases env crypto s hcode with ⟨hfiles, hanswer, -⟩ | h
  · refine .inl ⟨hfiles, fun happroved => ?_⟩
    have hboth := hanswer.symm.trans happroved
    cases hboth
  · exact .inr h

end Step

/-- A packed confirmation of a known name. -/
theorem serve_confirmRequest (env : Env) (crypto : Crypto) (uid : Uid) {name : Str}
    {bytes : Bytes} (hname : utf8Encode name = bytes) (hpipe : '|' ∉ name)
    (hlen : bytes.length ≤ 255) (w : World) :
    serve env crypto (confirmRequest uid bytes).1 (confirmRequest uid bytes).2 w =
      if env.queryFails w.tick then (.ok (.response errorResponse), w.ticked)
      else (.ok (.response (uidResponse Constants.fileApproval uid)),
        { w.ticked with files := markVerified w.files uid name }) := by
  have hserve := @Step.serve_validCrc env crypto
    ⟨(confirmRequest uid bytes).1, (confirmRequest uid bytes).2, w⟩ rfl rfl
  simp only [finalName_confirmRequest uid hname hpipe hlen] at hserve
  exact hserve

end FileTransfer.Server
