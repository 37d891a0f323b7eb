import FileTransfer.Server.Answers
import FileTransfer.Server.Closing
import FileTransfer.Server.Isolation
import FileTransfer.Server.Outcomes

/-!
# Requests that nothing disturbs

What a request does where the database and the disk do not fail from outside, and
the names in it are plain: each kind is done as a whole, and its answer says so, or it
is refused and has changed nothing.
-/

namespace FileTransfer.Server

open FileTransfer.Effect
open FileTransfer.PurePath

/-! ## Plain names -/

/-- Where a client's file is. -/
def fileLocation (env : Env) (user name : Str) : Location :=
  ((userDir env user).join name).resolve

/-- A plain name with the terminator that the client sends behind it. -/
def Terminated (user : Str) : Prop := ∃ base, Plain base ∧ user = base ++ ['\x00']

/-- Every user name is a plain one with its terminator, and has one client. -/
structure Tidy (w : World) : Prop where
  terminated : ∀ uid user, w.Registered uid user → Terminated user
  unique : ∀ uid uid' user, w.Registered uid user → w.Registered uid' user → uid = uid'

/-- The names in a request are plain. -/
structure PlainNames (header : Header) (payload : Bytes) : Prop where
  user : header.code = Constants.register → ∀ user, asciiDecode payload = some user →
    Terminated user
  upload : header.code = Constants.sendFile → ∀ name, uploadName payload = some name → Plain name
  abort : header.code = Constants.exitCrc → ∀ name, finalName payload = some name → Plain name

variable {env : Env} {crypto : Crypto} {s : Step} {w w' : World} {uid : Uid} {user name : Str}

/-! ## Directories -/

/-- Tidy clients have directories of their own. -/
theorem Tidy.distinctDirs (h : Tidy w) : w.DistinctDirs env := by
  intro u v nameU nameV hu hv hne hsame
  obtain ⟨baseU, hplainU, rfl⟩ := h.terminated u nameU hu
  obtain ⟨baseV, hplainV, rfl⟩ := h.terminated v nameV hv
  have hbase := (userDir_eq_iff (by simpa using hplainU) (by simpa using hplainV)).mp hsame
  rw [List.dropLast_concat, List.dropLast_concat] at hbase
  subst hbase
  exact hne (h.unique u v _ hu hv)

/-- A request that registers no odd name keeps the order. -/
theorem tidy_after (h : Tidy s.before)
    (huser : ∀ user, Registers s.header s.payload user → Terminated user) :
    Tidy (s.after env crypto) := by
  constructor
  · intro u user hu
    rcases Step.registered_before hu with hbefore | ⟨hadmits, -⟩
    · exact h.terminated u user hbefore
    · exact huser user hadmits.registers
  · intro u v user hu hv
    rcases Step.registered_before hu with hbeforeU | ⟨hadmitsU, rfl⟩
    · rcases Step.registered_before hv with hbeforeV | ⟨hadmitsV, -⟩
      · exact h.unique u v user hbeforeU hbeforeV
      · exact absurd (List.mem_map.mpr ⟨_, hbeforeU, rfl⟩) hadmitsV.free
    · rcases Step.registered_before hv with hbeforeV | ⟨-, rfl⟩
      · exact absurd (List.mem_map.mpr ⟨_, hbeforeV, rfl⟩) hadmitsU.free
      · rfl

theorem fileLocation_eq {base : Str} (env : Env) (hbase : Plain base) (hname : Plain name) :
    fileLocation env (base ++ ['\x00']) name =
      env.backupPath.path.resolve ++ [base] ++ [name] := by
  rw [fileLocation, userDir, List.dropLast_concat, resolve_join_plain _ hname,
    resolve_join_plain _ hbase]

theorem backsUp_fileLocation {base : Str} (env : Env) (hbase : Plain base) (hname : Plain name) :
    env.BacksUp (fileLocation env (base ++ ['\x00']) name) := by
  rw [fileLocation_eq env hbase hname, List.append_assoc]
  exact List.prefix_append _ _

/-- Two files are in one place only if they are one client's and have one name. -/
theorem Tidy.eq_of_location (h : Tidy w) {uid' : Uid} {user' name' : Str}
    (huser : w.Registered uid user) (huser' : w.Registered uid' user') (hname : Plain name)
    (hname' : Plain name') (hsame : fileLocation env user name = fileLocation env user' name') :
    uid = uid' ∧ name = name' := by
  rw [fileLocation, fileLocation, resolve_join_plain _ hname, resolve_join_plain _ hname'] at hsame
  obtain ⟨hdir, hlast⟩ := List.append_inj' hsame rfl
  refine ⟨?_, by simpa using hlast⟩
  by_contra hne
  have hdistinct : w.DistinctDirs env := h.distinctDirs
  exact hdistinct _ _ _ _ huser huser' hne hdir

theorem registered_congr (h : w'.names = w.names) : w'.Registered = w.Registered := by
  funext uid user
  rw [World.Registered, World.Registered, h]

theorem Tidy.congr (h : Tidy w) (hnames : w'.names = w.names) : Tidy w' := by
  have hregistered := registered_congr hnames
  constructor
  · rw [hregistered]
    exact h.terminated
  · rw [hregistered]
    exact h.unique

theorem Terminated.backsUp (env : Env) (huser : Terminated user) (hname : Plain name) :
    env.BacksUp (fileLocation env user name) := by
  obtain ⟨base, hbase, rfl⟩ := huser
  exact backsUp_fileLocation env hbase hname

/-! ## What a request does not touch -/

/-- A request that touches no file keeps every one. -/
theorem fileAt_after_of_code (hupload : s.header.code ≠ Constants.sendFile)
    (habort : s.header.code ≠ Constants.exitCrc) (loc : Location) :
    (s.after env crypto).disk.fileAt loc = s.before.disk.fileAt loc := by
  apply Step.fileAt_after
  intro htouches
  rcases Step.code_of_touches htouches with hcode | hcode
  · exact hupload hcode
  · exact habort hcode

/-- A request that is about no file keeps the listing. -/
theorem files_after_of_code (hupload : s.header.code ≠ Constants.sendFile)
    (hconfirm : s.header.code ≠ Constants.validCrc)
    (habort : s.header.code ≠ Constants.exitCrc) :
    (s.after env crypto).files = s.before.files := by
  refine Step.files_invariant (J := (· = s.before.files)) rfl ?_ ?_ ?_
  · exact fun hcode => absurd hcode hupload
  · exact fun hcode => absurd hcode hconfirm
  · exact fun hcode => absurd hcode habort

/-! ## A registration -/

/-- The stages behind the lookup: the client is admitted and told its uuid, or nothing is
registered and nothing is told. -/
theorem run_draw_outcome (name : Str) (w : World) :
    (∃ w', Program.run (exec env) (Registration.draw name) w =
        (.ok (.response (uidResponse Constants.initRegistrationSucc (env.uuid4 w.tick))), w') ∧
      w'.names = w.names ++ [(env.uuid4 w.tick, name)]) ∨
    ∃ w', Program.run (exec env) (Registration.draw name) w =
        (.ok (.response errorResponse), w') ∧ w'.names = w.names := by
  have hstages : Program.run (exec env) (Registration.draw name) w =
      Program.run (exec env)
        (Registration.insert name (env.uuid4 w.tick) (env.now w.ticked.tick)) w.ticked.ticked :=
    rfl
  rw [hstages, Registration.insert, Program.run_perform]
  have hexit := noExit_exec env (.query (.insertClient ⟨env.uuid4 w.tick, name,
    publicKeyPlaceholder, env.now w.ticked.tick, aesKeyPlaceholder⟩)) w.ticked.ticked
  rcases @exec_insert env ⟨env.uuid4 w.tick, name, publicKeyPlaceholder,
    env.now w.ticked.tick, aesKeyPlaceholder⟩ w.ticked.ticked with ⟨n, hreply, -, -, hnames⟩ |
    ⟨e, hreply, hnames⟩
  · rw [hreply]
    exact .inl ⟨_, rfl, hnames⟩
  · rw [hreply] at hexit ⊢
    cases e with
    | exception e => exact .inr ⟨_, rfl, hnames⟩
    | systemExit => exact absurd rfl hexit

theorem Step.not_answered_of_refused {code : Nat}
    (hserve : (serve env crypto s.header s.payload s.before).1 = .ok (.response errorResponse))
    (hcode : code ≠ Constants.generalError) : ¬ s.Answered env crypto code := by
  rw [Step.Answered, Step.answer, hserve]
  intro hanswer
  have hsame := Option.some.inj hanswer
  rw [responseCode_errorResponse] at hsame
  exact hcode hsame.symm

/-- **An 825** is told the uuid under which it was admitted, or is not told so and not
admitted. -/
theorem registration_outcome (hcode : s.header.code = Constants.register) :
    (∃ user, s.Admits env user ∧
      s.response env crypto =
        some (uidResponse Constants.initRegistrationSucc (env.uuid4 (s.before.tick + 1))) ∧
      (s.after env crypto).names =
        s.before.names ++ [(env.uuid4 (s.before.tick + 1), user)]) ∨
    (s.after env crypto).names = s.before.names ∧
      ¬ s.Answered env crypto Constants.initRegistrationSucc := by
  by_cases hregisters : ∃ user, Registers s.header s.payload user
  · obtain ⟨user, h⟩ := hregisters
    have hserve : serve env crypto s.header s.payload s.before =
        Program.run (exec env) (Registration.lookup user) s.before := by
      rw [serve, reqSelect_register h]
    have hexit := noExit_exec env (.query (.selectUuid user)) s.before
    rw [Registration.lookup, Program.run_perform, exec_lookup] at hserve
    rcases hlookup : (exec env (.query (.selectUuid user)) s.before).1 with e | found
    · rw [hlookup] at hserve hexit
      cases e with
      | exception e =>
        have hrefused : ¬ s.Answered env crypto Constants.initRegistrationSucc :=
          Step.not_answered_of_refused (congrArg Prod.fst hserve) (by decide)
        exact .inr ⟨by rw [Step.after, hserve]; rfl, hrefused⟩
      | systemExit => exact absurd rfl hexit
    · rw [hlookup] at hserve
      rcases found with _ | uid
      · have hdraw : serve env crypto s.header s.payload s.before =
            Program.run (exec env) (Registration.draw user) s.before.ticked := hserve
        rcases @run_draw_outcome env user s.before.ticked with
          ⟨w', hrun, hnames⟩ | ⟨w', hrun, hnames⟩
        · rw [hrun] at hdraw
          have hafter : (s.after env crypto).names =
              s.before.names ++ [(env.uuid4 (s.before.tick + 1), user)] := by
            rw [Step.after, hdraw]
            exact hnames
          rcases @Step.names_after_register env crypto s hcode with hsame | ⟨user', hadmits, hnew⟩
          · rw [hafter] at hsame
            simp at hsame
          · rw [hafter] at hnew
            obtain rfl : user = user' := by simpa using hnew
            refine .inl ⟨user, hadmits, ?_, hafter⟩
            rw [Step.response, hdraw]
            rfl
        · rw [hrun] at hdraw
          have hrefused : ¬ s.Answered env crypto Constants.initRegistrationSucc :=
            Step.not_answered_of_refused (congrArg Prod.fst hdraw) (by decide)
          refine .inr ⟨?_, hrefused⟩
          rw [Step.after, hdraw]
          exact hnames
      · have htaken : serve env crypto s.header s.payload s.before =
            (.ok (.response (uidResponse Constants.registrationFail uid)), s.before.ticked) :=
          hserve
        refine .inr ⟨by rw [Step.after, htaken]; rfl, ?_⟩
        rw [Step.Answered, Step.answer, htaken]
        intro hanswer
        have hsame :=
          (Option.some.inj hanswer).symm.trans (responseCode_uidResponse (by decide) uid)
        cases hsame
  · have hserve : serve env crypto s.header s.payload s.before =
        (.ok (.response errorResponse), s.before) := by
      rw [serve, reqSelect_not_register hcode fun user h => hregisters ⟨user, h⟩]
      rfl
    refine .inr ⟨by rw [Step.after, hserve], ?_⟩
    exact Step.not_answered_of_refused (congrArg Prod.fst hserve) (by decide)

/-! ## An upload -/

/-- Where nothing fails from outside, an upload that is refused has changed nothing. -/
theorem Step.rejectsCleanly_of_reliable (henv : env.Reliable)
    (hcode : s.header.code = Constants.sendFile) : s.RejectsCleanly env crypto := by
  have hclean : s.RejectsCleanly env crypto ↔
      Saving.Clean env s.before (reqSelect env crypto s.header s.payload) s.before := by
    rw [Step.RejectsCleanly, Step.answered_iff]
    rfl
  have hsame : s.before.SameBackup env s.before := ⟨fun _ _ => rfl, rfl⟩
  have hticked : s.before.SameBackup env s.before.ticked.ticked := ⟨fun _ _ => rfl, rfl⟩
  rw [hclean]
  by_cases hreach : s.header.version ≠ Constants.version ∨ uploadName s.payload = none
  · rw [@Saving.reqSelect_not_sendFile env crypto (s.header, s.payload) hcode hreach,
      Saving.clean_refused]
    exact hsame
  · obtain ⟨hversion, hnone⟩ := not_or.mp hreach
    obtain ⟨name, hname⟩ := Option.ne_none_iff_exists'.mp hnone
    rw [@Saving.reqSelect_sendFile env crypto name (s.header, s.payload) (not_not.mp hversion) hcode
      hname, Saving.clean_decrypt hsame]
    intro row file hrow _ _ _
    refine (Saving.clean_makeDir hticked).mpr fun d _ hmkdirs => ?_
    have hkept : ∀ loc, d.fileAt loc = s.before.disk.fileAt loc := by
      intro loc
      have hkept := Disk.mkdirs_fileAt s.before.ticked.ticked.disk (userDir env row.userName) loc
      rw [hmkdirs] at hkept
      exact hkept
    refine (Saving.clean_write (w := { s.before.ticked.ticked.ticked with disk := d }) hname hrow
      hkept rfl).mpr fun _ _ _ _ => .inl ?_
    exact ⟨henv.disk _, henv.query _, henv.query _, henv.query _⟩

/-- **An 828** where nothing fails from outside: it is saved and listed, or refused. -/
theorem upload_cases (henv : env.Reliable) (hcode : s.header.code = Constants.sendFile) :
    (∃ name row content, s.Answered env crypto Constants.validFileCrc ∧
      uploadName s.payload = some name ∧
      s.before.clients.find? (·.uuid = s.header.uid) = some row ∧
      decrypted crypto row s.payload = .ok content ∧
      (s.after env crypto).files =
        s.before.files.insertOrIgnore ⟨s.header.uid, name, (userDir env row.userName).str, 0⟩ ∧
      ∀ loc, (s.after env crypto).disk.fileAt loc =
        if loc = fileLocation env row.userName name then some content
        else s.before.disk.fileAt loc) ∨
    ¬ s.Answered env crypto Constants.validFileCrc ∧
      s.before.SameBackup env (s.after env crypto) := by
  by_cases hversion : s.header.version = Constants.version
  · have hread : ¬ s.CannotReadBack env crypto := by
      intro h
      obtain ⟨-, -, -, -, hfault, -⟩ := h
      exact hfault (henv.disk _)
    obtain ⟨response, w', hserve, -⟩ := Step.serve_answers hversion (by rw [hcode]; decide)
      (by rw [hcode]; decide) hread
    have hafter : s.after env crypto = w' := by rw [Step.after, hserve]
    rcases upload_outcome hcode hserve with rfl | ⟨name, row, content, crc, d, hname, hrow,
      hcontent, -, hfiles, hmkdirs, hwrite, -, hchecked⟩
    · have hrefused : s.Answered env crypto Constants.generalError := by
        rw [Step.Answered, Step.answer, hserve]
        exact congrArg some responseCode_errorResponse
      refine .inr ⟨?_, Step.rejectsCleanly_of_reliable henv hcode hrefused⟩
      exact Step.not_answered_of_refused (congrArg Prod.fst hserve) (by decide)
    · obtain ⟨hlt, -⟩ := Saving.of_checked_ok hchecked
      obtain ⟨sent, hsent, hcodeSent⟩ := @Saving.checked_ok s.header.uid _ _ _ hname hlt
      obtain rfl : sent = response := Except.ok.inj (hsent.symm.trans hchecked)
      refine .inl ⟨name, row, content, ?_, hname, hrow, hcontent, hafter ▸ hfiles, fun loc => ?_⟩
      · rw [Step.Answered, Step.answer, hserve]
        exact congrArg some hcodeSent
      · obtain ⟨-, hnode⟩ := Disk.write_ok hwrite
        have hkept := Disk.mkdirs_fileAt s.before.disk (userDir env row.userName) loc
        rw [hmkdirs] at hkept
        rw [hafter]
        by_cases hloc : loc = fileLocation env row.userName name
        · rw [if_pos hloc, hloc, fileLocation, Disk.fileAt, hnode, Function.update_self]
        · rw [if_neg hloc, Disk.fileAt_of_node_update hnode hloc]
          exact hkept
  · have hserve := @serve_otherVersion env crypto s.header s.payload s.before hversion
    refine .inr ⟨Step.not_answered_of_refused (congrArg Prod.fst hserve) (by decide), ?_⟩
    rw [Step.after, hserve]
    exact ⟨fun _ _ => rfl, rfl⟩

/-! ## An abort -/

theorem Step.serve_exitCrc_unnamed (hversion : s.header.version = Constants.version)
    (hcode : s.header.code = Constants.exitCrc) (hname : finalName s.payload = none) :
    serve env crypto s.header s.payload s.before = (.ok (.response errorResponse), s.before) := by
  have hmap : responseMap env crypto s.header.code = some (respond (validOrAbort env)) := by
    rw [hcode]
    rfl
  rw [serve_respond hversion hmap, validOrAbort, run_tryExcept, Program.run_bind,
    run_removePipePadding, ← finalName, hname]
  rfl

/-- A client that is not registered has nothing removed. -/
theorem disk_afterRemoval_stranger (hrow : w.clients.find? (·.uuid = uid) = none) :
    (afterRemoval env w uid name).disk = w.disk := by
  rw [afterRemoval, hrow]
  split
  · rfl
  · next hfound =>
    split at hfound
    · cases hfound
    · cases hfound

/-- **What `os.remove` leaves** of a file with plain names, where nothing fails from
outside. -/
theorem fileAt_afterRemoval {row : ClientRow} (henv : env.Reliable)
    (hrow : w.clients.find? (·.uuid = uid) = some row) (huser : Terminated row.userName)
    (hname : Plain name) (loc : Location) :
    (afterRemoval env w uid name).disk.fileAt loc =
      if loc = fileLocation env row.userName name then none else w.disk.fileAt loc := by
  obtain ⟨p, hp⟩ : ∃ p, p = (userDir env row.userName).join name := ⟨_, rfl⟩
  have hplain : ∀ c ∈ p.parts, Plain c := by
    obtain ⟨base, hbase, heq⟩ := huser
    intro c hc
    rw [hp, heq, userDir, List.dropLast_concat, join_plain _ hname, join_plain _ hbase] at hc
    simp only [List.mem_append, List.mem_singleton] at hc
    rcases hc with (hc | rfl) | rfl
    · exact env.backupPath.plain c hc
    · exact hbase
    · exact hname
  rw [fileLocation, ← hp]
  cases hremove : w.disk.remove p with
  | ok d =>
    have hdisk : (afterRemoval env w uid name).disk = d := by
      rw [afterRemoval_removed hrow (henv.query _) (henv.disk _) (hp ▸ hremove)]
    obtain ⟨-, hnode⟩ := Disk.remove_ok hremove
    rw [hdisk]
    by_cases hloc : loc = p.resolve
    · rw [if_pos hloc, hloc, Disk.fileAt, hnode, Function.update_self]
    · rw [if_neg hloc, Disk.fileAt_of_node_update hnode hloc]
  | error e =>
    -- the call is refused only where there is no file
    have hgone : w.disk.fileAt p.resolve = none := by
      by_contra hthere
      obtain ⟨d, hd⟩ := Disk.remove_of_fileAt hplain (Option.isSome_iff_ne_none.mpr hthere)
      rw [hremove] at hd
      cases hd
    have hdisk : (afterRemoval env w uid name).disk = w.disk := by
      have hworks : ¬ env.queryFails w.tick = true := by
        rw [henv.query]
        decide
      rw [afterRemoval, if_neg hworks, hrow]
      simp only [exec, henv.disk, ← hp, World.ticked_disk, hremove]
      rfl
    rw [hdisk]
    by_cases hloc : loc = p.resolve
    · rw [if_pos hloc, hloc, hgone]
    · rw [if_neg hloc]

/-- **A 902** where nothing fails from outside. -/
theorem abort_cases (henv : env.Reliable) (hcode : s.header.code = Constants.exitCrc) :
    (∃ name, s.Answered env crypto Constants.fileApproval ∧ finalName s.payload = some name ∧
      (s.after env crypto).files = dropUnverified s.before.files s.header.uid name ∧
      (s.after env crypto).disk = (afterRemoval env s.before s.header.uid name).disk) ∨
    ¬ s.Answered env crypto Constants.fileApproval ∧ s.after env crypto = s.before := by
  have hrefused : serve env crypto s.header s.payload s.before =
      (.ok (.response errorResponse), s.before) →
      ¬ s.Answered env crypto Constants.fileApproval ∧ s.after env crypto = s.before := by
    intro hserve
    refine ⟨Step.not_answered_of_refused (congrArg Prod.fst hserve) (by decide), ?_⟩
    rw [Step.after, hserve]
  by_cases hversion : s.header.version = Constants.version
  · cases hname : finalName s.payload with
    | none => exact .inr (hrefused (Step.serve_exitCrc_unnamed hversion hcode hname))
    | some name =>
      have hworks : ¬ env.queryFails (s.deleteTick env) = true := by rw [henv.query]; decide
      have hserve := @Step.serve_deletes env crypto s name hversion hcode hname
      rw [if_neg hworks] at hserve
      refine .inl ⟨name, ?_, rfl, ?_, ?_⟩
      · rw [Step.Answered, Step.answer, hserve]
        exact congrArg some (responseCode_uidResponse (by decide) s.header.uid)
      · rw [Step.after, hserve]
      · rw [Step.after, hserve]
        rfl
  · exact .inr (hrefused (serve_otherVersion hversion))

end FileTransfer.Server
