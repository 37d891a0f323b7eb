import FileTransfer.Server.FilesTable
import FileTransfer.Server.Saving
import FileTransfer.Server.Touch

/-!
# What a verified row says about the file

A row with `verified = 1` should mean that the client approved the file that
is there now. `save_file` means to clear the mark on every upload, since it
offers the row with `verified = 0`; the offer is dropped when the client has a
row already. So the mark is right as long as no upload opens a marked file, and
no confirmation without a name sweeps up files nobody approved.
-/

namespace FileTransfer.Server

open FileTransfer.Effect

/-- The file `name` of the client `uid` lies at `loc`. -/
def World.FileOf (env : Env) (w : World) (uid : Uid) (name : Str) (loc : Location) : Prop :=
  ∃ user, w.Registered uid user ∧ loc = ((userDir env user).join name).resolve

/-- In the history `hist` that led to `w`, the client approved the file of `row`
and no upload has opened it since. If there is a file at all, its content is the
one that was there when the client approved it. -/
def Approved (env : Env) (crypto : Crypto) (hist : List Step) (w : World) (row : FileRow) :
    Prop :=
  ∃ pre c post loc, hist = pre ++ c :: post ∧
    c.Confirms row.uuid row.fileName ∧ c.Answered env crypto Constants.fileApproval ∧
    w.FileOf env row.uuid row.fileName loc ∧ (∀ s ∈ post, ¬ s.Wrote env crypto loc) ∧
    (w.disk.fileAt loc = none ∨ w.disk.fileAt loc = c.before.disk.fileAt loc)

namespace Step

variable (env : Env) (crypto : Crypto) (s : Step)

/-- What a step must not do: open a file whose row is marked, or mark files it
does not name. -/
structure Careful : Prop where
  spares : ∀ row ∈ s.before.files, row.verified = 1 →
    ∀ loc, s.before.FileOf env row.uuid row.fileName loc → ¬ s.Opens env crypto loc
  names : s.header.version = Constants.version → s.header.code = Constants.validCrc →
    finalName s.payload = some [] → env.queryFails s.before.tick = false →
    ∀ row ∈ s.before.files, row.uuid = s.header.uid → row.fileName = [] ∨ row.verified = 1

variable {env crypto s}

/-! ## What one step does to a marked row and to its file -/

theorem fileOf_after {uid : Uid} {name : Str} {loc : Location}
    (h : s.before.FileOf env uid name loc) : (s.after env crypto).FileOf env uid name loc := by
  obtain ⟨user, huser, hloc⟩ := h
  exact ⟨user, registered_after huser, hloc⟩

/-- Only an upload puts content somewhere. -/
theorem fileAt_after_of_not_upload {loc : Location} (hcode : s.header.code ≠ Constants.sendFile) :
    (s.after env crypto).disk.fileAt loc = none ∨
      (s.after env crypto).disk.fileAt loc = s.before.disk.fileAt loc := by
  refine invariant (I := fun w => w.disk.fileAt loc = none ∨
    w.disk.fileAt loc = s.before.disk.fileAt loc) (fun o w ho hw => ?_) (.inr rfl)
  by_cases htouched : touched env (w, o) = some loc
  · cases ho with
    | writeFile _ hupload => exact absurd hupload hcode
    | remove => exact .inl (fileAt_exec_remove htouched)
    | _ => cases htouched
  · rw [fileAt_exec htouched]
    exact hw

/-- A file that the step does not open has its old content or is gone. -/
theorem fileAt_after_of_not_opens {loc : Location} (h : ¬ s.Opens env crypto loc) :
    (s.after env crypto).disk.fileAt loc = none ∨
      (s.after env crypto).disk.fileAt loc = s.before.disk.fileAt loc := by
  by_cases hcode : s.header.code = Constants.sendFile
  · exact .inr (fileAt_after fun htouches => h ((touches_upload_iff hcode).mp htouches))
  · exact fileAt_after_of_not_upload hcode

/-- A marked row was marked before, unless the step is a confirmation. -/
theorem marked_before {row : FileRow} (hcode : s.header.code ≠ Constants.validCrc)
    (hrow : row ∈ (s.after env crypto).files) (hmark : row.verified = 1) :
    row ∈ s.before.files := by
  refine files_invariant
    (J := fun files => ∀ row ∈ files, row.verified = 1 → row ∈ s.before.files)
    (fun row hrow _ => hrow) ?_ (fun hvalid => absurd hvalid hcode) ?_ row hrow hmark
  · rintro - files user name - - hfiles row hrow hmark
    rcases Table.mem_insertOrIgnore.mp hrow with hrow | ⟨rfl, -⟩
    · exact hfiles row hrow hmark
    · -- an offered row is not marked
      cases hmark
  · rintro - files name - hfiles row hrow hmark
    exact hfiles row (mem_dropUnverified.mp hrow).1 hmark

/-- Every row belongs to a registered client. -/
theorem owners_after (h : ∀ row ∈ s.before.files, ∃ user, s.before.Registered row.uuid user) :
    ∀ row ∈ (s.after env crypto).files, ∃ user, (s.after env crypto).Registered row.uuid user := by
  have hbefore : ∀ row ∈ (s.after env crypto).files, ∃ user,
      s.before.Registered row.uuid user := by
    refine files_invariant
      (J := fun files => ∀ row ∈ files, ∃ user, s.before.Registered row.uuid user) h ?_ ?_ ?_
    · rintro - files user name - huser hfiles row hrow
      rcases Table.mem_insertOrIgnore.mp hrow with hrow | ⟨rfl, -⟩
      · exact hfiles row hrow
      · exact ⟨user, huser⟩
    · rintro - files name - hfiles row hrow
      obtain ⟨r, hr, rfl⟩ := mem_markVerified.mp hrow
      obtain ⟨user, huser⟩ := hfiles r hr
      refine ⟨user, ?_⟩
      split <;> exact huser
    · rintro - files name - hfiles row hrow
      exact hfiles row (mem_dropUnverified.mp hrow).1
  intro row hrow
  obtain ⟨user, huser⟩ := hbefore row hrow
  exact ⟨user, registered_after huser⟩

/-- An approval outlives a step that spares the file. -/
theorem approved_after {hist : List Step} {row : FileRow}
    (h : Approved env crypto hist s.before row)
    (hspares : ∀ loc, s.before.FileOf env row.uuid row.fileName loc → ¬ s.Opens env crypto loc) :
    Approved env crypto (hist ++ [s]) (s.after env crypto) row := by
  obtain ⟨pre, c, post, loc, rfl, hconfirm, hanswer, hfile, hpost, hcontent⟩ := h
  have hopens := hspares loc hfile
  refine ⟨pre, c, post ++ [s], loc, by simp, hconfirm, hanswer, fileOf_after hfile, ?_, ?_⟩
  · intro e he
    rcases List.mem_append.mp he with he | he
    · exact hpost e he
    · obtain rfl := List.mem_singleton.mp he
      exact fun hwrote => hopens ((touches_upload_iff hwrote.1).mp hwrote.2)
  · rcases @fileAt_after_of_not_opens env crypto s loc hopens with hgone | hsame
    · exact .inl hgone
    · rw [hsame]
      exact hcontent

/-- A confirmation approves the file it names. -/
theorem approved_of_confirms {hist : List Step} {row : FileRow} {user : Str}
    (hconfirm : s.Confirms row.uuid row.fileName)
    (hanswer : s.Answered env crypto Constants.fileApproval)
    (huser : s.before.Registered row.uuid user) :
    Approved env crypto (hist ++ [s]) (s.after env crypto) row := by
  refine ⟨hist, s, [], _, rfl, hconfirm, hanswer, ⟨user, registered_after huser, rfl⟩, ?_, ?_⟩
  · intro e he
    cases he
  · refine fileAt_after_of_not_upload ?_
    rw [hconfirm.1]
    decide

end Step

/-! ## Whole runs -/

variable {env : Env} {crypto : Crypto} {disk : Disk} {hist : List Step} {w : World}

/-- **A verified flag is never stale**, in any run of careful steps from empty
tables. -/
theorem verified_never_stale
    (hrun : Run env crypto (Step.Careful env crypto) (.init disk) hist w) :
    ∀ row ∈ w.files, row.verified = 1 → Approved env crypto hist w row := by
  suffices h : (∀ row ∈ w.files, row.verified = 1 → Approved env crypto hist w row) ∧
      ∀ row ∈ w.files, ∃ user, w.Registered row.uuid user from h.1
  induction hrun with
  | start =>
    constructor
    · intro row hrow
      cases hrow
    · intro row hrow
      cases hrow
  | @event hist s hrun hcareful ih =>
    obtain ⟨happroved, howners⟩ := ih
    refine ⟨fun row hrow hmark => ?_, Step.owners_after howners⟩
    have hold : row ∈ s.before.files →
        Approved env crypto (hist ++ [s]) (s.after env crypto) row := fun hbefore =>
      Step.approved_after (happroved row hbefore hmark) (hcareful.spares row hbefore hmark)
    by_cases hcode : s.header.code = Constants.validCrc
    · rcases @Step.files_after_validCrc env crypto s hcode with ⟨hsame, -⟩ |
        ⟨hversion, hquery, hanswer, name, hname, hmarked⟩
      · exact hold (hsame ▸ hrow)
      · rw [hmarked] at hrow
        obtain ⟨r, hr, hset⟩ := mem_markVerified.mp hrow
        split at hset
        · next hmatch =>
          subst hset
          obtain ⟨user, huser⟩ := howners r hr
          by_cases hnamed : r.fileName = name
          · -- the confirmation names this row
            refine Step.approved_of_confirms ⟨hcode, hmatch.1.symm, ?_⟩ hanswer huser
            rw [hnamed]
            exact hname
          · -- the confirmation names no row, so this one was marked already
            obtain rfl : name = [] := hmatch.2.resolve_right hnamed
            have hwas := (hcareful.names hversion hcode hname hquery r hr hmatch.1).resolve_left
              hnamed
            obtain ⟨uuid, fileName, pathName, verified⟩ := r
            obtain rfl : verified = 1 := hwas
            exact hold hr
        · exact hold (hset ▸ hr)
    · exact hold (Step.marked_before hcode hrow hmark)

/-- As long as nothing is marked, only an empty name can be careless. -/
theorem Step.careful_of_unmarked {s : Step} (hfiles : ∀ row ∈ s.before.files.rows, row.verified ≠ 1)
    (hname : s.header.code = Constants.validCrc → finalName s.payload ≠ some []) :
    s.Careful env crypto where
  spares row hrow hmark := absurd hmark (hfiles row hrow)
  names _ hcode hempty := absurd hempty (hname hcode)

/-- A client `u` registers, exchanges keys, uploads `f` and confirms it. -/
def confirmedUpload : List (Header × Bytes) :=
  [request (Uid.ofNat 0) 825 [0x75, 0x00], keyRequest (Uid.ofNat 1),
    uploadRequest (Uid.ofNat 1) [0x66], confirmRequest (Uid.ofNat 1) [0x66]]

theorem confirmedUpload_eq :
    confirmedUpload = [request (Uid.ofNat 0) 825 [0x75, 0x00], keyRequest (Uid.ofNat 1)] ++
      [uploadRequest (Uid.ofNat 1) [0x66]] ++ [confirmRequest (Uid.ofNat 1) [0x66]] := rfl

/-- The world it leaves. -/
def confirmedWorld : World := handleAll (.calm Uid.ofNat) toyCrypto (.init .bare) confirmedUpload

/-- The world between the upload and the confirmation. -/
def uploadedWorld (env : Env) : World :=
  (Program.run (exec env)
    (Saving.decrypt env toyCrypto (Uid.ofNat 1) (uploadRequest (Uid.ofNat 1) [0x66]).2 ['f'])
    (handleAll env toyCrypto (.init .bare)
      [request (Uid.ofNat 0) 825 [0x75, 0x00], keyRequest (Uid.ofNat 1)])).2

theorem handleAll_upload (env : Env) :
    handleAll env toyCrypto (.init .bare) ([request (Uid.ofNat 0) 825 [0x75, 0x00],
      keyRequest (Uid.ofNat 1)] ++ [uploadRequest (Uid.ofNat 1) [0x66]]) = uploadedWorld env :=
  Saving.handleAll_uploadRequest env toyCrypto (Uid.ofNat 1) (by decide) (by decide) (by decide) _ _

/-- The rows of `f` are marked, unless the query fails. -/
theorem handleAll_confirmedUpload (env : Env) :
    handleAll env toyCrypto (.init .bare) confirmedUpload =
      if env.queryFails (uploadedWorld env).tick then (uploadedWorld env).ticked
      else { (uploadedWorld env).ticked with
        files := markVerified (uploadedWorld env).files (Uid.ofNat 1) ['f'] } := by
  rw [confirmedUpload_eq, handleAll_concat, handleAll_upload, serve_confirmRequest env toyCrypto
    (Uid.ofNat 1) (show utf8Encode ['f'] = [0x66] by decide) (by decide) (by decide)]
  split <;> rfl

theorem confirmedUpload_never_stale :
    ∃ row ∈ confirmedWorld.files, row.verified = 1 ∧
      Approved (.calm Uid.ofNat) toyCrypto
        (script (.calm Uid.ofNat) toyCrypto (.init .bare) confirmedUpload) confirmedWorld row := by
  have hunmarked : ∀ s ∈ script (.calm Uid.ofNat) toyCrypto (.init .bare) confirmedUpload,
      (∀ row ∈ s.before.files.rows, row.verified ≠ 1) ∧
        (s.header.code = Constants.validCrc →
          s.payload = (confirmRequest (Uid.ofNat 1) [0x66]).2) := by
    rw [confirmedUpload_eq, script_concat, handleAll_upload, List.forall_mem_append,
      List.forall_mem_singleton]
    decide +kernel
  have hname : finalName (confirmRequest (Uid.ofNat 1) [0x66]).2 = some ['f'] :=
    finalName_confirmRequest _ (by decide) (by decide) (by decide)
  have happroved : ∀ row ∈ confirmedWorld.files, row.verified = 1 →
      Approved (.calm Uid.ofNat) toyCrypto
        (script (.calm Uid.ofNat) toyCrypto (.init .bare) confirmedUpload) confirmedWorld row := by
    refine @verified_never_stale _ _ .bare _ _ (run_script _ _ fun s hs => ?_)
    obtain ⟨hfiles, hpayload⟩ := hunmarked s hs
    refine Step.careful_of_unmarked hfiles fun hcode hempty => ?_
    rw [hpayload hcode, hname] at hempty
    cases hempty
  obtain ⟨row, hrow, hverified⟩ : ∃ row ∈ confirmedWorld.files.rows, row.verified = 1 := by
    rw [confirmedWorld, handleAll_confirmedUpload]
    decide +kernel
  exact ⟨row, hrow, hverified, happroved row hrow hverified⟩

/-! ## What goes wrong -/

theorem World.FileOf.unique {uid : Uid} {name : Str} {loc loc' : Location}
    (h : w.FileOf env uid name loc) (h' : w.FileOf env uid name loc') : loc = loc' := by
  obtain ⟨user, huser, rfl⟩ := h
  obtain ⟨user', huser', rfl⟩ := h'
  rw [huser.unique huser']

/-- **A careless upload leaves a stale mark**: the row survives it as it was. -/
theorem stale_after_opens {s : Step} {row : FileRow} {loc : Location}
    (hrow : row ∈ s.before.files) (hfile : s.before.FileOf env row.uuid row.fileName loc)
    (hopens : s.Opens env crypto loc) :
    row ∈ (s.after env crypto).files ∧
      ¬ Approved env crypto (hist ++ [s]) (s.after env crypto) row := by
  have hcode : s.header.code = Constants.sendFile := hopens.2.1
  constructor
  · refine Step.files_invariant (J := fun files => row ∈ files) hrow ?_ ?_ ?_
    · rintro - files user name - - hfiles
      exact Table.mem_insertOrIgnore.mpr (.inl hfiles)
    · intro hvalid
      rw [hcode] at hvalid
      cases hvalid
    · intro hexit
      rw [hcode] at hexit
      cases hexit
  · rintro ⟨pre, c, post, loc', hsplit, hconfirm, -, hfile', hpost, -⟩
    obtain rfl : loc = loc' := (Step.fileOf_after hfile).unique hfile'
    rcases List.eq_nil_or_concat post with rfl | ⟨post, e, rfl⟩
    · -- the upload is not the confirmation
      obtain ⟨-, hlast⟩ := List.append_inj' hsplit rfl
      obtain rfl : s = c := by simpa using hlast
      rw [hconfirm.1] at hcode
      cases hcode
    · rw [List.concat_eq_append, ← List.cons_append, ← List.append_assoc] at hsplit
      obtain ⟨-, hlast⟩ := List.append_inj' hsplit rfl
      obtain rfl : s = e := by simpa using hlast
      have hmem : s ∈ post.concat s := by simp
      exact hpost s hmem ⟨hcode, (Step.touches_upload_iff hcode).mpr hopens⟩

/-- The same client uploads `f` again. -/
def reupload : Step :=
  ⟨(uploadRequest (Uid.ofNat 1) [0x66]).1, (uploadRequest (Uid.ofNat 1) [0x66]).2,
    confirmedWorld⟩

/-- The row of `f`, marked. -/
def markedRow : FileRow := ⟨Uid.ofNat 1, ['f'], ['/', 'b', '/', 'u'], 1⟩

/-- **The second upload goes unnoticed.** -/
theorem reupload_leaves_mark :
    ∃ hist, Run (.calm Uid.ofNat) toyCrypto (fun _ => True) (.init .bare) (hist ++ [reupload])
        (reupload.after (.calm Uid.ofNat) toyCrypto) ∧
      ¬ ∀ row ∈ (reupload.after (.calm Uid.ofNat) toyCrypto).files, row.verified = 1 →
        Approved (.calm Uid.ofNat) toyCrypto (hist ++ [reupload])
          (reupload.after (.calm Uid.ofNat) toyCrypto) row := by
  have hrequest : reqSelect (.calm Uid.ofNat) toyCrypto reupload.header reupload.payload = _ :=
    Saving.reqSelect_uploadRequest (.calm Uid.ofNat) toyCrypto (Uid.ofNat 1)
      (show utf8Encode ['f'] = [0x66] by decide) (by decide) (by decide)
  obtain ⟨hrow, huser, htouches⟩ : markedRow ∈ reupload.before.files.rows ∧
      (Uid.ofNat 1, ['u', '\x00']) ∈ reupload.before.names ∧
      [['b'], ['u'], ['f']] ∈ reupload.touches (.calm Uid.ofNat) toyCrypto := by
    have hbefore : reupload.before = confirmedWorld := by dsimp only [reupload]
    rw [Step.touches, hrequest, hbefore, confirmedWorld, handleAll_confirmedUpload]
    decide +kernel
  have hfile : reupload.before.FileOf (.calm Uid.ofNat) (Uid.ofNat 1) ['f']
      [['b'], ['u'], ['f']] := ⟨['u', '\x00'], huser, by decide +kernel⟩
  have hopens : reupload.Opens (.calm Uid.ofNat) toyCrypto [['b'], ['u'], ['f']] :=
    (Step.touches_upload_iff rfl).mp htouches
  obtain ⟨hist, hrun⟩ : ∃ hist, Run (.calm Uid.ofNat) toyCrypto (fun _ => True) (.init .bare) hist
      reupload.before := by
    dsimp only [reupload, confirmedWorld]
    exact ⟨_, run_script _ _ fun _ _ => trivial⟩
  refine ⟨hist, .event hrun trivial, fun hfresh => ?_⟩
  obtain ⟨hkept, hstale⟩ :=
    @stale_after_opens _ _ hist _ _ _ (Table.mem_rows.mp hrow) hfile hopens
  exact hstale (hfresh markedRow hkept rfl)

end FileTransfer.Server
