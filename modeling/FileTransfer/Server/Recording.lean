import FileTransfer.Server.FilesTable
import FileTransfer.Server.Saving

/-!
# Which uploads are recorded

An upload that is answered with 1603 should leave a row that a later
confirmation can mark. Whether it does is decided by the rows the client had
before: the primary key admits one row per client, and `INSERT OR IGNORE` says
nothing about the second one.
-/

namespace FileTransfer.Server

open FileTransfer.Effect

namespace Step

variable (env : Env) (crypto : Crypto) (s : Step) (name : Str)

/-- The upload `s` of `name` is recorded: its row is there right afterwards, and
however long a confirmation that is answered with 1604 takes, as long as the
upload is not aborted the row is then marked. -/
def Recorded : Prop :=
  (∃ row ∈ (s.after env crypto).files, row.uuid = s.header.uid ∧ row.fileName = name) ∧
  ∀ hist (t : Step), Run env crypto (fun e => ¬ e.Aborts s.header.uid name)
      (s.after env crypto) hist t.before →
    t.Confirms s.header.uid name → t.Answered env crypto Constants.fileApproval →
    ∃ row ∈ (t.after env crypto).files,
      row.uuid = s.header.uid ∧ row.fileName = name ∧ row.verified = 1

variable {env crypto s name}

/-- A row stays until its upload is aborted. -/
theorem row_stays {uid : Uid} (h : ¬ s.Aborts uid name)
    (hrow : ∃ row ∈ s.before.files, row.uuid = uid ∧ row.fileName = name) :
    ∃ row ∈ (s.after env crypto).files, row.uuid = uid ∧ row.fileName = name := by
  refine files_invariant (J := fun files => ∃ row ∈ files, row.uuid = uid ∧ row.fileName = name)
    hrow ?_ ?_ ?_
  · rintro - files user name' - - ⟨row, hmem, hkey⟩
    exact ⟨row, Table.mem_insertOrIgnore.mpr (.inl hmem), hkey⟩
  · rintro - files name' - ⟨row, hmem, huid, hname⟩
    refine ⟨_, mem_markVerified.mpr ⟨row, hmem, rfl⟩, ?_⟩
    split
    · exact ⟨huid, hname⟩
    · exact ⟨huid, hname⟩
  · rintro hcode files name' hname' ⟨row, hmem, huid, hname⟩
    refine ⟨row, mem_dropUnverified.mpr ⟨hmem, ?_⟩, huid, hname⟩
    rintro ⟨-, huid', hsame⟩
    rw [hname] at hsame
    exact h ⟨hcode, huid'.symm.trans huid, hsame ▸ hname'⟩

/-- **Which uploads are recorded**: exactly those of a client that had no row
under another name. -/
theorem upload_recorded_iff (hcode : s.header.code = Constants.sendFile)
    (hname : uploadName s.payload = some name)
    (hanswer : s.Answered env crypto Constants.validFileCrc) :
    s.Recorded env crypto name ↔
      ∀ row ∈ s.before.files, row.uuid = s.header.uid → row.fileName = name := by
  obtain ⟨name', path, hname', hfiles⟩ := files_after_upload hcode hanswer
  obtain rfl : name = name' := Option.some.inj (hname.symm.trans hname')
  constructor
  · rintro ⟨⟨row, hrow, huid, hrowname⟩, -⟩ row' hrow' huid'
    -- the row under the other name would have the same key
    have hkept : row' ∈ (s.after env crypto).files := by
      rw [hfiles]
      exact Table.mem_insertOrIgnore.mpr (.inl hrow')
    rw [Table.eq_of_key_eq hkept hrow (huid'.trans huid.symm)]
    exact hrowname
  · intro honly
    have hrow : ∃ row ∈ (s.after env crypto).files,
        row.uuid = s.header.uid ∧ row.fileName = name := by
      rw [hfiles]
      by_cases hfirst : ∃ row ∈ s.before.files, row.uuid = s.header.uid
      · obtain ⟨row, hmem, huid⟩ := hfirst
        exact ⟨row, Table.mem_insertOrIgnore.mpr (.inl hmem), huid, honly row hmem huid⟩
      · refine ⟨_, Table.mem_insertOrIgnore.mpr (.inr ⟨rfl, ?_⟩), rfl, rfl⟩
        exact fun row hmem huid => hfirst ⟨row, hmem, huid⟩
    refine ⟨hrow, fun hist t hrun hconfirm hanswer' => ?_⟩
    obtain ⟨row, hmem, huid, hrowname⟩ := hrun.invariant
      (I := fun w => ∃ row ∈ w.files, row.uuid = s.header.uid ∧ row.fileName = name)
      hrow fun e he => row_stays he
    obtain ⟨hvalid, hheader, hfinal⟩ := hconfirm
    rcases files_after_validCrc hvalid with ⟨-, hnot⟩ | ⟨-, -, -, final, hfinal', hmarked⟩
    · exact absurd hanswer' hnot
    obtain rfl : name = final := Option.some.inj (hfinal.symm.trans hfinal')
    refine ⟨{ row with verified := 1 }, ?_, huid, hrowname, rfl⟩
    rw [hmarked, mem_markVerified]
    exact ⟨row, hmem, if_pos ⟨huid.trans hheader.symm, .inr hrowname⟩⟩

end Step

/-! ## One client, two files -/

/-- A client `u` registers and exchanges keys. -/
def arrival : List (Header × Bytes) :=
  [request (Uid.ofNat 0) 825 [0x75, 0x00], keyRequest (Uid.ofNat 1)]

/-- It uploads `f`. -/
def firstUpload : Step :=
  ⟨(uploadRequest (Uid.ofNat 1) [0x66]).1, (uploadRequest (Uid.ofNat 1) [0x66]).2,
    handleAll (.calm Uid.ofNat) toyCrypto (.init .bare) arrival⟩

/-- Then it uploads `g`. -/
def secondUpload : Step :=
  ⟨(uploadRequest (Uid.ofNat 1) [0x67]).1, (uploadRequest (Uid.ofNat 1) [0x67]).2,
    handleAll (.calm Uid.ofNat) toyCrypto (.init .bare)
      (arrival ++ [uploadRequest (Uid.ofNat 1) [0x66]])⟩

theorem firstUpload_recorded_iff :
    firstUpload.Recorded (.calm Uid.ofNat) toyCrypto ['f'] ↔
      ∀ row ∈ firstUpload.before.files, row.uuid = firstUpload.header.uid →
        row.fileName = ['f'] := by
  have hserve : serve (.calm Uid.ofNat) toyCrypto firstUpload.header firstUpload.payload
      firstUpload.before = _ :=
    Saving.serve_uploadRequest (.calm Uid.ofNat) toyCrypto (Uid.ofNat 1)
      (show utf8Encode ['f'] = [0x66] by decide) (by decide) (by decide) firstUpload.before
  have hanswer : firstUpload.Answered (.calm Uid.ofNat) toyCrypto 1603 := by
    rw [Step.Answered, Step.answer, hserve]
    decide +kernel
  exact Step.upload_recorded_iff rfl
    (uploadName_uploadRequest (Uid.ofNat 1) (by decide) (by decide) (by decide)) hanswer

/-- **The second file is not recorded.** In a world that three requests lead to,
the upload of `g` is answered with 1603, and no row carries its name. -/
theorem second_file_is_not_recorded :
    (∃ hist, Run (.calm Uid.ofNat) toyCrypto (fun _ => True) (.init .bare) hist
      secondUpload.before) ∧
    secondUpload.header.code = 828 ∧ uploadName secondUpload.payload = some ['g'] ∧
    secondUpload.Answered (.calm Uid.ofNat) toyCrypto 1603 ∧
    ¬ secondUpload.Recorded (.calm Uid.ofNat) toyCrypto ['g'] := by
  have hbefore : secondUpload.before = _ := Eq.trans (by dsimp only [secondUpload])
    (Saving.handleAll_uploadRequest (.calm Uid.ofNat) toyCrypto (Uid.ofNat 1)
      (show utf8Encode ['f'] = [0x66] by decide) (by decide) (by decide) (.init .bare) arrival)
  have hserve : serve (.calm Uid.ofNat) toyCrypto secondUpload.header secondUpload.payload
      secondUpload.before = _ :=
    Saving.serve_uploadRequest (.calm Uid.ofNat) toyCrypto (Uid.ofNat 1)
      (show utf8Encode ['g'] = [0x67] by decide) (by decide) (by decide) secondUpload.before
  obtain ⟨hanswered, honly⟩ : secondUpload.Answered (.calm Uid.ofNat) toyCrypto 1603 ∧
      ∀ row ∈ (secondUpload.after (.calm Uid.ofNat) toyCrypto).files.rows,
        row.fileName = ['f'] := by
    rw [Step.Answered, Step.answer, Step.after, hserve, hbefore]
    decide +kernel
  have hname : uploadName secondUpload.payload = some ['g'] :=
    uploadName_uploadRequest (Uid.ofNat 1) (by decide) (by decide) (by decide)
  refine ⟨?_, rfl, hname, hanswered, ?_⟩
  · dsimp only [secondUpload]
    exact ⟨_, run_script _ _ fun _ _ => trivial⟩
  · rintro ⟨⟨row, hrow, -, hname⟩, -⟩
    rw [honly row hrow] at hname
    cases hname

end FileTransfer.Server
