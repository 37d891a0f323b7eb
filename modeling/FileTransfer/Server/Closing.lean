import FileTransfer.Server.Dangling
import FileTransfer.Server.Sessions

/-!
# How an upload is closed

A confirmation (900) marks the row of the file, an abort (902) removes the file and
the row. Neither looks at what the database or `os.remove` has to say about it: the
count of affected rows is dropped, and so is the error response of a removal that
failed. What the answer 1604 says is true when there was a row to mark, or when the
file could be removed and the row was one that an abort deletes.
-/

namespace FileTransfer.Server

open FileTransfer.Effect
open FileTransfer.PurePath

namespace Step

variable (env : Env) (crypto : Crypto) (s : Step)

/-! ## A confirmation -/

/-- The request is answered with 1604, the row of the file it names is marked, and
nothing else is changed; or it is answered with 1607 and nothing is changed. -/
def ConfirmsExactly : Prop :=
  (s.after env crypto).clients = s.before.clients ∧
  (s.Answered env crypto Constants.fileApproval ∧ (∃ name, finalName s.payload = some name ∧
      (∃ row ∈ (s.after env crypto).files,
        row.uuid = s.header.uid ∧ row.fileName = name ∧ row.verified = 1) ∧
      ∀ row, ¬ (row.uuid = s.header.uid ∧ row.fileName = name) →
        (row ∈ (s.after env crypto).files ↔ row ∈ s.before.files)) ∨
    s.Answered env crypto Constants.generalError ∧ (s.after env crypto).files = s.before.files)

/-- If the request gets as far as marking rows, there is a row of the client for the
file it names. -/
def NamesRow : Prop :=
  s.header.version = Constants.version → env.queryFails s.before.tick = false →
    ∀ name, finalName s.payload = some name →
      ∃ row ∈ s.before.files, row.uuid = s.header.uid ∧ row.fileName = name

variable {env crypto s}

/-- Marking the rows of a name that has a row changes this row and no other: it is
the only one of its client. -/
theorem mem_markVerified_of_row {files : Table FileRow.uuid} {uid : Uid} {name : Str}
    {row₀ row : FileRow} (hrow₀ : row₀ ∈ files) (huid : row₀.uuid = uid)
    (hname : row₀.fileName = name) (hother : ¬ (row.uuid = uid ∧ row.fileName = name)) :
    row ∈ markVerified files uid name ↔ row ∈ files := by
  rw [mem_markVerified]
  constructor
  · intro h
    obtain ⟨r, hr, hmark⟩ := h
    by_cases hmarked : r.uuid = uid ∧ (name = [] ∨ r.fileName = name)
    · -- a marked row has the uuid of `row₀`, so it is that row
      obtain rfl : r = row₀ := Table.eq_of_key_eq hr hrow₀ (hmarked.1.trans huid.symm)
      rw [if_pos hmarked] at hmark
      subst hmark
      exact absurd ⟨huid, hname⟩ hother
    · rw [if_neg hmarked] at hmark
      exact hmark ▸ hr
  · intro hrow
    refine ⟨row, hrow, if_neg fun hmarked => hother ⟨hmarked.1, ?_⟩⟩
    rw [Table.eq_of_key_eq hrow hrow₀ (hmarked.1.trans huid.symm)]
    exact hname

/-- **What a confirmation does**, exactly: it is what the answer says if and only if
there is a row to mark. -/
theorem confirmsExactly_iff (hcode : s.header.code = Constants.validCrc) :
    s.ConfirmsExactly env crypto ↔ s.NamesRow env := by
  have hclients : (s.after env crypto).clients = s.before.clients :=
    clients_after_other (by rw [hcode]; decide) (by rw [hcode]; decide) (by rw [hcode]; decide)
  rcases @validCrc_cases env crypto s hcode with
    ⟨hfiles, hanswer, hreason⟩ | ⟨hversion, hquery, hanswer, name, hname, hfiles⟩
  · refine iff_of_true ⟨hclients, .inr ⟨hanswer, hfiles⟩⟩ fun hversion hquery name hname => ?_
    rw [hreason hversion hquery] at hname
    cases hname
  · constructor
    · intro h _ _ name' hname'
      rcases h.2 with ⟨-, name'', hname'', ⟨row, hrow, huid, hfile, -⟩, -⟩ | ⟨herror, -⟩
      · obtain rfl : name' = name'' := Option.some.inj (hname'.symm.trans hname'')
        -- a row keeps its name when it is marked
        rw [hfiles] at hrow
        obtain ⟨r, hr, rfl⟩ := mem_markVerified.mp hrow
        refine ⟨r, hr, ?_⟩
        split at huid
        · next hmarked =>
          rw [if_pos hmarked] at hfile
          exact ⟨huid, hfile⟩
        · next hmarked =>
          rw [if_neg hmarked] at hfile
          exact ⟨huid, hfile⟩
      · have hboth := herror.symm.trans hanswer
        cases hboth
    · intro h
      obtain ⟨row, hrow, huid, hfile⟩ := h hversion hquery name hname
      refine ⟨hclients, .inl ⟨hanswer, name, hname, ?_, fun row' hother => ?_⟩⟩
      · rw [hfiles]
        exact ⟨_, mem_markVerified.mpr ⟨row, hrow, if_pos ⟨huid, .inr hfile⟩⟩, huid, hfile, rfl⟩
      · rw [hfiles]
        exact mem_markVerified_of_row hrow huid hfile hother

end Step

/-- A client that uploaded `f` confirms it. -/
def timelyConfirm : Step :=
  ⟨(confirmRequest (Uid.ofNat 1) [0x66]).1, (confirmRequest (Uid.ofNat 1) [0x66]).2,
    handleAll (.calm Uid.ofNat) toyCrypto (.init .bare)
      (enrolment ++ [uploadRequest (Uid.ofNat 1) [0x66]])⟩

theorem timelyConfirm_confirms :
    timelyConfirm.Answered (.calm Uid.ofNat) toyCrypto 1604 ∧
      timelyConfirm.ConfirmsExactly (.calm Uid.ofNat) toyCrypto := by
  have hbefore : timelyConfirm.before = _ :=
    Eq.trans (by dsimp only [timelyConfirm, enrolment]) (handleAll_upload (.calm Uid.ofNat))
  have hserve : serve (.calm Uid.ofNat) toyCrypto timelyConfirm.header timelyConfirm.payload
      timelyConfirm.before = _ :=
    serve_confirmRequest (.calm Uid.ofNat) toyCrypto (Uid.ofNat 1)
      (show utf8Encode ['f'] = [0x66] by decide) (by decide) (by decide) timelyConfirm.before
  obtain ⟨hanswer, hrow⟩ : timelyConfirm.Answered (.calm Uid.ofNat) toyCrypto 1604 ∧
      ∃ row ∈ timelyConfirm.before.files.rows,
        row.uuid = timelyConfirm.header.uid ∧ row.fileName = ['f'] := by
    rw [Step.Answered, Step.answer, hserve, hbefore]
    decide +kernel
  have hfinal : finalName timelyConfirm.payload = some ['f'] :=
    finalName_confirmRequest (Uid.ofNat 1) (by decide) (by decide) (by decide)
  refine ⟨hanswer, (Step.confirmsExactly_iff rfl).mpr fun _ _ name hname => ?_⟩
  obtain rfl : ['f'] = name := Option.some.inj (hfinal.symm.trans hname)
  exact hrow

/-- A client that uploaded nothing confirms `a`. -/
def strayConfirm : Step :=
  ⟨(confirmRequest (Uid.ofNat 1) [0x61]).1, (confirmRequest (Uid.ofNat 1) [0x61]).2,
    handleAll (.calm Uid.ofNat) toyCrypto (.init .bare) enrolment⟩

/-- **It is told that the file is approved**, and there is no row at all. -/
theorem strayConfirm_approved :
    (∃ hist, Run (.calm Uid.ofNat) toyCrypto (fun _ => True) (.init .bare) hist
      strayConfirm.before) ∧
    strayConfirm.header.code = 900 ∧ finalName strayConfirm.payload = some ['a'] ∧
    strayConfirm.Answered (.calm Uid.ofNat) toyCrypto 1604 ∧
    (strayConfirm.after (.calm Uid.ofNat) toyCrypto).files.rows = [] ∧
    ¬ strayConfirm.ConfirmsExactly (.calm Uid.ofNat) toyCrypto := by
  have hserve : serve (.calm Uid.ofNat) toyCrypto strayConfirm.header strayConfirm.payload
      strayConfirm.before = _ :=
    serve_confirmRequest (.calm Uid.ofNat) toyCrypto (Uid.ofNat 1)
      (show utf8Encode ['a'] = [0x61] by decide) (by decide) (by decide) strayConfirm.before
  obtain ⟨hanswer, hempty⟩ : strayConfirm.Answered (.calm Uid.ofNat) toyCrypto 1604 ∧
      (strayConfirm.after (.calm Uid.ofNat) toyCrypto).files.rows = [] := by
    rw [Step.Answered, Step.answer, Step.after, hserve]
    decide +kernel
  refine ⟨?_, rfl, finalName_confirmRequest (Uid.ofNat 1) (by decide) (by decide) (by decide),
    hanswer, hempty, fun h => ?_⟩
  · dsimp only [strayConfirm]
    exact ⟨_, run_script _ _ fun _ _ => trivial⟩
  · rcases h.2 with ⟨-, -, -, ⟨row, hrow, -⟩, -⟩ | ⟨herror, -⟩
    · rw [Table.mem_rows.symm, hempty] at hrow
      cases hrow
    · exact absurd (Option.some.inj (hanswer.symm.trans herror)) (by decide)

/-! ## An abort -/

/-- The file `name` is in the directory of the client `uid`: it can be read there. -/
def World.HasFile (env : Env) (w : World) (uid : Uid) (name : Str) : Prop :=
  ∃ user, w.Registered uid user ∧
    ∃ content, w.disk.read ((userDir env user).join name) = .ok content

/-- The rows of the client `uid` for the file `name`; there is one at most. -/
def World.rowsOf (w : World) (uid : Uid) (name : Str) : List FileRow :=
  w.files.rows.filter fun row => decide (row.uuid = uid ∧ row.fileName = name)

namespace Step

variable (env : Env) (crypto : Crypto) (s : Step)

/-- The abort of `name` says what it did: answered with 1604, neither the file nor a
row is left; and where the file is still there, the answer is 1607 and the rows are
what they were. -/
structure AbortsHonestly (name : Str) : Prop where
  approved : s.Answered env crypto Constants.fileApproval →
    ¬ (s.after env crypto).HasFile env s.header.uid name ∧
      (s.after env crypto).rowsOf s.header.uid name = []
  failed : (s.after env crypto).HasFile env s.header.uid name →
    s.Answered env crypto Constants.generalError ∧
      (s.after env crypto).rowsOf s.header.uid name = s.before.rowsOf s.header.uid name

/-- Before the abort deletes rows, two operations are behind it, or one if there was
no user name to build a path from. -/
def deleteTick : Nat :=
  if env.queryFails s.before.tick ∨ s.before.clients.find? (·.uuid = s.header.uid) = none then
    s.before.tick + 1
  else s.before.tick + 2

/-- If the abort gets as far as deleting rows, it removed the file, if there was one,
and the row is not verified. -/
def AbortsWell (name : Str) : Prop :=
  s.header.version = Constants.version → env.queryFails (s.deleteTick env) = false →
    (s.before.HasFile env s.header.uid name → ∃ loc, s.Removes env loc) ∧
      ∀ row ∈ s.before.rowsOf s.header.uid name, row.verified = 0

end Step

section Removal

variable {env : Env} {w : World} {uid : Uid} {name : Str}

theorem mem_rowsOf {row : FileRow} :
    row ∈ w.rowsOf uid name ↔ row ∈ w.files ∧ row.uuid = uid ∧ row.fileName = name := by
  rw [World.rowsOf, List.mem_filter, decide_eq_true_iff, Table.mem_rows]

/-- A file that was removed cannot be read. -/
theorem not_read_of_remove {d d' : Disk} {p : PurePath} (h : d.remove p = .ok d')
    {content : Bytes} : d'.read p ≠ .ok content := by
  intro hread
  have hgone : d'.fileAt p.resolve = none := by
    rw [Disk.fileAt, (Disk.remove_ok h).2, Function.update_self]
  simp only [Disk.read] at hread
  split at hread
  · cases hread
  · next loc hloc =>
    rw [Disk.locate_eq_resolve hloc, hgone] at hread
    cases hread

/-- What the removal leaves alone, and how long it takes. -/
theorem afterRemoval_spec :
    (afterRemoval env w uid name).files = w.files ∧
      (afterRemoval env w uid name).clients = w.clients ∧
      (afterRemoval env w uid name).tick =
        if env.queryFails w.tick ∨ w.clients.find? (·.uuid = uid) = none then w.tick + 1
        else w.tick + 2 := by
  have hremove : ∀ p w, (exec env (.remove p) w).2.files = w.files ∧
      (exec env (.remove p) w).2.clients = w.clients ∧
      (exec env (.remove p) w).2.tick = w.tick + 1 := by
    intro p w
    simp only [exec]
    split
    · exact ⟨rfl, rfl, rfl⟩
    · cases w.disk.remove p with
      | error e => exact ⟨rfl, rfl, rfl⟩
      | ok d => exact ⟨rfl, rfl, rfl⟩
  rw [afterRemoval]
  by_cases hfails : env.queryFails w.tick
  · rw [if_pos hfails, if_pos (.inl hfails)]
    exact ⟨rfl, rfl, rfl⟩
  · rw [if_neg hfails]
    cases hrow : w.clients.find? (·.uuid = uid) with
    | none =>
      rw [if_pos (.inr rfl)]
      exact ⟨rfl, rfl, rfl⟩
    | some row =>
      have hfound : ¬ (env.queryFails w.tick = true ∨ some row = none) := by simp [hfails]
      rw [if_neg hfound]
      obtain ⟨hfiles, hclients, htick⟩ :=
        hremove ((userDir env row.userName).join name) w.ticked
      exact ⟨hfiles, hclients, htick⟩

end Removal

namespace Step

variable {env : Env} {crypto : Crypto} {s : Step} {name : Str}

/-- What is served for an abort, from the world before it. -/
theorem serve_deletes (hversion : s.header.version = Constants.version)
    (hcode : s.header.code = Constants.exitCrc) (hname : finalName s.payload = some name) :
    serve env crypto s.header s.payload s.before =
      if env.queryFails (s.deleteTick env) then (.ok (.response errorResponse),
        (afterRemoval env s.before s.header.uid name).ticked)
      else (.ok (.response (uidResponse Constants.fileApproval s.header.uid)),
        { (afterRemoval env s.before s.header.uid name).ticked with
          files := dropUnverified s.before.files s.header.uid name }) := by
  obtain ⟨hfiles, -, htick⟩ := @afterRemoval_spec env s.before s.header.uid name
  rw [serve_exitCrc hversion hcode hname, htick, hfiles, ← deleteTick]

/-- An abort that removes no file leaves the disk alone. -/
theorem disk_afterRemoval (hversion : s.header.version = Constants.version)
    (hcode : s.header.code = Constants.exitCrc) (hname : finalName s.payload = some name)
    (hremoves : ¬ ∃ loc, s.Removes env loc) :
    (afterRemoval env s.before s.header.uid name).disk = s.before.disk := by
  rw [afterRemoval]
  by_cases hfails : env.queryFails s.before.tick
  · rw [if_pos hfails]
    rfl
  · rw [if_neg hfails]
    cases hrow : s.before.clients.find? (·.uuid = s.header.uid) with
    | none => rfl
    | some row =>
      simp only [exec]
      cases hfault : env.diskFault s.before.ticked.tick with
      | some fault => rfl
      | none =>
        cases hremove : s.before.disk.remove ((userDir env row.userName).join name) with
        | error e => simp [World.ticked, hremove, Except.map, diskReply]
        | ok d =>
          refine absurd ⟨_, hversion, hcode, name, row, hname, hrow, by simpa using hfails,
            hfault, ?_, rfl⟩ hremoves
          rw [hremove]
          rfl

/-- The file is there after the removal if it was there and could not be removed. -/
theorem hasFile_afterRemoval (hversion : s.header.version = Constants.version)
    (hcode : s.header.code = Constants.exitCrc) (hname : finalName s.payload = some name)
    {w : World} (hdisk : w.disk = (afterRemoval env s.before s.header.uid name).disk)
    (hclients : w.clients = (afterRemoval env s.before s.header.uid name).clients) :
    w.HasFile env s.header.uid name ↔
      s.before.HasFile env s.header.uid name ∧ ¬ ∃ loc, s.Removes env loc := by
  have hregistered : w.Registered = s.before.Registered := by
    funext uid user
    rw [World.Registered, World.Registered, World.names, World.names, hclients,
      afterRemoval_spec.2.1]
  rw [World.HasFile, World.HasFile, hdisk, hregistered]
  by_cases hremoves : ∃ loc, s.Removes env loc
  · refine iff_of_false ?_ fun h => h.2 hremoves
    obtain ⟨-, -, -, name', row, hname', hrow, hquery, hfault, hok, -⟩ := hremoves
    obtain rfl : name = name' := Option.some.inj (hname.symm.trans hname')
    cases hremove : s.before.disk.remove ((userDir env row.userName).join name) with
    | error e =>
      rw [hremove] at hok
      cases hok
    | ok d =>
      rw [afterRemoval_removed hrow hquery hfault hremove]
      intro h
      obtain ⟨user, huser, content, hread⟩ := h
      -- the client has one user name, so it is the path that was removed
      obtain rfl := huser.unique (registered_of_find? hrow)
      exact not_read_of_remove hremove hread
  · rw [disk_afterRemoval hversion hcode hname hremoves]
    exact (and_iff_left hremoves).symm

/-- An abort deletes the rows that are not verified. -/
theorem rowsOf_dropUnverified {w w' : World} {uid : Uid}
    (hfiles : w'.files = dropUnverified w.files uid name) :
    w'.rowsOf uid name = [] ↔ ∀ row ∈ w.rowsOf uid name, row.verified = 0 := by
  rw [List.eq_nil_iff_forall_not_mem]
  constructor
  · intro h row hrow
    obtain ⟨hmem, huid, hfile⟩ := mem_rowsOf.mp hrow
    by_contra hverified
    refine h row (mem_rowsOf.mpr ⟨?_, huid, hfile⟩)
    rw [hfiles]
    exact mem_dropUnverified.mpr ⟨hmem, fun hdropped => hverified hdropped.1⟩
  · intro h row hrow
    obtain ⟨hmem, huid, hfile⟩ := mem_rowsOf.mp hrow
    rw [hfiles] at hmem
    obtain ⟨hmem, hkept⟩ := mem_dropUnverified.mp hmem
    exact hkept ⟨h row (mem_rowsOf.mpr ⟨hmem, huid, hfile⟩), huid, hfile⟩

/-- An abort that is refused and keeps the rows is honest. -/
theorem abortsHonestly_of_refused (hanswer : s.Answered env crypto Constants.generalError)
    (hfiles : (s.after env crypto).files = s.before.files) :
    s.AbortsHonestly env crypto name := by
  refine ⟨fun happroved => ?_, fun _ => ⟨hanswer, ?_⟩⟩
  · have hboth : Constants.fileApproval = Constants.generalError :=
      Option.some.inj (happroved.symm.trans hanswer)
    exact absurd hboth (by decide)
  · rw [World.rowsOf, World.rowsOf, hfiles]

/-- **When an abort is honest**: exactly if it deletes no rows at all, or deletes the
one it is about and removed the file before. -/
theorem abortsHonestly_iff (hcode : s.header.code = Constants.exitCrc)
    (hname : finalName s.payload = some name) :
    s.AbortsHonestly env crypto name ↔ s.AbortsWell env name := by
  by_cases hversion : s.header.version = Constants.version
  · have hserve := @serve_deletes env crypto s name hversion hcode hname
    by_cases hfails : env.queryFails (s.deleteTick env)
    · rw [if_pos hfails] at hserve
      have hanswer : s.Answered env crypto Constants.generalError := by
        rw [Answered, answer, hserve]
        exact congrArg some responseCode_errorResponse
      have hfiles : (s.after env crypto).files = s.before.files := by
        rw [after, hserve]
        exact afterRemoval_spec.1
      refine iff_of_true (abortsHonestly_of_refused hanswer hfiles) fun _ hworks => ?_
      rw [hfails] at hworks
      cases hworks
    · rw [if_neg hfails] at hserve
      have hanswer : s.Answered env crypto Constants.fileApproval := by
        rw [Answered, answer, hserve]
        exact congrArg some (responseCode_uidResponse (by decide) _)
      have hfile : (s.after env crypto).HasFile env s.header.uid name ↔
          s.before.HasFile env s.header.uid name ∧ ¬ ∃ loc, s.Removes env loc :=
        hasFile_afterRemoval hversion hcode hname (by rw [after, hserve]; rfl)
          (by rw [after, hserve]; rfl)
      have hrows : (s.after env crypto).rowsOf s.header.uid name = [] ↔
          ∀ row ∈ s.before.rowsOf s.header.uid name, row.verified = 0 :=
        rowsOf_dropUnverified (by rw [after, hserve])
      constructor
      · intro h _ _
        obtain ⟨hgone, hempty⟩ := h.approved hanswer
        refine ⟨fun hbefore => ?_, hrows.mp hempty⟩
        by_contra hnot
        exact hgone (hfile.mpr ⟨hbefore, hnot⟩)
      · intro h
        obtain ⟨hremoved, hunverified⟩ := h hversion (by simpa using hfails)
        have hgone : ¬ (s.after env crypto).HasFile env s.header.uid name := by
          intro hafter
          obtain ⟨hbefore, hnot⟩ := hfile.mp hafter
          exact hnot (hremoved hbefore)
        exact ⟨fun _ => ⟨hgone, hrows.mpr hunverified⟩, fun hafter => absurd hafter hgone⟩
  · have hserve : serve env crypto s.header s.payload s.before =
        (.ok (.response errorResponse), s.before) := by
      rw [serve, reqSelect, if_pos hversion]
      rfl
    have hanswer : s.Answered env crypto Constants.generalError := by
      rw [Answered, answer, hserve]
      exact congrArg some responseCode_errorResponse
    have hfiles : (s.after env crypto).files = s.before.files := by rw [after, hserve]
    exact iff_of_true (abortsHonestly_of_refused hanswer hfiles) fun h => absurd h hversion

end Step

/-- A client that uploaded `f` gives it up. -/
def timelyAbort (env : Env) : Step :=
  ⟨(abortRequest (Uid.ofNat 1) [0x66]).1, (abortRequest (Uid.ofNat 1) [0x66]).2,
    handleAll env toyCrypto (.init .bare) (enrolment ++ [uploadRequest (Uid.ofNat 1) [0x66]])⟩

theorem finalName_timelyAbort (env : Env) : finalName (timelyAbort env).payload = some ['f'] :=
  finalName_confirmRequest (Uid.ofNat 1) (by decide) (by decide) (by decide)

theorem timelyAbort_before (env : Env) : (timelyAbort env).before = uploadedWorld env :=
  Eq.trans (by dsimp only [timelyAbort, enrolment]) (handleAll_upload env)

theorem serve_timelyAbort (env : Env) :
    serve env toyCrypto (timelyAbort env).header (timelyAbort env).payload
        (timelyAbort env).before =
      if env.queryFails (afterRemoval env (uploadedWorld env) (Uid.ofNat 1) ['f']).tick then
        (.ok (.response errorResponse),
          (afterRemoval env (uploadedWorld env) (Uid.ofNat 1) ['f']).ticked)
      else (.ok (.response (uidResponse Constants.fileApproval (Uid.ofNat 1))),
        { (afterRemoval env (uploadedWorld env) (Uid.ofNat 1) ['f']).ticked with
          files := dropUnverified (afterRemoval env (uploadedWorld env) (Uid.ofNat 1) ['f']).files
            (Uid.ofNat 1) ['f'] }) := by
  rw [timelyAbort_before]
  exact serve_abortRequest env toyCrypto (Uid.ofNat 1) (by decide) (by decide) (by decide) _

theorem timelyAbort_is_honest :
    (timelyAbort (.calm Uid.ofNat)).Answered (.calm Uid.ofNat) toyCrypto 1604 ∧
      (timelyAbort (.calm Uid.ofNat)).AbortsHonestly (.calm Uid.ofNat) toyCrypto ['f'] := by
  obtain ⟨s, hs⟩ : ∃ s, s = timelyAbort (.calm Uid.ofNat) := ⟨_, rfl⟩
  obtain ⟨hanswer, hclient, hremove, hunverified⟩ : s.Answered (.calm Uid.ofNat) toyCrypto 1604 ∧
      (s.before.clients.find? (·.uuid = s.header.uid)).isSome ∧
      (∀ row ∈ s.before.clients.find? (·.uuid = s.header.uid),
        (s.before.disk.remove ((userDir (.calm Uid.ofNat) row.userName).join ['f'])).isOk) ∧
      ∀ row ∈ s.before.files.rows, row.verified = 0 := by
    rw [hs, Step.Answered, Step.answer, serve_timelyAbort, timelyAbort_before]
    decide +kernel
  have hname : finalName s.payload = some ['f'] := hs ▸ finalName_timelyAbort _
  rw [← hs]
  refine ⟨hanswer, (Step.abortsHonestly_iff (by rw [hs]; rfl) hname).mpr
    fun hversion _ => ⟨fun _ => ?_, fun row hrow => hunverified row (mem_rowsOf.mp hrow).1⟩⟩
  obtain ⟨row, hrow⟩ := Option.isSome_iff_exists.mp hclient
  exact ⟨_, hversion, by rw [hs]; rfl, ['f'], row, hname, hrow, rfl, rfl, hremove row hrow, rfl⟩

/-- An environment in which this removal is refused. -/
def Env.keepingFile : Env :=
  { Env.calm Uid.ofNat with diskFault := fun tick => if tick = 22 then some .refused else none }

/-- **The abort is approved, and the file is still there.** -/
theorem refusedAbort_approved :
    (∃ hist, Run .keepingFile toyCrypto (fun _ => True) (.init .bare) hist
      (timelyAbort .keepingFile).before) ∧
    (timelyAbort .keepingFile).header.code = 902 ∧
    finalName (timelyAbort .keepingFile).payload = some ['f'] ∧
    (timelyAbort .keepingFile).Answered .keepingFile toyCrypto 1604 ∧
    ((timelyAbort .keepingFile).after .keepingFile toyCrypto).HasFile .keepingFile (Uid.ofNat 1)
      ['f'] ∧
    ¬ (timelyAbort .keepingFile).AbortsHonestly .keepingFile toyCrypto ['f'] := by
  obtain ⟨hanswer, hread⟩ : (timelyAbort .keepingFile).Answered .keepingFile toyCrypto 1604 ∧
      ∃ row ∈ ((timelyAbort .keepingFile).after .keepingFile toyCrypto).clients.find?
          (·.uuid = Uid.ofNat 1),
        ((timelyAbort .keepingFile).after .keepingFile toyCrypto).disk.read
          ((userDir .keepingFile row.userName).join ['f']) = .ok [0x76, 0x31] := by
    rw [Step.Answered, Step.answer, Step.after, serve_timelyAbort]
    decide +kernel
  have hfile : ((timelyAbort .keepingFile).after .keepingFile toyCrypto).HasFile .keepingFile
      (Uid.ofNat 1) ['f'] := by
    obtain ⟨row, hrow, hcontent⟩ := hread
    exact ⟨row.userName, registered_of_find? hrow, [0x76, 0x31], hcontent⟩
  refine ⟨?_, rfl, finalName_timelyAbort _, hanswer, hfile, fun h => ?_⟩
  · dsimp only [timelyAbort]
    exact ⟨_, run_script _ _ fun _ _ => trivial⟩
  · exact (h.approved hanswer).1 hfile

end FileTransfer.Server
