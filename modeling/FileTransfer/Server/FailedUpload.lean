import FileTransfer.Server.Saving
import FileTransfer.Server.Verification

/-!
# What a failed upload leaves behind

An 828 is answered with 1607 whenever something raises, and nothing is undone
then. Up to the moment the file is opened nothing has been changed. From there on
an upload that fails leaves what was written of the file, in place of what the
file held before, and, if the last query is the one that fails, the row as well.
-/

namespace FileTransfer.Server

open FileTransfer.Effect

/-! ## When a rejected upload changes nothing -/

/-- The location is in the backup directory, or below it. -/
def Env.BacksUp (env : Env) (loc : Location) : Prop := env.backupPath.path.resolve <+: loc

/-- `w` has the files of the backup directory and the rows that `w₀` has. -/
def World.SameBackup (env : Env) (w₀ w : World) : Prop :=
  (∀ loc, env.BacksUp loc → w.disk.fileAt loc = w₀.disk.fileAt loc) ∧ w.files = w₀.files

/-- What a write of `file` leaves in the file it opens; `none` if it opens none. -/
def bytesWritten (file : Bytes) : Option DiskFault → Option Bytes
  | none => some file
  | some (.partialWrite n) => some (file.take n)
  | some .refused => none

namespace Step

variable (env : Env) (crypto : Crypto) (s : Step)

/-- If the step is answered with 1607, the backup is what it was. -/
def RejectsCleanly : Prop :=
  s.Answered env crypto Constants.generalError → s.before.SameBackup env (s.after env crypto)

/-- The upload opens the file at `loc`, and when the write is over `content` is in it. -/
def Leaves (loc : Location) (content : Bytes) : Prop :=
  s.header.version = Constants.version ∧
  ∃ name row file d d',
    uploadName s.payload = some name ∧
    s.before.clients.find? (·.uuid = s.header.uid) = some row ∧
    decrypted crypto row s.payload = .ok file ∧
    env.queryFails s.before.tick = false ∧ env.queryFails (s.before.tick + 1) = false ∧
    env.diskFault (s.before.tick + 2) = none ∧
    s.before.disk.mkdirs (userDir env row.userName) = (.ok (), d) ∧
    bytesWritten file (env.diskFault (s.before.tick + 3)) = some content ∧
    d.write ((userDir env row.userName).join name) content = .ok d' ∧
    loc = ((userDir env row.userName).join name).resolve

/-- The write completes, and so do the three queries behind it. -/
def Finishes : Prop :=
  env.diskFault (s.before.tick + 3) = none ∧ env.queryFails (s.before.tick + 4) = false ∧
    env.queryFails (s.before.tick + 5) = false ∧ env.queryFails (s.before.tick + 6) = false

/-- The write completes, and a row is added: the client has none. -/
def AddsRow : Prop :=
  env.diskFault (s.before.tick + 3) = none ∧ env.queryFails (s.before.tick + 4) = false ∧
    env.queryFails (s.before.tick + 5) = false ∧ ∀ row ∈ s.before.files, row.uuid ≠ s.header.uid

/-- If the upload gets as far as opening its file, it gets through, or it adds no row
and the file, if it is in the backup directory, held just these bytes. -/
def FailsCleanly : Prop :=
  ∀ loc content, s.Leaves env crypto loc content → s.Finishes env ∨
    (env.BacksUp loc → s.before.disk.fileAt loc = some content) ∧ ¬ s.AddsRow env

end Step

/-! ## The stages that may fail -/

namespace Saving

variable {env : Env} {crypto : Crypto} {uid : Uid} {payload : Bytes} {name : Str} {w₀ w : World}

/-- The program answers with 1607. -/
def Fails (env : Env) (p : Py Handled) (w : World) : Prop :=
  ∃ response, (Program.run (exec env) p w).1 = .ok (.response response) ∧
    responseCode response = Constants.generalError

/-- If it does, the backup is the one of `w₀`. -/
def Clean (env : Env) (w₀ : World) (p : Py Handled) (w : World) : Prop :=
  Fails env p w → w₀.SameBackup env (Program.run (exec env) p w).2

theorem clean_refused :
    Clean env w₀ (.ret (.response errorResponse)) w ↔ w₀.SameBackup env w := by
  constructor
  · intro h
    exact h ⟨errorResponse, rfl, responseCode_errorResponse⟩
  · intro h _
    exact h

theorem clean_perform {o : Op} {k : Except Raised o.Reply → Py Handled} :
    Clean env w₀ (.perform o k) w ↔ Clean env w₀ (k (exec env o w).1) (exec env o w).2 :=
  Iff.rfl

/-- A query that asks for the user name. -/
theorem clean_owner {next : Str → Py Handled} {row : ClientRow}
    (hrow : w.clients.find? (·.uuid = uid) = some row) :
    Clean env w₀ (owner uid next) w ↔
      (env.queryFails w.tick = true → w₀.SameBackup env w) ∧
        (env.queryFails w.tick = false → Clean env w₀ (next row.userName) w.ticked) := by
  rw [owner, clean_perform]
  cases hquery : env.queryFails w.tick with
  | true =>
    have hexec : exec env (.query (.selectClient .userName uid)) w =
        (.error (.exception .sqliteError), w.ticked) := by
      simp only [exec, hquery, if_true]
      rfl
    rw [hexec]
    show Clean env w₀ (.ret (.response errorResponse)) w.ticked ↔ _
    rw [clean_refused]
    exact ⟨fun h => ⟨fun _ => h, fun hworks => by cases hworks⟩, fun h => h.1 rfl⟩
  | false =>
    have hexec : exec env (.query (.selectClient .userName uid)) w =
        (.ok (some row.userName), w.ticked) := by
      simp only [exec, hquery, Bool.false_eq_true, if_false, Query.exec, hrow]
      rfl
    rw [hexec]
    show Clean env w₀ (next row.userName) w.ticked ↔ _
    exact ⟨fun h => ⟨fun hfails => (by cases hfails), fun _ => h⟩, fun h => h.2 rfl⟩

/-- The 1603 can be packed. -/
theorem checked_ok {crc : Nat} (hname : uploadName payload = some name) (hcrc : crc < 2 ^ 32) :
    ∃ response, checked uid payload name crc = .ok response ∧
      responseCode response = Constants.validFileCrc := by
  have hlength : (utf8Encode name).length ≤ 255 := length_unpaddedName hname
  have htake : (payload.take Constants.uint32T).length ≤ 4 := List.length_take_le _ _
  obtain ⟨pay, hpay⟩ : ∃ pay, pay =
      uid.bytes ++ payload.take Constants.uint32T ++ utf8Encode name ++ toLE 4 crc := ⟨_, rfl⟩
  have hfits : Constants.version < 2 ^ 8 ∧ Constants.validFileCrc < 2 ^ 16 ∧
      pay.length < 2 ^ 32 := by
    refine ⟨by decide, by decide, ?_⟩
    simp only [hpay, List.length_append, uid.length_eq, length_toLE]
    omega
  refine ⟨toLE 1 Constants.version ++ toLE 2 Constants.validFileCrc ++ toLE 4 pay.length ++ pay,
    ?_, responseCode_header (by decide) _ _ _⟩
  rw [checked, packCrc, if_pos hcrc]
  show initResponse Constants.version Constants.validFileCrc
    (uid.bytes ++ payload.take Constants.uint32T ++ utf8Encode name ++ toLE 4 crc).length
    (uid.bytes ++ payload.take Constants.uint32T ++ utf8Encode name ++ toLE 4 crc) = _
  rw [← hpay, initResponse, packHeader, if_pos hfits]

/-- Once the file is read back the upload is not turned down any more: a read that
fails ends the thread. -/
theorem clean_readBack {user : Str} (hname : uploadName payload = some name) :
    Clean env w₀ (readBack env uid payload name user) w := by
  intro h
  obtain ⟨response, hresponse, hcode⟩ := h
  rw [readBack, Program.run_perform] at hresponse
  cases hread : (exec env (.readFile ((userDir env user).join name)) w).1 with
  | error e =>
    rw [hread] at hresponse
    cases hresponse
  | ok buffer =>
    obtain ⟨crc, hcrc, hlt⟩ := memcrc_some buffer
    obtain ⟨sent, hsent, hsentCode⟩ := @checked_ok uid payload name crc hname hlt
    rw [hread] at hresponse
    simp only [orExit, answer, hcrc, hsent, orRefusal] at hresponse
    obtain rfl : sent = response := by
      cases hresponse
      rfl
    rw [hsentCode] at hcode
    exact absurd hcode (by decide)

/-- The INSERT, and the query behind it: if that one fails, the row stays. -/
theorem clean_addRow {row : ClientRow} (hname : uploadName payload = some name)
    (hrow : w.clients.find? (·.uuid = uid) = some row) :
    Clean env w₀ (addRow env uid payload name row.userName) w ↔
      (env.queryFails w.tick = true → w₀.SameBackup env w) ∧
      (env.queryFails w.tick = false → env.queryFails (w.tick + 1) = true →
        w₀.SameBackup env { w with
          files := w.files.insertOrIgnore ⟨uid, name, (userDir env row.userName).str, 0⟩ }) := by
  rw [addRow, clean_perform]
  simp only [exec]
  cases hinsert : env.queryFails w.tick with
  | true =>
    rw [if_pos rfl]
    show Clean env w₀ (.ret (.response errorResponse)) w.ticked ↔ _
    rw [clean_refused]
    exact ⟨fun h => ⟨fun _ => h, fun hworks => (by cases hworks)⟩, fun h => h.1 rfl⟩
  | false =>
    obtain ⟨w', hw'⟩ : ∃ w' : World, w' = { w.ticked with
        files := w.files.insertOrIgnore ⟨uid, name, (userDir env row.userName).str, 0⟩ } :=
      ⟨_, rfl⟩
    rw [if_neg Bool.false_ne_true]
    show Clean env w₀ (owner uid (readBack env uid payload name))
      { w.ticked with
        files := w.files.insertOrIgnore ⟨uid, name, (userDir env row.userName).str, 0⟩ } ↔ _
    rw [← hw', @clean_owner env uid w₀ w' _ row (by rw [hw']; exact hrow), hw']
    constructor
    · intro h
      exact ⟨fun hfails => (by cases hfails), fun _ hthird => h.1 hthird⟩
    · intro h
      exact ⟨fun hthird => h.2 rfl hthird, fun _ => clean_readBack hname⟩

/-- **The three queries behind the write**: a failure of the first two leaves the
world as it is, one of the third leaves the row. -/
theorem clean_record {row : ClientRow} (hname : uploadName payload = some name)
    (hrow : w.clients.find? (·.uuid = uid) = some row) :
    Clean env w₀ (owner uid (addRow env uid payload name)) w ↔
      (env.queryFails w.tick = true ∨ env.queryFails (w.tick + 1) = true → w₀.SameBackup env w) ∧
      (env.queryFails w.tick = false → env.queryFails (w.tick + 1) = false →
        env.queryFails (w.tick + 2) = true → w₀.SameBackup env { w with
          files := w.files.insertOrIgnore ⟨uid, name, (userDir env row.userName).str, 0⟩ }) := by
  rw [clean_owner hrow, @clean_addRow env uid payload name w₀ w.ticked row hname hrow]
  constructor
  · intro h
    refine ⟨fun hfails => ?_, fun hfirst => (h.2 hfirst).2⟩
    cases hfirst : env.queryFails w.tick with
    | true => exact h.1 hfirst
    | false =>
      rw [hfirst] at hfails
      exact (h.2 hfirst).1 (hfails.resolve_left (by decide))
  · intro h
    exact ⟨fun hfirst => h.1 (.inl hfirst),
      fun hfirst => ⟨fun hsecond => h.1 (.inr hsecond), h.2 hfirst⟩⟩

end Saving

/-- A write keeps the backup as it is if the file is elsewhere or held these bytes. -/
theorem sameBackup_write {env : Env} {w₀ w : World} {p : PurePath} {content : Bytes} {d : Disk}
    (hbefore : ∀ loc, w.disk.fileAt loc = w₀.disk.fileAt loc)
    (hwrite : w.disk.write p content = .ok d) {w' : World} (hw' : w'.disk = d) :
    w₀.SameBackup env w' ↔
      (env.BacksUp p.resolve → w₀.disk.fileAt p.resolve = some content) ∧
        w'.files = w₀.files := by
  obtain ⟨-, hnode⟩ := Disk.write_ok hwrite
  have hthere : d.fileAt p.resolve = some content := by
    rw [Disk.fileAt, hnode, Function.update_self]
  rw [World.SameBackup, hw', and_congr_left_iff]
  intro _
  constructor
  · intro h hbacked
    rw [← h _ hbacked, hthere]
  · intro h loc hbacked
    by_cases heq : loc = p.resolve
    · rw [heq, hthere, h (heq ▸ hbacked)]
    · rw [Disk.fileAt_of_node_update hnode heq, hbefore]

namespace Saving

variable {env : Env} {crypto : Crypto} {uid : Uid} {payload : Bytes} {name : Str} {w₀ w : World}

/-- A write that breaks off leaves the part of the file that it has written. -/
theorem clean_partWritten {p : PurePath} {part : Bytes}
    (hbefore : ∀ loc, w.disk.fileAt loc = w₀.disk.fileAt loc) (hfiles : w.files = w₀.files) :
    Clean env w₀ (.ret (.response errorResponse))
        (diskReply w.ticked ((w.disk.write p part).map ((), ·))).2 ↔
      ∀ d, w.disk.write p part = .ok d →
        env.BacksUp p.resolve → w₀.disk.fileAt p.resolve = some part := by
  rw [clean_refused]
  cases hwrite : w.disk.write p part with
  | error e =>
    have hsame : w₀.SameBackup env w.ticked := ⟨fun loc _ => hbefore loc, hfiles⟩
    exact iff_of_true hsame fun _ hok => by cases hok
  | ok d =>
    rw [show (diskReply w.ticked ((Except.ok d).map ((), ·))).2 = { w.ticked with disk := d } from
      rfl, sameBackup_write hbefore hwrite rfl]
    exact ⟨fun h _ _ => h.1, fun h => ⟨h d rfl, hfiles⟩⟩

/-- The whole file is written: what can still fail are the three queries. -/
theorem clean_written {p : PurePath} {file : Bytes} {row : ClientRow} {d : Disk}
    (hname : uploadName payload = some name) (hrow : w.clients.find? (·.uuid = uid) = some row)
    (hbefore : ∀ loc, w.disk.fileAt loc = w₀.disk.fileAt loc) (hfiles : w.files = w₀.files)
    (hwrite : w.disk.write p file = .ok d) :
    Clean env w₀ (owner uid (addRow env uid payload name)) { w.ticked with disk := d } ↔
      (env.queryFails (w.tick + 1) = false ∧ env.queryFails (w.tick + 2) = false ∧
        env.queryFails (w.tick + 3) = false) ∨
      (env.BacksUp p.resolve → w₀.disk.fileAt p.resolve = some file) ∧
        ¬ (env.queryFails (w.tick + 1) = false ∧ env.queryFails (w.tick + 2) = false ∧
          ∀ r ∈ w₀.files, r.uuid ≠ uid) := by
  obtain ⟨w', hw'⟩ : ∃ w' : World, w' = { w.ticked with disk := d } := ⟨_, rfl⟩
  have hdisk : w'.disk = d := by rw [hw']
  have htick : w'.tick = w.tick + 1 := by
    rw [hw']
    rfl
  have hw'files : w'.files = w₀.files := by
    rw [hw']
    exact hfiles
  rw [← hw', @clean_record env uid payload name w₀ w' row hname (by rw [hw']; exact hrow),
    sameBackup_write hbefore hwrite hdisk, @sameBackup_write env w₀ w p file d hbefore hwrite
      { w' with
        files := w'.files.insertOrIgnore ⟨uid, name, (userDir env row.userName).str, 0⟩ } hdisk,
    htick, hw'files, Table.insertOrIgnore_eq_self]
  have hfree : (∀ r ∈ w₀.files, r.uuid ≠ uid) ↔ ¬ ∃ r ∈ w₀.files, r.uuid = uid := by
    simp
  rw [hfree]
  constructor
  · intro h
    -- whether a query fails, and which is the first to
    cases hfirst : env.queryFails (w.tick + 1) with
    | true => exact .inr ⟨(h.1 (.inl hfirst)).1, fun hadds => (by cases hadds.1)⟩
    | false =>
      cases hsecond : env.queryFails (w.tick + 2) with
      | true => exact .inr ⟨(h.1 (.inr hsecond)).1, fun hadds => (by cases hadds.2.1)⟩
      | false =>
        cases hthird : env.queryFails (w.tick + 3) with
        | true =>
          obtain ⟨hheld, htaken⟩ := h.2 hfirst hsecond hthird
          exact .inr ⟨hheld, fun hadds => hadds.2.2 htaken⟩
        | false => exact .inl ⟨rfl, rfl, rfl⟩
  · intro h
    rcases h with ⟨hfirst, hsecond, hthird⟩ | ⟨hheld, hnot⟩
    · rw [show w.tick + 1 + 1 = w.tick + 2 from rfl, show w.tick + 1 + 2 = w.tick + 3 from rfl,
        hfirst, hsecond, hthird]
      exact ⟨fun hfails => absurd hfails (by decide),
        fun _ _ hthird => absurd hthird (by decide)⟩
    · refine ⟨fun _ => ⟨hheld, rfl⟩, fun hfirst hsecond _ => ⟨hheld, ?_⟩⟩
      by_contra hfree
      exact hnot ⟨hfirst, hsecond, hfree⟩

/-- **The write and what follows it.** -/
theorem clean_write {file : Bytes} {row : ClientRow} (hname : uploadName payload = some name)
    (hrow : w.clients.find? (·.uuid = uid) = some row)
    (hbefore : ∀ loc, w.disk.fileAt loc = w₀.disk.fileAt loc) (hfiles : w.files = w₀.files) :
    Clean env w₀ (write env uid payload name file row.userName) w ↔
      ∀ content d', bytesWritten file (env.diskFault w.tick) = some content →
        w.disk.write ((userDir env row.userName).join name) content = .ok d' →
        (env.diskFault w.tick = none ∧ env.queryFails (w.tick + 1) = false ∧
          env.queryFails (w.tick + 2) = false ∧ env.queryFails (w.tick + 3) = false) ∨
        (env.BacksUp ((userDir env row.userName).join name).resolve →
          w₀.disk.fileAt ((userDir env row.userName).join name).resolve = some content) ∧
        ¬ (env.diskFault w.tick = none ∧ env.queryFails (w.tick + 1) = false ∧
          env.queryFails (w.tick + 2) = false ∧ ∀ r ∈ w₀.files, r.uuid ≠ uid) := by
  obtain ⟨p, hp⟩ : ∃ p, p = (userDir env row.userName).join name := ⟨_, rfl⟩
  have hsame : w₀.SameBackup env w.ticked := ⟨fun loc _ => hbefore loc, hfiles⟩
  rw [write, ← hp, clean_perform]
  simp only [exec]
  cases hfault : env.diskFault w.tick with
  | some fault =>
    -- the write fails: neither the queries nor the row are reached
    simp only [reduceCtorEq, false_and, false_or, not_false_eq_true, and_true]
    cases fault with
    | refused =>
      show Clean env w₀ (.ret (.response errorResponse)) w.ticked ↔ _
      rw [clean_refused]
      exact iff_of_true hsame fun _ _ hnone => by cases hnone
    | partialWrite n =>
      show Clean env w₀ (.ret (.response errorResponse))
        (diskReply w.ticked ((w.disk.write p (file.take n)).map ((), ·))).2 ↔ _
      rw [clean_partWritten hbefore hfiles]
      constructor
      · intro h content d' hcontent hwrite
        obtain rfl : file.take n = content := Option.some.inj hcontent
        exact h d' hwrite
      · intro h d' hwrite
        exact h _ d' rfl hwrite
  | none =>
    cases hwrite : w.disk.write p file with
    | error e =>
      show Clean env w₀ (.ret (.response errorResponse)) w.ticked ↔ _
      rw [clean_refused]
      refine iff_of_true hsame fun content d' hcontent hok => ?_
      obtain rfl : file = content := Option.some.inj hcontent
      rw [hwrite] at hok
      cases hok
    | ok d =>
      show Clean env w₀ (owner uid (addRow env uid payload name)) { w.ticked with disk := d } ↔ _
      rw [clean_written hname hrow hbefore hfiles hwrite]
      simp only [true_and]
      constructor
      · intro h content d' hcontent _
        obtain rfl : file = content := Option.some.inj hcontent
        exact h
      · intro h
        exact h file d rfl hwrite

/-- What comes before the write changes no file: if it fails, the backup is the same. -/
theorem clean_makeDir {file : Bytes} {row : ClientRow} (hsame : w₀.SameBackup env w) :
    Clean env w₀ (makeDir env uid payload name file row.userName) w ↔
      ∀ d, env.diskFault w.tick = none → w.disk.mkdirs (userDir env row.userName) = (.ok (), d) →
        Clean env w₀ (write env uid payload name file row.userName)
          { w.ticked with disk := d } := by
  obtain ⟨dir, hdir⟩ : ∃ dir, dir = userDir env row.userName := ⟨_, rfl⟩
  rw [makeDir, clean_perform, ← hdir]
  simp only [exec]
  cases hfault : env.diskFault w.tick with
  | some fault =>
    show Clean env w₀ (.ret (.response errorResponse)) w.ticked ↔ _
    rw [clean_refused]
    exact iff_of_true hsame fun _ hnone => by cases hnone
  | none =>
    cases hmkdirs : w.disk.mkdirs dir with
    | mk result d =>
      cases result with
      | ok u =>
        show Clean env w₀ (write env uid payload name file row.userName)
          { w.ticked with disk := d } ↔ _
        constructor
        · intro h d' _ hok
          obtain rfl : d = d' := congrArg Prod.snd hok
          exact h
        · exact fun h => h d rfl rfl
      | error e =>
        show Clean env w₀ (.ret (.response errorResponse)) { w.ticked with disk := d } ↔ _
        rw [clean_refused]
        refine iff_of_true ⟨fun loc hbacked => ?_, hsame.2⟩ fun _ _ hok => by cases hok
        show d.fileAt loc = _
        have hkept := Disk.mkdirs_fileAt w.disk dir loc
        rw [hmkdirs] at hkept
        rw [hkept, hsame.1 loc hbacked]

theorem clean_decrypt (hsame : w₀.SameBackup env w) :
    Clean env w₀ (decrypt env crypto uid payload name) w ↔
      ∀ row file, w.clients.find? (·.uuid = uid) = some row → env.queryFails w.tick = false →
        decrypted crypto row payload = .ok file → env.queryFails (w.tick + 1) = false →
        Clean env w₀ (makeDir env uid payload name file row.userName) w.ticked.ticked := by
  rw [decrypt, clean_perform]
  cases hquery : env.queryFails w.tick with
  | true =>
    simp only [exec, hquery, if_true]
    show Clean env w₀ (.ret (.response errorResponse)) w.ticked ↔ _
    rw [clean_refused]
    exact iff_of_true hsame fun _ _ _ hworks => by cases hworks
  | false =>
    simp only [exec, hquery, Bool.false_eq_true, if_false, Query.exec]
    cases hrow : w.clients.find? (·.uuid = uid) with
    | none =>
      show Clean env w₀ (.ret (.response errorResponse)) w.ticked ↔ _
      rw [clean_refused]
      exact iff_of_true hsame fun _ _ hsome => by cases hsome
    | some row =>
      have hdecrypted : decrypted crypto row payload =
          decryptedWith crypto payload row.aesKey := rfl
      cases hfile : decryptedWith crypto payload row.aesKey with
      | error e =>
        simp only [Except.mapError, orRefuse, Option.map_some, ClientRow.get, hfile]
        show Clean env w₀ (.ret (.response errorResponse)) w.ticked ↔ _
        rw [clean_refused]
        refine iff_of_true hsame fun row' file hsome _ hok => ?_
        obtain rfl := Option.some.inj hsome
        rw [hdecrypted, hfile] at hok
        cases hok
      | ok file =>
        simp only [Except.mapError, orRefuse, Option.map_some, ClientRow.get, hfile]
        show Clean env w₀ (owner uid (makeDir env uid payload name file)) w.ticked ↔ _
        rw [@clean_owner env uid w₀ w.ticked _ row hrow]
        constructor
        · intro h row' file' hsome _ hok hworks
          obtain rfl := Option.some.inj hsome
          rw [hdecrypted, hfile] at hok
          obtain rfl : file = file' := by
            cases hok
            rfl
          exact h.2 hworks
        · intro h
          exact ⟨fun _ => hsame, h row file rfl trivial (hdecrypted.trans hfile)⟩

end Saving

namespace Step

variable {env : Env} {crypto : Crypto} {s : Step}

/-- **When a rejected upload changes nothing**: exactly if it fails before it opens
the file, or everything works from there on, or what it leaves is what there was. -/
theorem rejectsCleanly_iff (hcode : s.header.code = Constants.sendFile) :
    s.RejectsCleanly env crypto ↔ s.FailsCleanly env crypto := by
  have hclean : s.RejectsCleanly env crypto ↔
      Saving.Clean env s.before (reqSelect env crypto s.header s.payload) s.before := by
    rw [RejectsCleanly, answered_iff]
    rfl
  have hsame : s.before.SameBackup env s.before := ⟨fun _ _ => rfl, rfl⟩
  rw [hclean]
  by_cases hreach : s.header.version ≠ Constants.version ∨ uploadName s.payload = none
  · rw [@Saving.reqSelect_not_sendFile env crypto (s.header, s.payload) hcode hreach,
      Saving.clean_refused]
    refine iff_of_true hsame fun loc content hleaves => ?_
    obtain ⟨hversion, name, row, file, d, d', hname, -⟩ := hleaves
    rcases hreach with hother | hnone
    · exact absurd hversion hother
    · rw [hnone] at hname
      cases hname
  · obtain ⟨hversion, hnone⟩ := not_or.mp hreach
    obtain ⟨name, hname⟩ := Option.ne_none_iff_exists'.mp hnone
    rw [@Saving.reqSelect_sendFile env crypto name (s.header, s.payload) (not_not.mp hversion) hcode
      hname, Saving.clean_decrypt hsame]
    have hticked : s.before.SameBackup env s.before.ticked.ticked := ⟨fun _ _ => rfl, rfl⟩
    -- the write finds every file as it was before the request
    have hkept : ∀ {dir d}, s.before.disk.mkdirs dir = (.ok (), d) →
        ∀ loc, d.fileAt loc = s.before.disk.fileAt loc := by
      intro dir d hmkdirs loc
      have hkept := Disk.mkdirs_fileAt s.before.disk dir loc
      rw [hmkdirs] at hkept
      exact hkept
    constructor
    · intro h loc content hleaves
      obtain ⟨-, name', row, file, d, d', hname', hrow, hfile, hkey, howner, hfault, hmkdirs,
        hwritten, hopens, rfl⟩ := hleaves
      obtain rfl : name = name' := Option.some.inj (hname.symm.trans hname')
      have hmakeDir := h row file hrow hkey hfile howner
      have hclean := (Saving.clean_makeDir hticked).mp hmakeDir d hfault hmkdirs
      exact (Saving.clean_write (w := { s.before.ticked.ticked.ticked with disk := d }) hname hrow
        (hkept hmkdirs) rfl).mp hclean content d' hwritten hopens
    · intro h row file hrow hkey hfile howner
      refine (Saving.clean_makeDir hticked).mpr fun d hfault hmkdirs => ?_
      refine (Saving.clean_write (w := { s.before.ticked.ticked.ticked with disk := d }) hname hrow
        (hkept hmkdirs) rfl).mpr fun content d' hwritten hopens => ?_
      exact h _ content ⟨not_not.mp hversion, name, row, file, d, d', hname, hrow, hfile, hkey,
        howner, hfault, hmkdirs, hwritten, hopens, rfl⟩

end Step

/-! ## An upload that fails on the way -/

/-- A client that uploaded `f` and confirmed it uploads the same file once more. -/
def uploadAgain (env : Env) : Step :=
  ⟨(uploadRequest (Uid.ofNat 1) [0x66]).1, (uploadRequest (Uid.ofNat 1) [0x66]).2,
    handleAll env toyCrypto (.init .bare) confirmedUpload⟩

theorem serve_uploadAgain (env : Env) (w : World) :
    serve env toyCrypto (uploadAgain env).header (uploadAgain env).payload w =
      Program.run (exec env) (Saving.decrypt env toyCrypto (Uid.ofNat 1)
        (uploadRequest (Uid.ofNat 1) [0x66]).2 ['f']) w :=
  Saving.serve_uploadRequest env toyCrypto (Uid.ofNat 1) (by decide) (by decide) (by decide) w

theorem uploadAgain_before (env : Env) :
    (uploadAgain env).before = if env.queryFails (uploadedWorld env).tick then
      (uploadedWorld env).ticked
    else { (uploadedWorld env).ticked with
      files := markVerified (uploadedWorld env).files (Uid.ofNat 1) ['f'] } :=
  Eq.trans (by dsimp only [uploadAgain]) (handleAll_confirmedUpload env)

/-- Where `f` is. -/
def confirmedFile : Location := [['b'], ['u'], ['f']]

/-- An environment in which the query behind that write fails. -/
def Env.losingQuery : Env :=
  { Env.calm Uid.ofNat with queryFails := fun tick => decide (tick = 26) }

/-- The file is written and the request turned down; the bytes are the same. -/
theorem sameBytes_rejected_cleanly :
    (uploadAgain .losingQuery).Answered .losingQuery toyCrypto 1607 ∧
      (uploadAgain .losingQuery).RejectsCleanly .losingQuery toyCrypto := by
  obtain ⟨s, hs⟩ : ∃ s, s = uploadAgain .losingQuery := ⟨_, rfl⟩
  obtain ⟨hanswer, hclient, hfile, hfails⟩ : s.Answered .losingQuery toyCrypto 1607 ∧
      (∀ row ∈ s.before.clients.find? (·.uuid = s.header.uid), row.userName = ['u', '\x00'] ∧
        decrypted toyCrypto row s.payload = .ok [0x76, 0x31]) ∧
      s.before.disk.fileAt confirmedFile = some [0x76, 0x31] ∧
      Env.losingQuery.queryFails (s.before.tick + 4) = true := by
    rw [hs, Step.Answered, Step.answer, serve_uploadAgain, uploadAgain_before]
    decide +kernel
  have hupload : uploadName s.payload = some ['f'] := by
    rw [hs]
    exact uploadName_uploadRequest (Uid.ofNat 1) (by decide) (by decide) (by decide)
  rw [← hs]
  refine ⟨hanswer, (Step.rejectsCleanly_iff (by rw [hs]; rfl)).mpr fun loc content hleaves => ?_⟩
  obtain ⟨-, name, row, file, d, d', hname, hrow, hdecrypted, -, -, -, -, hwritten, -, rfl⟩ :=
    hleaves
  obtain rfl : ['f'] = name := Option.some.inj (hupload.symm.trans hname)
  obtain ⟨huser, hcontent⟩ := hclient row hrow
  rw [hdecrypted] at hcontent
  obtain rfl : file = [0x76, 0x31] := Except.ok.inj hcontent
  obtain rfl : [0x76, 0x31] = content := Option.some.inj hwritten
  refine .inr ⟨fun _ => ?_, fun hadds => ?_⟩
  · rw [huser]
    exact hfile
  · rw [Step.AddsRow, hfails] at hadds
    cases hadds.2.1

/-- An environment in which the disk is full at that write: the file is opened, and
nothing is written to it. -/
def Env.diskFull : Env :=
  { Env.calm Uid.ofNat with
    diskFault := fun tick => if tick = 25 then some (.partialWrite 0) else none }

/-- **The upload is turned down with 1607, and the file that was confirmed is empty.** -/
theorem diskFull_empties_file :
    (∃ hist, Run .diskFull toyCrypto (fun _ => True) (.init .bare) hist
      (uploadAgain .diskFull).before) ∧
    (uploadAgain .diskFull).header.code = 828 ∧
    (uploadAgain .diskFull).Answered .diskFull toyCrypto 1607 ∧
    (uploadAgain .diskFull).before.disk.fileAt confirmedFile = some [0x76, 0x31] ∧
    ((uploadAgain .diskFull).after .diskFull toyCrypto).disk.fileAt confirmedFile = some [] ∧
    ¬ (uploadAgain .diskFull).RejectsCleanly .diskFull toyCrypto := by
  obtain ⟨hanswer, hbefore, hafter⟩ :
      (uploadAgain .diskFull).Answered .diskFull toyCrypto 1607 ∧
      (uploadAgain .diskFull).before.disk.fileAt confirmedFile = some [0x76, 0x31] ∧
      ((uploadAgain .diskFull).after .diskFull toyCrypto).disk.fileAt confirmedFile = some [] := by
    rw [Step.Answered, Step.answer, Step.after, serve_uploadAgain, uploadAgain_before]
    decide +kernel
  refine ⟨?_, rfl, hanswer, hbefore, hafter, fun h => ?_⟩
  · dsimp only [uploadAgain]
    exact ⟨_, run_script _ _ fun _ _ => trivial⟩
  · have hbacked : Env.diskFull.BacksUp confirmedFile := ⟨[['u'], ['f']], rfl⟩
    have hsame := (h hanswer).1 confirmedFile hbacked
    rw [hbefore, hafter] at hsame
    cases hsame

end FileTransfer.Server
