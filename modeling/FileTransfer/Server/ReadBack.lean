import FileTransfer.Server.Concurrency
import FileTransfer.Server.Saving
import FileTransfer.Server.Touch

/-!
# Uploads that interleave

No lock is held while a file is written and read back, so two uploads to one
path can mix: both write, and both read what the second one wrote. As long as
nothing else is put at the path of an upload between its write and its read,
the checksum in a 1603 is that of the bytes its own request decrypted to.
-/

namespace FileTransfer.Server

open FileTransfer.Effect

/-- What an upload saves: `file`, under `name`, for the client of `row`. -/
structure Saves (crypto : Crypto) (w : World) (j : Header × Bytes) (row : ClientRow) (name : Str)
    (file : Bytes) : Prop where
  found : w.clients.find? (·.uuid = j.1.uid) = some row
  named : uploadName j.2 = some name
  decrypts : decrypted crypto row j.2 = .ok file

theorem Saves.keep {crypto : Crypto} {w w' : World} {j : Header × Bytes} {row : ClientRow}
    {name : Str} {file : Bytes} (h : Saves crypto w j row name file)
    (hclients : w'.clients = w.clients) : Saves crypto w' j row name file :=
  ⟨hclients.symm ▸ h.found, h.named, h.decrypts⟩

/-- The checksum at the end of a 1603. -/
def responseCrc (response : Bytes) : Nat := fromLE (response.drop (response.length - 4))

/-- The checksum, if this is a 1603, is that of the bytes the payload decrypts
to. -/
def CrcIsOwn (crypto : Crypto) (w : World) (x : (Header × Bytes) × Except Raised Handled) : Prop :=
  ∀ response, x.2 = .ok (.response response) → responseCode response = Constants.validFileCrc →
    ∃ row name file, Saves crypto w x.1 row name file ∧ memcrc file = some (responseCrc response)

/-- What is at the path has the checksum of `file`. -/
def Intact (env : Env) (w : World) (user name : Str) (file : Bytes) : Prop :=
  ∃ content, w.disk.fileAt ((userDir env user).join name).resolve = some content ∧
    memcrc content = memcrc file

namespace Saving

/-! ## Where an upload is -/

/-- The file is written and has still to be read back. -/
inductive Awaits (env : Env) (j : Header × Bytes) (user name : Str) : Py Handled → Prop where
  | rowOwner : Awaits env j user name (owner j.1.uid (addRow env j.1.uid j.2 name))
  | addRow : Awaits env j user name (addRow env j.1.uid j.2 name user)
  | readOwner : Awaits env j user name (owner j.1.uid (readBack env j.1.uid j.2 name))
  | readBack : Awaits env j user name (readBack env j.1.uid j.2 name user)

/-- Where a thread can be in an upload. -/
inductive UploadStage (env : Env) (crypto : Crypto) (j : Header × Bytes) (w : World) :
    Py Handled → Prop where
  | decrypt {name : Str} (hname : uploadName j.2 = some name) :
      UploadStage env crypto j w (decrypt env crypto j.1.uid j.2 name)
  | owner {row : ClientRow} {name : Str} {file : Bytes} (h : Saves crypto w j row name file) :
      UploadStage env crypto j w (owner j.1.uid (makeDir env j.1.uid j.2 name file))
  | makeDir {row : ClientRow} {name : Str} {file : Bytes} (h : Saves crypto w j row name file) :
      UploadStage env crypto j w (makeDir env j.1.uid j.2 name file row.userName)
  | write {row : ClientRow} {name : Str} {file : Bytes} (h : Saves crypto w j row name file) :
      UploadStage env crypto j w (write env j.1.uid j.2 name file row.userName)
  | awaits {row : ClientRow} {name : Str} {file : Bytes} {p : Py Handled}
      (h : Saves crypto w j row name file) (hp : Awaits env j row.userName name p)
      (hfile : Intact env w row.userName name file) : UploadStage env crypto j w p
  | done {r : Except Raised Handled} (h : CrcIsOwn crypto w (j, r)) :
      UploadStage env crypto j w (.ofResult r)

section Stages

variable {env : Env} {crypto : Crypto} {j : Header × Bytes} {w w' : World} {p : Py Handled}
  {row : ClientRow} {name : Str} {file : Bytes}

theorem crcIsOwn_of_code {r : Except Raised Handled}
    (h : answerCode r ≠ some Constants.validFileCrc) : CrcIsOwn crypto w (j, r) := by
  rintro response rfl hcode
  exact absurd (congrArg some hcode) h

/-- A request that ends without a 1603. -/
theorem stage_other {r : Except Raised Handled} (hp : p = .ofResult r)
    (h : answerCode r ≠ some Constants.validFileCrc) : UploadStage env crypto j w p :=
  hp ▸ .done (crcIsOwn_of_code h)

theorem stage_refused : UploadStage env crypto j w (.ret (.response errorResponse)) :=
  stage_other (r := .ok (.response errorResponse)) rfl (by decide)

/-- What others do leaves a thread where it is, as long as the clients and the
file that it waits for stay. -/
theorem UploadStage.keep (h : UploadStage env crypto j w p) (hclients : w'.clients = w.clients)
    (hfile : ∀ row name file, Saves crypto w j row name file → Awaits env j row.userName name p →
      Intact env w row.userName name file → Intact env w' row.userName name file) :
    UploadStage env crypto j w' p := by
  cases h with
  | decrypt hname => exact .decrypt hname
  | owner h => exact .owner (h.keep hclients)
  | makeDir h => exact .makeDir (h.keep hclients)
  | write h => exact .write (h.keep hclients)
  | awaits h hp hintact => exact .awaits (h.keep hclients) hp (hfile _ _ _ h hp hintact)
  | done h =>
    refine .done fun response hr hcode => ?_
    obtain ⟨row, name, file, hsaves, hcrc⟩ := h response hr hcode
    exact ⟨row, name, file, hsaves.keep hclients, hcrc⟩

theorem UploadStage.crcIsOwn {r : Except Raised Handled}
    (h : UploadStage env crypto j w (.ofResult r)) : CrcIsOwn crypto w (j, r) := by
  generalize hp : (Program.ofResult r : Py Handled) = p at h
  cases h with
  | decrypt => exact absurd hp.symm Program.perform_ne_ofResult
  | owner => exact absurd hp.symm Program.perform_ne_ofResult
  | makeDir => exact absurd hp.symm Program.perform_ne_ofResult
  | write => exact absurd hp.symm Program.perform_ne_ofResult
  | awaits _ hawaits _ => cases hawaits <;> exact absurd hp.symm Program.perform_ne_ofResult
  | done h => exact Program.ofResult_inj hp ▸ h

/-- The checksum that was packed is the one that is found. -/
theorem responseCrc_checked {uid : Uid} {payload response : Bytes} {crc : Nat}
    (h : checked uid payload name crc = .ok response) : responseCrc response = crc := by
  rw [checked, packCrc] at h
  split at h
  · next hfits =>
    change initResponse _ _ _ (uid.bytes ++ payload.take Constants.uint32T ++ utf8Encode name ++
      toLE 4 crc) = _ at h
    simp only [initResponse, packHeader] at h
    split at h
    · cases h
    · cases h
      rw [responseCrc, ← List.append_assoc, List.drop_left' (by simp; omega)]
      exact fromLE_toLE (by simpa using hfits)
  · cases h

/-- The row is asked for the user name, and nothing changes. -/
theorem exec_owner {o : Op} {k : Except Raised o.Reply → Py Handled} {next : Str → Py Handled}
    (hp : (.perform o k : Py Handled) = owner j.1.uid next)
    (hfound : w.clients.find? (·.uuid = j.1.uid) = some row) :
    (exec env o w).2 = w.ticked ∧ (k (exec env o w).1 = next row.userName ∨
      k (exec env o w).1 = .ret (.response errorResponse)) := by
  cases hp
  simp only [exec]
  split
  · exact ⟨rfl, .inr rfl⟩
  · refine ⟨rfl, .inl ?_⟩
    simp only [Query.exec, Except.mapError, hfound]
    rfl

/-- Calls on paths leave the clients alone. -/
theorem clients_exec_path {o : Op} (ho : ∀ q, o ≠ .query q) :
    (exec env o w).2.clients = w.clients := by
  rcases @clients_exec env o w with hsame | ⟨row, rfl⟩ | ⟨field, data, uid, rfl⟩
  · exact hsame
  · exact absurd rfl (ho _)
  · exact absurd rfl (ho _)

/-- What a write that is answered has written. -/
theorem intact_of_write {user : Str} {u : Unit}
    (h : (exec env (.writeFile ((userDir env user).join name) file) w).1 = .ok u) :
    Intact env (exec env (.writeFile ((userDir env user).join name) file) w).2 user name file := by
  have hrun : Program.run (exec env) (writeFile ((userDir env user).join name) file) w =
      (.ok (), (exec env (.writeFile ((userDir env user).join name) file) w).2) := by
    rw [run_writeFile]
    exact Prod.ext h rfl
  obtain ⟨-, d, hd, hworld⟩ := run_writeFile_ok.mp hrun
  rw [hworld]
  refine ⟨file, ?_, rfl⟩
  simp only [Disk.fileAt, (Disk.write_ok hd).2, Function.update_self]

/-- What is read back is the file at the path. -/
theorem fileAt_of_read {p : PurePath} {buffer : Bytes}
    (h : (exec env (.readFile p) w).1 = .ok buffer) :
    w.disk.fileAt p.resolve = some buffer := by
  simp only [exec] at h
  split at h
  · cases h
  · cases hread : w.disk.read p with
    | error e =>
      rw [hread] at h
      cases h
    | ok content =>
      rw [hread] at h
      cases h
      simp only [Disk.read] at hread
      split at hread
      · cases hread
      · next loc hloc =>
        obtain rfl := Disk.locate_eq_resolve hloc
        split at hread
        · next hfile =>
          cases hread
          exact hfile
        · cases hread

/-- Up to the read the file stays, and the read answers with its checksum. -/
theorem advance_awaits {o : Op} {k : Except Raised o.Reply → Py Handled}
    (h : Saves crypto w j row name file) (hstage : Awaits env j row.userName name (.perform o k))
    (hfile : Intact env w row.userName name file) :
    (exec env o w).2.clients = w.clients ∧
      UploadStage env crypto j (exec env o w).2 (k (exec env o w).1) := by
  generalize hp : (.perform o k : Py Handled) = p at hstage
  cases hstage with
  | rowOwner =>
    obtain ⟨hworld, hnext | hnext⟩ := exec_owner hp h.found
    · rw [hworld, hnext]
      exact ⟨rfl, .awaits (h.keep rfl) .addRow hfile⟩
    · rw [hworld, hnext]
      exact ⟨rfl, stage_refused⟩
  | addRow =>
    cases hp
    simp only [exec]
    split
    · exact ⟨rfl, stage_refused⟩
    · exact ⟨rfl, .awaits (h.keep rfl) .readOwner hfile⟩
  | readOwner =>
    obtain ⟨hworld, hnext | hnext⟩ := exec_owner hp h.found
    · rw [hworld, hnext]
      exact ⟨rfl, .awaits (h.keep rfl) .readBack hfile⟩
    · rw [hworld, hnext]
      exact ⟨rfl, stage_refused⟩
  | readBack =>
    cases hp
    have hclients : (exec env (.readFile ((userDir env row.userName).join name)) w).2.clients =
        w.clients := clients_exec_path fun q h => by cases h
    refine ⟨hclients, ?_⟩
    cases hread : (exec env (.readFile ((userDir env row.userName).join name)) w).1 with
    | error e => exact stage_other (r := .error .systemExit) rfl (by decide)
    | ok buffer =>
      -- what is read is what was written
      obtain ⟨content, hcontent, hsame⟩ := hfile
      obtain rfl : content = buffer :=
        Option.some.inj (hcontent.symm.trans (fileAt_of_read hread))
      show UploadStage env crypto j _ (answer j.1.uid j.2 name content)
      rw [answer]
      cases hcrc : memcrc content with
      | none => exact stage_other (r := .error .systemExit) rfl (by decide)
      | some crc =>
        show UploadStage env crypto j _ (orRefusal errorResponse (checked j.1.uid j.2 name crc))
        cases hchecked : checked j.1.uid j.2 name crc with
        | error e => exact stage_refused
        | ok response =>
          refine .done (r := .ok (.response response)) ?_
          intro response' hresponse _
          cases hresponse
          refine ⟨row, name, file, h.keep hclients, ?_⟩
          rw [← hsame, hcrc, responseCrc_checked hchecked]

/-- **One operation of an upload** leads to the next stage. -/
theorem UploadStage.advance {o : Op} {k : Except Raised o.Reply → Py Handled}
    (h : UploadStage env crypto j w (.perform o k)) :
    (exec env o w).2.clients = w.clients ∧
      UploadStage env crypto j (exec env o w).2 (k (exec env o w).1) := by
  generalize hp : (.perform o k : Py Handled) = p at h
  cases h with
  | @decrypt name hname =>
    cases hp
    simp only [exec]
    split
    · exact ⟨rfl, stage_refused⟩
    · refine ⟨rfl, ?_⟩
      simp only [Query.exec, Except.mapError]
      cases hfound : w.clients.find? (·.uuid = j.1.uid) with
      | none => exact stage_refused
      | some row =>
        cases hfile : decryptedWith crypto j.2 row.aesKey with
        | error e =>
          refine stage_other (r := .ok (.response errorResponse)) ?_ (by decide)
          simp only [Option.map_some, orRefuse, ClientRow.get, hfile]
          rfl
        | ok file =>
          simp only [Option.map_some, orRefuse, ClientRow.get, hfile]
          exact .owner ⟨hfound, hname, hfile⟩
  | owner h =>
    obtain ⟨hworld, hnext | hnext⟩ := exec_owner hp h.found
    · rw [hworld, hnext]
      exact ⟨rfl, .makeDir (h.keep rfl)⟩
    · rw [hworld, hnext]
      exact ⟨rfl, stage_refused⟩
  | @makeDir row name file h =>
    cases hp
    have hclients : (exec env (.mkdir (userDir env row.userName)) w).2.clients = w.clients :=
      clients_exec_path fun q h => by cases h
    refine ⟨hclients, ?_⟩
    rcases @orRefuse_cases _ Constants.validFileCrc (by decide) (fun _ =>
      Saving.write env j.1.uid j.2 name file row.userName)
      (exec env (.mkdir (userDir env row.userName)) w).1 with ⟨u, -, hnext⟩ | ⟨r, hnext, hr⟩
    · rw [hnext]
      exact .write (h.keep hclients)
    · exact stage_other hnext hr
  | @write row name file h =>
    cases hp
    have hclients :
        (exec env (.writeFile ((userDir env row.userName).join name) file) w).2.clients =
          w.clients := clients_exec_path fun q h => by cases h
    refine ⟨hclients, ?_⟩
    rcases @orRefuse_cases _ Constants.validFileCrc (by decide) (fun _ =>
      Saving.owner j.1.uid (addRow env j.1.uid j.2 name))
      (exec env (.writeFile ((userDir env row.userName).join name) file) w).1
      with ⟨u, hok, hnext⟩ | ⟨r, hnext, hr⟩
    · -- from the write on the file is there to be read
      rw [hnext]
      exact .awaits (h.keep hclients) .rowOwner (intact_of_write hok)
    · exact stage_other hnext hr
  | @awaits row name file _ h hstage hfile =>
    subst hp
    exact advance_awaits h hstage hfile
  | done => exact absurd hp Program.perform_ne_ofResult

theorem uploadStage_start (hcode : j.1.code = Constants.sendFile) :
    UploadStage env crypto j w (handleJob env crypto j) := by
  by_cases hversion : j.1.version = Constants.version
  · cases hname : uploadName j.2 with
    | none =>
      rw [handleJob, reqSelect_not_sendFile hcode (.inr hname)]
      exact stage_refused
    | some name =>
      rw [handleJob, reqSelect_sendFile hversion hcode hname]
      exact .decrypt hname
  · rw [handleJob, reqSelect_not_sendFile hcode (.inl hversion)]
    exact stage_refused

end Stages

end Saving

/-! ## All threads together -/

section Threads

open Saving

variable {env : Env} {crypto : Crypto} {c c' : Threads} {a : Action (Header × Bytes)} {w₀ : World}

/-- Threads take up uploads only. -/
def UploadsOnly (a : Action (Header × Bytes)) : Prop :=
  ∀ t j, a = .start t j → j.1.code = Constants.sendFile

/-- Whoever touches the file of another thread between its write and its read
leaves there what has the same checksum. -/
def NotOverwritten (env : Env) (crypto : Crypto) (c : Threads) (a : Action (Header × Bytes)) :
    Prop :=
  ∀ t j o k, a = .advance t → c.threads t = some (j, .perform o k) →
    ∀ t' j' p' row name file, t' ≠ t → c.threads t' = some (j', p') →
      Saves crypto c.shared j' row name file → Awaits env j' row.userName name p' →
      touched env (c.shared, o) = some ((userDir env row.userName).join name).resolve →
      Intact env (exec env o c.shared).2 row.userName name file

/-- The threads and their answers while no file is overwritten. -/
structure Unmixed (env : Env) (crypto : Crypto) (w₀ : World) (c : Threads) : Prop where
  clients : c.shared.clients = w₀.clients
  stage : ∀ t j p, c.threads t = some (j, p) → UploadStage env crypto j c.shared p
  answered : ∀ x ∈ c.answered, CrcIsOwn crypto w₀ x

theorem CrcIsOwn.keep {w w' : World} {x : (Header × Bytes) × Except Raised Handled}
    (h : CrcIsOwn crypto w x) (hclients : w'.clients = w.clients) : CrcIsOwn crypto w' x := by
  intro response hr hcode
  obtain ⟨row, name, file, hsaves, hcrc⟩ := h response hr hcode
  exact ⟨row, name, file, hsaves.keep hclients, hcrc⟩

theorem Unmixed.step (h : Unmixed env crypto w₀ c) (huploads : UploadsOnly a)
    (hover : NotOverwritten env crypto c a)
    (hstep : Pool.step (exec env) (handleJob env crypto) c a = some c') :
    Unmixed env crypto w₀ c' := by
  rcases Pool.step_cases (exec env) (handleJob env crypto) hstep with
    ⟨t, j, rfl, hidle, rfl⟩ | ⟨t, j, r, rfl, ht, rfl⟩ | ⟨t, j, o, k, rfl, ht, rfl⟩
  · refine ⟨h.clients, fun t' j' p' ht' => ?_, h.answered⟩
    rcases Pool.threads_update.mp ht' with ⟨-, hmoved⟩ | ⟨-, ht'⟩
    · cases hmoved
      exact uploadStage_start (huploads t j rfl)
    · exact h.stage t' j' p' ht'
  · refine ⟨h.clients, fun t' j' p' ht' => ?_, fun x hx => ?_⟩
    · rcases Pool.threads_update.mp ht' with ⟨-, hmoved⟩ | ⟨-, ht'⟩
      · cases hmoved
      · exact h.stage t' j' p' ht'
    · rcases List.mem_append.mp hx with hx | hx
      · exact h.answered x hx
      · obtain rfl := List.mem_singleton.mp hx
        exact (h.stage t j _ ht).crcIsOwn.keep h.clients.symm
  · obtain ⟨hclients, hnext⟩ := (h.stage t j _ ht).advance
    refine ⟨hclients.trans h.clients, fun t' j' p' ht' => ?_, h.answered⟩
    rcases Pool.threads_update.mp ht' with ⟨-, hmoved⟩ | ⟨hne, ht'⟩
    · cases hmoved
      exact hnext
    · refine (h.stage t' j' p' ht').keep hclients fun row name file hsaves hawaits hintact => ?_
      by_cases htouched : touched env (c.shared, o) =
          some ((userDir env row.userName).join name).resolve
      · exact hover t j o k rfl ht t' j' p' row name file hne ht' hsaves hawaits htouched
      · obtain ⟨content, hcontent, hsame⟩ := hintact
        exact ⟨content, (fileAt_exec htouched).trans hcontent, hsame⟩

/-- **The checksum in a 1603 is that of its own request**, in every interleaving
of uploads in which no file is overwritten before it is read back. -/
theorem crc_is_own
    (hrun : Pool.Run (exec env) (handleJob env crypto)
      (fun c a => UploadsOnly a ∧ NotOverwritten env crypto c a) (.initial w₀) c) :
    ∀ x ∈ c.answered, CrcIsOwn crypto w₀ x := by
  have h : Unmixed env crypto w₀ c := by
    refine hrun.invariant _ _ ⟨rfl, nofun, nofun⟩ fun c₁ c₂ a hc₁ hok hstep => ?_
    exact hc₁.step hok.1 hok.2 hstep
  exact h.answered

end Threads

/-! ## Two uploads of one file -/

/-- The client `u` has registered and has the key of zeros. -/
def registeredWorld : World :=
  handleAll (.calm Uid.ofNat) toyCrypto (.init .bare)
    [request (Uid.ofNat 0) 825 [0x75, 0x00], keyRequest (Uid.ofNat 1)]

/-- A file `f` with the content `v2`, in a block that is its own encryption. -/
def rivalUpload : Header × Bytes :=
  request (Uid.ofNat 1) 828
    (toLE 4 16 ++ toLE 4 2 ++ toLE 2 1 ++ toLE 2 1 ++ padName [0x66] ++
      ([0x76, 0x32] ++ List.replicate 14 14))

/-- Two threads take up an upload of `f` each, `v1` and `v2`. -/
def bothUploads (moves : List Nat) : List (Action (Header × Bytes)) :=
  [.start 0 (uploadRequest (Uid.ofNat 1) [0x66]), .start 1 rivalUpload] ++ moves.map .advance

/-- Both uploads are of `f`, so nothing has to be decoded to follow them. -/
theorem follow_bothUploads (check : Threads → Action (Header × Bytes) → Bool)
    (moves : List Nat) (c : Threads) :
    Pool.follow (exec (.calm Uid.ofNat)) (handleJob (.calm Uid.ofNat) toyCrypto) check c
        (bothUploads moves) =
      Pool.follow (exec (.calm Uid.ofNat))
        (fun j => Saving.decrypt (.calm Uid.ofNat) toyCrypto j.1.uid j.2 ['f']) check c
        (bothUploads moves) := by
  have hrival : uploadName rivalUpload.2 = some ['f'] := by
    have hslice : slice rivalUpload.2 Constants.nameIndex Constants.contentIndex =
        padName [0x66] := by decide +kernel
    rw [padName_eq (show utf8Encode ['f'] = [0x66] by decide)] at hslice
    exact unpaddedName_of_padded hslice (by decide)
  refine Pool.follow_congr _ _ (fun t j hstart => ?_) c
  rcases List.mem_append.mp hstart with hstart | hmove
  · rcases List.mem_pair.mp hstart with heq | heq
    · obtain ⟨-, rfl⟩ := Action.start.inj heq
      exact Saving.reqSelect_uploadRequest (.calm Uid.ofNat) toyCrypto (Uid.ofNat 1) (by decide)
        (by decide) (by decide)
    · obtain ⟨-, rfl⟩ := Action.start.inj heq
      exact Saving.reqSelect_sendFile rfl rfl hrival
  · obtain ⟨t', -, heq⟩ := List.mem_map.mp hmove
    cases heq

/-- A request for an upload. -/
def startsUpload (_ : Threads) : Action (Header × Bytes) → Bool
  | .start _ j => decide (j.1.code = Constants.sendFile)
  | .advance _ => true

theorem uploadsOnly_of_check {c : Threads} {a : Action (Header × Bytes)}
    (h : startsUpload c a = true) : UploadsOnly a := by
  rintro t j rfl
  exact of_decide_eq_true h

/-- The checksum that was sent, if any. -/
def sentCrc (x : (Header × Bytes) × Except Raised Handled) : Option Nat :=
  match x.2 with
  | .ok (.response response) =>
    if responseCode response = Constants.validFileCrc then some (responseCrc response) else none
  | _ => none

theorem CrcIsOwn.of_sentCrc {crypto : Crypto} {w : World} {crc : Nat}
    {x : (Header × Bytes) × Except Raised Handled} (h : CrcIsOwn crypto w x)
    (hsent : sentCrc x = some crc) :
    ∃ row name file, Saves crypto w x.1 row name file ∧ memcrc file = some crc := by
  rw [sentCrc] at hsent
  split at hsent
  · next response hresponse =>
    split at hsent
    · next hcode =>
      cases hsent
      exact h response hresponse hcode
    · cases hsent
  · cases hsent

/-- **A checksum of another upload**: both threads write before the first one
reads, so the 1603 for `v1` carries the checksum of `v2`. -/
theorem other_upload_read_back :
    ∃ c : Threads, Pool.Run (exec (.calm Uid.ofNat)) (handleJob (.calm Uid.ofNat) toyCrypto)
        (fun _ a => UploadsOnly a) (.initial registeredWorld) c ∧
      ¬ ∀ x ∈ c.answered, CrcIsOwn toyCrypto registeredWorld x := by
  obtain ⟨c, hc, hfacts⟩ : ∃ c, Pool.follow (exec (.calm Uid.ofNat))
      (handleJob (.calm Uid.ofNat) toyCrypto) startsUpload (.initial registeredWorld)
      (bothUploads [0, 0, 0, 0, 1, 1, 1, 1, 0, 0, 0, 0, 0]) = some c ∧
      (c.answered.map fun x => (x.1, sentCrc x)) =
        [(uploadRequest (Uid.ofNat 1) [0x66], memcrc [0x76, 0x32])] := by
    rw [follow_bothUploads]
    exact Option.map_eq_some_iff.mp (by decide +kernel)
  refine ⟨c, Pool.run_of_follow _ _ (I := fun _ => True) (fun _ _ _ _ _ _ => trivial)
    (fun _ _ _ => uploadsOnly_of_check) .refl trivial hc, fun hown => ?_⟩
  obtain ⟨x, hx, hsent⟩ := List.map_eq_singleton_iff.mp hfacts
  obtain ⟨hjob, hsent⟩ := Prod.mk.inj hsent
  obtain ⟨crc, hcrc, -⟩ := memcrc_some [0x76, 0x32]
  obtain ⟨row, name, file, hsaves, hfile⟩ := (hown x (by rw [hx]; exact List.mem_singleton.mpr rfl)
    ).of_sentCrc (hsent.trans hcrc)
  -- what the payload decrypts to is `v1`
  have hdecrypted : (registeredWorld.clients.find? (·.uuid = Uid.ofNat 1)).map (fun row =>
      decrypted toyCrypto row (uploadRequest (Uid.ofNat 1) [0x66]).2) =
        some (.ok [0x76, 0x31]) := by
    decide +kernel
  have hdecrypts := hsaves.decrypts
  have hfound := hsaves.found
  rw [hjob] at hdecrypts hfound
  rw [show (registeredWorld.clients.find? (·.uuid = Uid.ofNat 1)) = some row from hfound,
    Option.map_some, hdecrypts] at hdecrypted
  obtain rfl : file = [0x76, 0x31] := Except.ok.inj (Option.some.inj hdecrypted)
  have hdiffer : memcrc [0x76, 0x31] ≠ memcrc [0x76, 0x32] := by decide +kernel
  exact hdiffer (hfile.trans hcrc.symm)

/-- The thread is not between a write and a read. -/
def notWaiting (c : Threads) (t : Nat) : Bool :=
  match c.threads t with
  | some (_, .perform (.query (.selectClient .userName _)) _) => false
  | some (_, .perform (.query (.insertFile _)) _) => false
  | some (_, .perform (.readFile _) _) => false
  | _ => true

/-- Only the two threads start, and one writes only while the other one is not
between its write and its read. -/
def takesTurns (c : Threads) (a : Action (Header × Bytes)) : Bool :=
  startsUpload c a && match a with
    | .start t _ => decide (t < 2)
    | .advance t =>
      match c.threads t with
      | some (_, .perform (.writeFile _ _) _) => notWaiting c (1 - t)
      | some (_, .perform (.remove _) _) => false
      | _ => true

theorem notWaiting_of_awaits {env : Env} {c : Threads} {t : Nat} {j : Header × Bytes}
    {user name : Str} {p : Py Handled} (ht : c.threads t = some (j, p))
    (h : Saving.Awaits env j user name p) : notWaiting c t = false := by
  rw [notWaiting, ht]
  cases h <;> rfl

theorem notOverwritten_of_check {env : Env} {crypto : Crypto} {c : Threads}
    {a : Action (Header × Bytes)} (hbusy : ∀ t j p, c.threads t = some (j, p) → t < 2)
    (h : takesTurns c a = true) : NotOverwritten env crypto c a := by
  intro t j o k ha ht t' j' p' row name file hne ht' _ hawaits htouched
  subst ha
  have hother : t' = 1 - t := by
    have hlt := hbusy t j _ ht
    have hlt' := hbusy t' j' p' ht'
    omega
  cases o with
  | writeFile path content =>
    simp only [takesTurns, ht, Bool.and_eq_true] at h
    rw [← hother, notWaiting_of_awaits ht' hawaits] at h
    cases h.2
  | remove path =>
    simp only [takesTurns, ht, Bool.and_false] at h
    cases h
  | _ => cases htouched

/-- Two uploads of one file that overlap and do not mix: both are answered, each
with its own checksum. -/
theorem turns_crc_is_own :
    ∃ c : Threads, c.answered.map sentCrc = [memcrc [0x76, 0x31], memcrc [0x76, 0x32]] ∧
      ∀ x ∈ c.answered, CrcIsOwn toyCrypto registeredWorld x := by
  obtain ⟨c, hc, hfacts⟩ : ∃ c, Pool.follow (exec (.calm Uid.ofNat))
      (handleJob (.calm Uid.ofNat) toyCrypto) takesTurns (.initial registeredWorld)
      (bothUploads [0, 0, 0, 1, 1, 1, 0, 0, 0, 0, 0, 1, 1, 0, 1, 1, 1, 1]) = some c ∧
      c.answered.map sentCrc = [memcrc [0x76, 0x31], memcrc [0x76, 0x32]] := by
    rw [follow_bothUploads]
    exact Option.map_eq_some_iff.mp (by decide +kernel)
  refine ⟨c, hfacts, crc_is_own (Pool.run_of_follow _ _
    (I := fun c => ∀ t j p, c.threads t = some (j, p) → t < 2) ?_ ?_ .refl nofun hc)⟩
  · intro c c' a hbusy hcheck hstep
    refine Pool.jobs_step _ _ (Q := fun t _ => t < 2) hbusy (fun t j hstart => ?_) hstep
    subst hstart
    simp only [takesTurns, Bool.and_eq_true, decide_eq_true_eq] at hcheck
    exact hcheck.2
  · intro c a hbusy hcheck
    exact ⟨uploadsOnly_of_check (Bool.and_eq_true_iff.mp hcheck).1,
      notOverwritten_of_check hbusy hcheck⟩

end FileTransfer.Server
