import FileTransfer.Client.Responses

/-!
# A 900 confirms the upload it follows

`VALID_CRC` reads a flag that only a 1603 writes and that outlives the upload.
`confirms_own_upload_iff` says for which responses the flag can be trusted.
-/

namespace FileTransfer.Client

open FileTransfer.Effect FileTransfer.History FileTransfer.Server
open Program (Triple)

variable {K : Type} (pf : Platform K) (ti : TransferInfo)

/-- The last 828 was answered by a 1603 with the checksum of the local file. -/
def LastUploadConfirmed (w : Nat) (past : List Event) : Prop :=
  ∃ response folder, (uploadAnswers past).getLast? = some (some (response, folder)) ∧
    Verdict w ti response folder true

/-- A 900 goes out only after the last 828 was confirmed. -/
def ConfirmsUpload (w : Nat) : List Event → Prop :=
  EachSent fun past packet _ =>
    packet.code = RequestCode.validCrc.value → LastUploadConfirmed ti w past

/-- A process whose log is in order so far. -/
structure InOrder (s : Process K) : Prop where
  confirms : ConfirmsUpload ti pf.longBits s.log
  transferInfo_eq : s.members.requestHandler.transferInfo = ti

/-- A process that has just had an 828 answered. -/
structure Uploaded (s : Process K) : Prop extends InOrder pf ti s where
  name_length : nameSize ≤ s.members.requestHandler.filename.length
  answer : ∃ folder,
    (uploadAnswers s.log).getLast? = some (some (s.members.responsePacket, folder)) ∧
    (ResponseCode.ofValue s.members.responsePacket.code = some .validCrcFile →
      Verdict pf.longBits ti s.members.responsePacket folder s.members.crcValid)

/-- A process whose flag, if set, is about the last 828. -/
structure FlagSound (s : Process K) : Prop extends InOrder pf ti s where
  confirmed : s.members.crcValid = true → LastUploadConfirmed ti pf.longBits s.log

variable {pf ti}

/-- Requests other than the 900 keep the log in order. -/
theorem InOrder.exchange {code : RequestCode} {s s' : Process K} {r : Except Fault Bool}
    (hs : InOrder pf ti s) (h : Exchange pf code s r s') (hcode : code ≠ .validCrc) :
    InOrder pf ti s' where
  confirms := hs.confirms.exchange h fun _ hloads hvalue =>
    absurd (RequestCode.value_injective (hloads.code_eq.symm.trans hvalue)) hcode
  transferInfo_eq := h.transferInfo_eq.trans hs.transferInfo_eq

theorem InOrder.upload {s s' : Process K} {b : Bool} (hs : InOrder pf ti s)
    (h : Exchange pf .sendFile s (.ok b) s') : Uploaded pf ti s' := by
  have hs' := hs.exchange h (by decide)
  obtain ⟨folder, hanswers, hname, hflag⟩ := h.upload
  refine { toInOrder := hs', name_length := hname, answer := ⟨folder, ?_, fun hcode => ?_⟩ }
  · rw [hanswers, List.getLast?_concat]
  · rcases hflag with hverdict | ⟨hother, -⟩
    · rwa [hs'.transferInfo_eq] at hverdict
    · exact absurd hcode hother

/-- The flag is sound after an upload that was answered by a 1603. -/
theorem Uploaded.flagSound {s : Process K} (hs : Uploaded pf ti s)
    (hfresh : s.members.crcValid = true →
      ResponseCode.ofValue s.members.responsePacket.code = some .validCrcFile) :
    FlagSound pf ti s where
  toInOrder := hs.toInOrder
  confirmed := fun hvalid => by
    obtain ⟨folder, hlast, hverdict⟩ := hs.answer
    exact ⟨_, folder, hlast, hvalid ▸ hverdict (hfresh hvalid)⟩

theorem triple_inOrder {code : RequestCode} (hcode : code ≠ .validCrc) :
    Triple exec (InOrder pf ti) (sendAndRecieve pf code) (fun _ => InOrder pf ti)
      fun _ => InOrder pf ti :=
  triple_sendAndRecieve code (fun _ _ _ hs h => hs.exchange h hcode)
    fun _ _ _ hs h => hs.exchange h hcode

theorem triple_upload :
    Triple exec (InOrder pf ti) (sendAndRecieve pf .sendFile) (fun _ => Uploaded pf ti)
      fun _ => InOrder pf ti :=
  triple_sendAndRecieve _ (fun _ _ _ hs h => hs.upload h)
    fun _ _ _ hs h => hs.exchange h (by decide)

/-- A 901 has no answer that could touch the flag. -/
theorem Exchange.crcValid_eq {s s' : Process K} {b : Bool}
    (h : Exchange pf .nValidCrc s (.ok b) s') : s'.members.crcValid = s.members.crcValid := by
  cases h with
  | oneWay _ hloads => exact hloads.crcValid_eq
  | accepted hcode _ _ => exact absurd rfl hcode

/-- The CRC loop leaves a flag that is about the last 828. -/
theorem triple_resendLoop_flagSound :
    Triple exec (FlagSound pf ti) (resendLoop pf 2) (fun _ => FlagSound pf ti)
      fun _ => InOrder pf ti := by
  refine (triple_resendLoop (L := fun _ => FlagSound pf ti)
    (M := fun _ s => InOrder pf ti s ∧ s.members.crcValid = false) 2 0
    (fun _ _ _ => triple_sendAndRecieve _ ?_ ?_)
    fun _ _ _ => triple_sendAndRecieve _ ?_ ?_).imp (fun _ hs => hs)
    (fun _ _ hs => hs.elim fun _ hs => hs.1) fun _ _ hs => hs
  · rintro s s' b ⟨hs, hinvalid⟩ h
    exact ⟨hs.toInOrder.exchange h (by decide), h.crcValid_eq.trans hinvalid⟩
  · rintro s s' e ⟨hs, -⟩ h
    exact hs.toInOrder.exchange h (by decide)
  · -- a flag that is set now was set by the answer to this 828
    rintro s s' b ⟨hs, hinvalid⟩ h
    refine (hs.upload h).flagSound fun hvalid => ?_
    obtain ⟨folder, -, -, hverdict | ⟨-, hkept⟩⟩ := h.upload
    · exact hverdict.code_eq
    · rw [hkept, hinvalid] at hvalid
      cases hvalid
  · rintro s s' e ⟨hs, -⟩ h
    exact hs.exchange h (by decide)

/-- `VALID_CRC` lets only a confirmed upload pass. -/
theorem triple_checkCrcValid :
    Triple exec (FlagSound pf ti) (checkCrcValid pf)
      (fun goOn s => InOrder pf ti s ∧
        (goOn = true → LastUploadConfirmed ti pf.longBits s.log))
      fun _ => InOrder pf ti := by
  refine triple_members.bind fun c => ?_
  split
  · next hvalid =>
    rintro s ⟨hs, rfl⟩
    exact ⟨hs.toInOrder, fun _ => hs.confirmed hvalid⟩
  · have hloop : Triple exec (fun s => FlagSound pf ti s ∧ c = s.members) (resendLoop pf 2)
        (fun _ => FlagSound pf ti) fun _ => InOrder pf ti :=
      triple_resendLoop_flagSound.imp (fun _ hs => hs.1) (fun _ _ hs => hs) fun _ _ hs => hs
    refine hloop.bind fun _ => triple_members.bind fun c => ?_
    split
    · next hvalid =>
      rintro s ⟨hs, rfl⟩
      exact ⟨hs.toInOrder, fun _ => hs.confirmed hvalid⟩
    · have hexit : Triple exec (fun s => FlagSound pf ti s ∧ c = s.members)
          (sendAndRecieve pf .exitCrc) (fun _ => InOrder pf ti) fun _ => InOrder pf ti :=
        (triple_inOrder (by decide)).imp (fun _ hs => hs.1.toInOrder) (fun _ _ hs => hs)
          fun _ _ hs => hs
      exact hexit.bind fun _ s hs => ⟨hs, nofun⟩

/-- Confirming, and confirming again after a server error, is in order. -/
theorem triple_confirmFile :
    Triple exec (fun s => InOrder pf ti s ∧ LastUploadConfirmed ti pf.longBits s.log)
      (confirmFile pf) (fun _ => InOrder pf ti) fun _ => InOrder pf ti := by
  have hsend : Triple exec
      (fun s => InOrder pf ti s ∧ LastUploadConfirmed ti pf.longBits s.log)
      (sendAndRecieve pf .validCrc)
      (fun _ s => InOrder pf ti s ∧ LastUploadConfirmed ti pf.longBits s.log)
      fun _ => InOrder pf ti := by
    have hkeeps : ∀ s s' r, InOrder pf ti s ∧ LastUploadConfirmed ti pf.longBits s.log →
        Exchange pf .validCrc s r s' →
          InOrder pf ti s' ∧ LastUploadConfirmed ti pf.longBits s'.log := by
      rintro s s' r ⟨hs, hlast⟩ h
      refine ⟨⟨hs.confirms.exchange h fun _ _ _ => hlast,
        h.transferInfo_eq.trans hs.transferInfo_eq⟩, ?_⟩
      rwa [LastUploadConfirmed, h.uploadAnswers_eq (by decide)]
    exact triple_sendAndRecieve _ (fun s s' b hs h => hkeeps s s' _ hs h)
      fun s s' e hs h => (hkeeps s s' _ hs h).1
  exact hsend.bind fun _ => (triple_resendIfServerError_const hsend).bind fun _ s hs => hs.1

/-- Behind a sound flag the rest of `uploadFile` is in order. -/
theorem triple_afterCheck :
    Triple exec (FlagSound pf ti)
      (do if ← checkCrcValid pf then confirmFile pf) (fun _ => InOrder pf ti)
      fun _ => InOrder pf ti := by
  refine triple_checkCrcValid.bind fun goOn => ?_
  split
  · next hgo =>
    exact triple_confirmFile.imp (fun s hs => ⟨hs.1, hs.2 hgo⟩) (fun _ _ hs => hs)
      fun _ _ hs => hs
  · exact fun s hs => hs.1

/-- Where `uploadFile` comes to `VALID_CRC`, an 828 has just been answered. -/
theorem triple_sendFile_uploaded (pf : Platform K) (ti : TransferInfo) :
    Triple exec (InOrder pf ti) (sendFile pf)
      (fun goOn s => InOrder pf ti s ∧ (goOn = true → Uploaded pf ti s))
      fun _ => InOrder pf ti := by
  refine (triple_sendFile (L := fun _ => Uploaded pf ti) (triple_inOrder (by decide))
    triple_upload fun _ _ _ => ?_).imp (fun _ hs => hs) ?_ fun _ _ hs => hs
  · exact triple_upload.imp (fun _ hs => hs.toInOrder) (fun _ _ hs => hs) fun _ _ hs => hs
  · rintro goOn s (⟨hs, rfl⟩ | hs | hs)
    · exact ⟨hs, nofun⟩
    · exact ⟨hs.toInOrder, fun _ => hs⟩
    · exact ⟨hs.toInOrder, fun _ => hs⟩

/-- With the flag set, `VALID_CRC` lets the 900 out. -/
theorem Uploaded.sends_confirmation {c : Process K} (hc : Uploaded pf ti c)
    (hvalid : c.members.crcValid = true) :
    ∃ packet, packet.code = RequestCode.validCrc.value ∧
      c.log ++ [.sent packet c.folder] <+:
        (Program.run exec (do if ← checkCrcValid pf then confirmFile pf) c).2.log := by
  obtain ⟨packet, hcode, hload⟩ := run_crcRequest .validCrc c hc.name_length
  have hselect : Program.run exec (requestSelector pf.aesEncryptBlock .validCrc) c = _ := hload
  refine ⟨packet, hcode, ?_⟩
  rw [Program.run_bind, run_checkCrcValid_true pf hvalid]
  exact (sendAndRecieve_sends hselect).trans (log_bind _ _ c)

/-- If every 900 confirms its upload, then so does the flag. -/
theorem ConfirmsUpload.fresh {s c : Process K}
    (hall : ConfirmsUpload s.members.requestHandler.transferInfo pf.longBits
      (events (uploadFile pf) s))
    (h : Program.run exec (sendFile pf) s = (.ok true, c)) (hvalid : c.members.crcValid = true) :
    ResponseCode.ofValue c.members.responsePacket.code = some .validCrcFile := by
  rw [run_sendFile_behind] at h
  rw [events_uploadFile, Program.run_bind] at hall
  have hsend := triple_sendFile_uploaded pf _ { s with log := [] } ⟨eachSent_nil, rfl⟩
  generalize Program.run exec (sendFile pf) { s with log := [] } = result at h hsend hall
  rcases result with ⟨e | goOn, c₀⟩
  · cases (Prod.mk.inj h).1
  obtain ⟨hgo, rfl⟩ := Prod.mk.inj h
  cases hgo
  -- the 900 goes out, so the condition speaks of it
  have hc : Uploaded pf _ c₀ := hsend.2 rfl
  obtain ⟨packet, hcode, hbefore⟩ := hc.sends_confirmation hvalid
  obtain ⟨response, folder, hlast, hverdict⟩ := hall.of_prefix hbefore hcode
  obtain ⟨folder', hlast', -⟩ := hc.answer
  obtain ⟨heq, -⟩ : c₀.members.responsePacket = response ∧ folder' = folder := by
    simpa using hlast'.symm.trans hlast
  exact heq ▸ hverdict.code_eq

/-- If the flag is fresh, then every 900 confirms its upload. -/
theorem confirmsUpload_of_fresh {s : Process K}
    (hfresh : ∀ c, Program.run exec (sendFile pf) s = (.ok true, c) →
      c.members.crcValid = true →
      ResponseCode.ofValue c.members.responsePacket.code = some .validCrcFile) :
    ConfirmsUpload s.members.requestHandler.transferInfo pf.longBits
      (events (uploadFile pf) s) := by
  rw [run_sendFile_behind] at hfresh
  rw [events_uploadFile, Program.run_bind]
  have hsend := triple_sendFile_uploaded pf _ { s with log := [] } ⟨eachSent_nil, rfl⟩
  generalize Program.run exec (sendFile pf) { s with log := [] } = result at hfresh hsend ⊢
  rcases result with ⟨e | _ | _, c⟩
  · exact hsend.confirms
  · exact hsend.1.confirms
  · have hsound : FlagSound pf _ c := (hsend.2 rfl).flagSound fun hvalid =>
      hfresh (c.behind s.log) rfl hvalid
    exact (Triple.run_snd triple_afterCheck hsound).confirms

/-- **A 900 confirms the upload it follows**: in a call of `uploadFile` from any
state, over any responses, every 900 is sent after the last 828 of that call was
answered by a 1603 with the checksum of the local file, if and only if these responses
do not bring the call to `VALID_CRC` with the flag set, or the one to the last 828 before
it is a 1603. -/
theorem confirms_own_upload_iff (pf : Platform K) (s : Process K) :
    ConfirmsUpload s.members.requestHandler.transferInfo pf.longBits (events (uploadFile pf) s) ↔
      (ReachesCheck pf s → flagAfter pf s (heardAtCheck s) = true →
        answerLabel s (heardAtCheck s - 1) = some .validCrcFile) := by
  constructor
  · intro hall hreaches hflag
    obtain ⟨c, hrun, hvalid, hlabel⟩ := hreaches.at_check
    rw [← hlabel]
    exact hall.fresh hrun (hvalid.trans hflag)
  · intro hfresh
    refine confirmsUpload_of_fresh fun c hrun hflag => ?_
    obtain ⟨hreaches, -⟩ := run_sendFile_iff.mp hrun
    obtain ⟨c', hrun', hvalid, hlabel⟩ := hreaches.at_check
    obtain rfl : c = c' := (Prod.mk.inj (hrun.symm.trans hrun')).2
    rw [hlabel]
    exact hfresh hreaches (hvalid.symm.trans hflag)

/-- The server answers the 828 with a 1604 in place of a 1603. -/
def acknowledged : Process Bytes :=
  toyProcess [1] (fun name => if name = keyPriv then some [1] else none)
    (toyKeyFrame .inPublicOutCrypted [1] ++ responseFrame .msgRecieved [] ++
      responseFrame .msgRecieved [])

/-- The flag is still what the constructor made it: the client confirms a checksum
that nobody computed. -/
theorem acknowledged_upload_is_confirmed :
    ¬ ConfirmsUpload acknowledged.members.requestHandler.transferInfo 32
      (events (uploadFile toyPlatform) acknowledged) := by
  intro hall
  have hrun : (Program.run exec (sendFile toyPlatform) acknowledged).1 = .ok true := by
    decide +kernel
  have hvalid : (Program.run exec (sendFile toyPlatform) acknowledged).2.members.crcValid =
      true := by decide +kernel
  have hcode : ResponseCode.ofValue
      (Program.run exec (sendFile toyPlatform) acknowledged).2.members.responsePacket.code =
        some .msgRecieved := by decide +kernel
  have hfresh := hall.fresh (Prod.ext hrun rfl) hvalid
  rw [hcode] at hfresh
  cases hfresh

end FileTransfer.Client
