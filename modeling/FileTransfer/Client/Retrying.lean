import FileTransfer.Client.Responses

/-!
# How often a file is sent

Two mechanisms resend an 828: `errorResend` after a server error, and
`resendEncryptedMessage` after a wrong checksum. `retry_limit_iff` says when they
stay within three uploads together, and when a 902 means three wrong checksums.
-/

namespace FileTransfer.Client

open FileTransfer.Effect FileTransfer.History FileTransfer.Server
open Program (Triple)

variable {K : Type} (pf : Platform K) (ti : TransferInfo)

/-- The file was sent three times, and each time a 1603 with another checksum than
that of the local file came back. -/
def ThreeRefuted (w : Nat) (past : List Event) : Prop :=
  (uploadAnswers past).length = 3 ∧ ∀ answer ∈ uploadAnswers past,
    ∃ response folder, answer = some (response, folder) ∧ Verdict w ti response folder false

/-- A 902 goes out only after three wrong checksums. -/
def ExitsRefuted (w : Nat) : List Event → Prop :=
  EachSent fun past packet _ => packet.code = RequestCode.exitCrc.value → ThreeRefuted ti w past

/-- The limit that the comments of `uploadFile` set. -/
structure RetryLimit (w : Nat) (log : List Event) : Prop where
  uploads : (uploadAnswers log).length ≤ 3
  exits : ExitsRefuted ti w log

/-- When the CRC resend of a call from `s` that reaches `VALID_CRC` in `c` keeps the
limit, by what it logs. -/
structure ResendFits (s c : Process K) : Prop where
  /-- the error resend was not taken, or no further upload can be made -/
  once : (uploadAnswers (events (sendFile pf) s)).length = 1 ∨
    ∀ c₁, Program.run exec (sendAndRecieve pf .nValidCrc) c = (.ok true, c₁) →
      (Program.run exec (requestSelector pf.aesEncryptBlock .sendFile) c₁).1 ≠ .ok true
  /-- a flag that is still not set is due to 1603s -/
  answered : ∀ c', Program.run exec (resendLoop pf 2) c = (.ok (), c') →
    c'.members.crcValid = false →
    ∀ answer ∈ uploadAnswers (events (sendFile pf) s ++ events (resendLoop pf 2) c),
      ∃ response folder, answer = some (response, folder) ∧
        ResponseCode.ofValue response.code = some .validCrcFile

/-- A process that has sent the file `i` times in this call. -/
structure Sent (i : Nat) (s : Process K) : Prop where
  exits : ExitsRefuted ti pf.longBits s.log
  transferInfo_eq : s.members.requestHandler.transferInfo = ti
  count : (uploadAnswers s.log).length = i

/-- A process that has sent the file at most three times. -/
def WithinLimit (s : Process K) : Prop := ∃ i, Sent pf ti i s ∧ i ≤ 3

/-- Every upload was answered, and no 1603 confirmed it. -/
def NoneConfirmed (w : Nat) (log : List Event) : Prop :=
  ∀ answer ∈ uploadAnswers log, ∃ response folder, answer = some (response, folder) ∧
    (ResponseCode.ofValue response.code = some .validCrcFile → Verdict w ti response folder false)

/-- A process that has just had its `i`-th upload answered; if the flag is not set,
none of them was confirmed. -/
structure Answered (i : Nat) (s : Process K) : Prop extends Sent pf ti i s where
  name_length : nameSize ≤ s.members.requestHandler.filename.length
  noneConfirmed : s.members.crcValid = false → NoneConfirmed ti pf.longBits s.log

variable {pf ti} {i : Nat} {s s' : Process K} {r : Except Fault Bool}

/-- Requests other than the 828 and the 902 change neither count nor order. -/
theorem Sent.exchange {code : RequestCode} (hs : Sent pf ti i s) (h : Exchange pf code s r s')
    (hfile : code ≠ .sendFile) (hexit : code ≠ .exitCrc) : Sent pf ti i s' where
  exits := hs.exits.exchange h fun _ hloads hvalue =>
    absurd (RequestCode.value_injective (hloads.code_eq.symm.trans hvalue)) hexit
  transferInfo_eq := h.transferInfo_eq.trans hs.transferInfo_eq
  count := by rw [h.uploadAnswers_eq hfile, hs.count]

/-- An 828 counts once at most, whatever comes of it. -/
theorem Sent.upload_le (hs : Sent pf ti i s) (h : Exchange pf .sendFile s r s') :
    ∃ j, Sent pf ti j s' ∧ j ≤ i + 1 := by
  refine ⟨_, ⟨hs.exits.exchange h fun _ hloads hvalue => ?_,
    h.transferInfo_eq.trans hs.transferInfo_eq, rfl⟩, ?_⟩
  · exact absurd (RequestCode.value_injective (hloads.code_eq.symm.trans hvalue)) (by decide)
  · rw [← hs.count]
    rcases h.logged with heq | ⟨s₁, hloads, heq | ⟨packet, heq⟩⟩
    · rw [heq]
      omega
    · rw [heq, uploadAnswers_sent, if_pos hloads.code_eq, List.length_append]
      exact Nat.le_refl _
    · rw [heq, uploadAnswers_exchange, if_pos hloads.code_eq, List.length_append]
      exact Nat.le_refl _

/-- An answered 828 counts once. -/
theorem Sent.upload {b : Bool} (hs : Sent pf ti i s) (h : Exchange pf .sendFile s (.ok b) s') :
    Sent pf ti (i + 1) s' := by
  obtain ⟨j, hj, -⟩ := hs.upload_le h
  obtain ⟨folder, hanswers, -⟩ := h.upload
  have hcount := hj.count
  rw [hanswers, List.length_append, hs.count, List.length_singleton] at hcount
  exact hcount ▸ hj

/-- The answer to one more upload. -/
theorem Sent.answered {b : Bool} (hs : Sent pf ti i s)
    (hnone : NoneConfirmed ti pf.longBits s.log) (h : Exchange pf .sendFile s (.ok b) s') :
    Answered pf ti (i + 1) s' := by
  have hs' := hs.upload h
  obtain ⟨folder, hanswers, hname, hflag⟩ := h.upload
  refine { toSent := hs', name_length := hname, noneConfirmed := fun hinvalid answer hmem => ?_ }
  rw [hanswers] at hmem
  rcases List.mem_append.mp hmem with hmem | hmem
  · exact hnone answer hmem
  · refine ⟨_, folder, List.mem_singleton.mp hmem, fun hcode => ?_⟩
    rcases hflag with hverdict | ⟨hother, -⟩
    · rwa [hs'.transferInfo_eq, hinvalid] at hverdict
    · exact absurd hcode hother

/-! ## The stages -/

theorem triple_sent {code : RequestCode} (hfile : code ≠ .sendFile) (hexit : code ≠ .exitCrc)
    (hi : i ≤ 3) :
    Triple exec (Sent pf ti i) (sendAndRecieve pf code) (fun _ => Sent pf ti i)
      fun _ => WithinLimit pf ti :=
  triple_sendAndRecieve code (fun _ _ _ hs h => hs.exchange h hfile hexit)
    fun _ _ _ hs h => ⟨i, hs.exchange h hfile hexit, hi⟩

/-- `uploadFile` reaches `VALID_CRC` after one upload, or after three. -/
theorem triple_sendFile_counted (pf : Platform K) (ti : TransferInfo) :
    Triple exec (Sent pf ti 0) (sendFile pf)
      (fun goOn s => WithinLimit pf ti s ∧
        (goOn = true → Answered pf ti 1 s ∨
          Sent pf ti 3 s ∧ nameSize ≤ s.members.requestHandler.filename.length))
      fun _ => WithinLimit pf ti := by
  have hupload : ∀ j s s' r, Sent pf ti j s → j < 3 → Exchange pf .sendFile s r s' →
      WithinLimit pf ti s' := by
    intro j s s' r hs hj h
    obtain ⟨k, hk, hle⟩ := hs.upload_le h
    exact ⟨k, hk, by omega⟩
  refine (triple_sendFile (L := fun j s => Sent pf ti j s ∧
      nameSize ≤ s.members.requestHandler.filename.length ∧ (j = 1 → Answered pf ti 1 s))
    (triple_sent (by decide) (by decide) (by omega)) (triple_sendAndRecieve _ ?_ ?_)
    fun j hj hj' => triple_sendAndRecieve _ ?_ ?_).imp (fun _ hs => hs) ?_ fun _ _ hs => hs
  · intro s s' b hs h
    have hnone : NoneConfirmed ti pf.longBits s.log := by
      rw [NoneConfirmed, List.length_eq_zero_iff.mp hs.count]
      exact nofun
    have hs' := hs.answered hnone h
    exact ⟨hs'.toSent, hs'.name_length, fun _ => hs'⟩
  · exact fun s s' e hs h => hupload 0 s s' _ hs (by omega) h
  · intro s s' b hs h
    obtain ⟨folder, -, hname, -⟩ := h.upload
    exact ⟨hs.1.upload h, hname, by omega⟩
  · exact fun s s' e hs h => hupload j s s' _ hs.1 (by omega) h
  · rintro goOn s (⟨hs, rfl⟩ | ⟨hs, -, hanswered⟩ | ⟨hs, hname, -⟩)
    · exact ⟨⟨0, hs, by omega⟩, nofun⟩
    · exact ⟨⟨1, hs, by omega⟩, fun _ => .inl (hanswered rfl)⟩
    · exact ⟨⟨3, hs, by omega⟩, fun _ => .inr ⟨hs, hname⟩⟩

/-- The CRC loop after one upload: it ends within the limit, and with the flag not set
only after the third answer. -/
theorem triple_resendLoop_counted (pf : Platform K) (ti : TransferInfo) :
    Triple exec (Answered pf ti 1) (resendLoop pf 2)
      (fun _ s => ∃ i, Answered pf ti i s ∧ i ≤ 3 ∧ (s.members.crcValid = false → i = 3))
      fun _ => WithinLimit pf ti := by
  refine triple_resendLoop (L := Answered pf ti)
    (M := fun i s => Sent pf ti i s ∧ NoneConfirmed ti pf.longBits s.log) 2 1
    (fun j _ hj => triple_sendAndRecieve _ ?_ ?_) fun j _ hj => triple_sendAndRecieve _ ?_ ?_
  · rintro s s' b ⟨hs, hinvalid⟩ h
    refine ⟨hs.toSent.exchange h (by decide) (by decide), ?_⟩
    rw [NoneConfirmed, h.uploadAnswers_eq (by decide)]
    exact hs.noneConfirmed hinvalid
  · rintro s s' e ⟨hs, -⟩ h
    exact ⟨j, hs.toSent.exchange h (by decide) (by decide), by omega⟩
  · rintro s s' b ⟨hs, hnone⟩ h
    exact hs.answered hnone h
  · rintro s s' e ⟨hs, -⟩ h
    obtain ⟨k, hk, hle⟩ := hs.upload_le h
    exact ⟨k, hk, by omega⟩

theorem triple_confirmFile_counted :
    Triple exec (WithinLimit pf ti) (confirmFile pf) (fun _ => WithinLimit pf ti)
      fun _ => WithinLimit pf ti := by
  have hsend : Triple exec (WithinLimit pf ti) (sendAndRecieve pf .validCrc)
      (fun _ => WithinLimit pf ti) fun _ => WithinLimit pf ti := by
    rintro s ⟨i, hs, hi⟩
    exact (triple_sent (by decide) (by decide) hi).imp (fun _ hs => hs)
      (fun _ _ hs => ⟨i, hs, hi⟩) (fun _ _ hs => hs) s hs
  exact hsend.bind fun _ => (triple_resendIfServerError_const hsend).bind fun _ _ hs => hs

/-- A request that cannot be built is not sent. -/
theorem sendAndRecieve_unbuilt {code : RequestCode}
    (h : (Program.run exec (requestSelector pf.aesEncryptBlock code) s).1 ≠ .ok true) :
    ∃ e s', Program.run exec (sendAndRecieve pf code) s = (.error e, s') ∧ s'.log = s.log := by
  rw [sendAndRecieve, Program.run_bind]
  have hloads := requestSelector_loads pf.aesEncryptBlock code s
  generalize Program.run exec (requestSelector pf.aesEncryptBlock code) s = result at h hloads ⊢
  rcases result with ⟨e | _ | _, s'⟩
  · exact ⟨e, s', rfl, hloads.log_eq⟩
  · exact ⟨.exception, s', rfl, hloads.log_eq⟩
  · exact absurd rfl h

/-- The condition does not depend on what was logged before. -/
theorem ResendFits.behind {c : Process K} {past : List Event}
    (h : ResendFits pf s (c.behind past)) : ResendFits pf s c where
  once := h.once.imp_right fun hstops c₁ hc₁ => by
    have hrun := run_behind (sendAndRecieve pf .nValidCrc) c past
    rw [hc₁] at hrun
    have hbuilt := hstops _ hrun
    rwa [run_behind] at hbuilt
  answered := fun c' hc' hinvalid => by
    have hrun := run_behind (resendLoop pf 2) c past
    rw [hc'] at hrun
    exact h.answered _ hrun hinvalid

theorem ResendFits.of_behind {c : Process K} {past : List Event}
    (h : ResendFits pf s c) : ResendFits pf s (c.behind past) where
  once := h.once.imp_right fun hstops c₁ hc₁ => by
    rw [run_behind] at hc₁
    obtain ⟨hok, rfl⟩ := Prod.mk.inj hc₁
    rw [run_behind]
    exact hstops _ (Prod.ext hok rfl)
  answered := fun c' hc' hinvalid => by
    rw [run_behind] at hc'
    obtain ⟨hok, rfl⟩ := Prod.mk.inj hc'
    exact h.answered _ (Prod.ext hok rfl) hinvalid

/-! ## Within the limit -/

/-- The end of `resendEncryptedMessage`: the 902, if the flag is not set. -/
theorem triple_exit :
    Triple exec (fun s => ∃ i, Answered pf ti i s ∧ i ≤ 3 ∧
        (s.members.crcValid = false → ThreeRefuted ti pf.longBits s.log))
      (do
        if (← Cpp.members).crcValid then
          pure true
        else
          let _ ← sendAndRecieve pf .exitCrc
          pure false)
      (fun _ s => WithinLimit pf ti s) fun _ => WithinLimit pf ti := by
  refine triple_members.bind fun c => ?_
  split
  · rintro s ⟨⟨i, hs, hi, -⟩, rfl⟩
    exact ⟨i, hs.toSent, hi⟩
  · next hinvalid =>
    have hkeeps : ∀ s s' r, (∃ i, Answered pf ti i s ∧ i ≤ 3 ∧
        (s.members.crcValid = false → ThreeRefuted ti pf.longBits s.log)) ∧ c = s.members →
          Exchange pf .exitCrc s r s' → WithinLimit pf ti s' := by
      rintro s s' r ⟨⟨i, hs, hi, hrefuted⟩, rfl⟩ h
      have hthree := hrefuted (Bool.not_eq_true _ ▸ hinvalid)
      exact ⟨i, ⟨hs.exits.exchange h fun _ _ _ => hthree,
        h.transferInfo_eq.trans hs.transferInfo_eq,
        by rw [h.uploadAnswers_eq (by decide), hs.count]⟩, hi⟩
    have hexit : Triple exec (fun s => (∃ i, Answered pf ti i s ∧ i ≤ 3 ∧
        (s.members.crcValid = false → ThreeRefuted ti pf.longBits s.log)) ∧ c = s.members)
        (sendAndRecieve pf .exitCrc) (fun _ => WithinLimit pf ti) fun _ => WithinLimit pf ti :=
      triple_sendAndRecieve _ (fun s s' b hs h => hkeeps s s' _ hs h)
        fun s s' e hs h => hkeeps s s' _ hs h
    exact hexit.bind fun _ s hs => hs

/-- The CRC resend after one upload. -/
theorem resend_within {c : Process K} (hc : Answered pf ti 1 c)
    (hanswered : ∀ c', Program.run exec (resendLoop pf 2) c = (.ok (), c') →
      c'.members.crcValid = false → ∀ answer ∈ uploadAnswers c'.log,
        ∃ response folder, answer = some (response, folder) ∧
          ResponseCode.ofValue response.code = some .validCrcFile) :
    WithinLimit pf ti (Program.run exec (resendEncryptedMessage pf) c).2 := by
  have hloop := triple_resendLoop_counted pf ti c hc
  rw [resendEncryptedMessage, Program.run_bind]
  generalize Program.run exec (resendLoop pf 2) c = result at hloop hanswered ⊢
  rcases result with ⟨e | _, c'⟩
  · exact hloop
  · obtain ⟨i, hi, hle, hthree⟩ := hloop
    refine Triple.run_snd triple_exit ⟨i, hi, hle, fun hinvalid => ?_⟩
    refine ⟨hthree hinvalid ▸ hi.count, fun answer hmem => ?_⟩
    obtain ⟨response, folder, rfl, hcode⟩ := hanswered c' rfl hinvalid answer hmem
    obtain ⟨_, _, heq, hverdict⟩ := hi.noneConfirmed hinvalid _ hmem
    cases heq
    exact ⟨response, folder, rfl, hverdict hcode⟩

/-- After an error resend the limit is kept only because the client gets no further. -/
theorem resendLoop_stopped {c : Process K} (hc : Sent pf ti 3 c)
    (hinvalid : c.members.crcValid = false)
    (hstops : ∀ c₁, Program.run exec (sendAndRecieve pf .nValidCrc) c = (.ok true, c₁) →
      (Program.run exec (requestSelector pf.aesEncryptBlock .sendFile) c₁).1 ≠ .ok true) :
    ∃ e s', Program.run exec (resendLoop pf 2) c = (.error e, s') ∧ WithinLimit pf ti s' := by
  have hexchange := sendAndRecieve_exchange pf .nValidCrc c
  simp only [resendLoop, Program.run_bind, Cpp.run_members, hinvalid, Bool.false_eq_true, if_false]
  generalize Program.run exec (sendAndRecieve pf .nValidCrc) c = result at hexchange hstops ⊢
  rcases result with ⟨e | b, c₁⟩
  · exact ⟨e, c₁, rfl, 3, hc.exchange hexchange (by decide) (by decide), Nat.le_refl 3⟩
  · have hc₁ := hc.exchange hexchange (by decide) (by decide)
    obtain rfl : b = true := by cases hexchange <;> rfl
    obtain ⟨e, s', hrun, hlog⟩ := sendAndRecieve_unbuilt (hstops c₁ rfl)
    have hexchange' := sendAndRecieve_exchange pf .sendFile c₁
    rw [hrun] at hexchange'
    simp only [hrun]
    exact ⟨e, s', rfl, 3, ⟨hlog ▸ hc₁.exits,
      hexchange'.transferInfo_eq.trans hc₁.transferInfo_eq, hlog ▸ hc₁.count⟩, Nat.le_refl 3⟩

/-- **Enough for the limit.** -/
theorem retryLimit_of_fits {s : Process K}
    (hfits : ∀ c, Program.run exec (sendFile pf) s = (.ok true, c) →
      c.members.crcValid = false → ResendFits pf s c) :
    RetryLimit s.members.requestHandler.transferInfo pf.longBits (events (uploadFile pf) s) := by
  generalize hti : s.members.requestHandler.transferInfo = ti
  suffices hwithin : WithinLimit pf ti (Program.run exec (sendFile pf >>= fun goOn =>
      if goOn then (do if ← checkCrcValid pf then confirmFile pf) else pure ())
      { s with log := [] }).2 by
    rw [events_uploadFile]
    obtain ⟨i, hi, hle⟩ := hwithin
    exact ⟨hi.count ▸ hle, hi.exits⟩
  have hlog : ∀ c, (Program.run exec (sendFile pf) { s with log := [] }).2 = c →
      c.log = events (sendFile pf) s := by
    rintro c rfl
    rfl
  rw [run_sendFile_behind] at hfits
  rw [Program.run_bind]
  have hsend := triple_sendFile_counted pf ti { s with log := [] } ⟨eachSent_nil, hti, rfl⟩
  generalize Program.run exec (sendFile pf) { s with log := [] } = result at hfits hsend hlog ⊢
  rcases result with ⟨e | _ | _, c⟩
  · exact hsend
  · exact hsend.1
  have hlog : c.log = events (sendFile pf) s := hlog c rfl
  -- whatever `VALID_CRC` does, confirming sends no file and exits nothing
  suffices hcheck : WithinLimit pf ti (Program.run exec (checkCrcValid pf) c).2 by
    simp only [if_true, Program.run_bind]
    generalize Program.run exec (checkCrcValid pf) c = checked at hcheck ⊢
    rcases checked with ⟨e | _ | _, c'⟩
    · exact hcheck
    · exact hcheck
    · exact Triple.run_snd triple_confirmFile_counted hcheck
  cases hflag : c.members.crcValid with
  | true =>
    rw [run_checkCrcValid_true pf hflag]
    exact hsend.1
  | false =>
    rw [run_checkCrcValid_false pf hflag]
    have hfits : ResendFits pf s c := (hfits (c.behind s.log) rfl hflag).behind
    rcases hsend.2 rfl with hc | ⟨hc, -⟩
    · refine resend_within hc fun c' hc' hinvalid => ?_
      have hlog' : c'.log = events (sendFile pf) s ++ events (resendLoop pf 2) c := by
        rw [← hlog, ← log_run, hc']
      rw [hlog']
      exact hfits.answered c' hc' hinvalid
    · have hstops := hfits.once.resolve_left fun hone => by
        rw [← hlog, hc.count] at hone
        cases hone
      obtain ⟨e, s', hrun, hwithin⟩ := resendLoop_stopped hc hflag hstops
      rw [resendEncryptedMessage, Program.run_bind, hrun]
      exact hwithin

/-! ## Beyond the limit -/

/-- An error resend, a 901 and one more upload make four. -/
theorem fourth_upload {c c₁ : Process K} (hc : Sent pf ti 3 c)
    (hinvalid : c.members.crcValid = false)
    (hagain : Program.run exec (sendAndRecieve pf .nValidCrc) c = (.ok true, c₁))
    (hbuilt : (Program.run exec (requestSelector pf.aesEncryptBlock .sendFile) c₁).1 = .ok true) :
    3 < (uploadAnswers (Program.run exec (resendEncryptedMessage pf) c).2.log).length := by
  have hexchange := sendAndRecieve_exchange pf .nValidCrc c
  rw [hagain] at hexchange
  have hc₁ : Sent pf ti 3 c₁ := hc.exchange hexchange (by decide) (by decide)
  obtain ⟨c₂, hrun⟩ : ∃ c₂, Program.run exec (requestSelector pf.aesEncryptBlock .sendFile) c₁ =
      (.ok true, c₂) := ⟨_, Prod.ext hbuilt rfl⟩
  have hloads := requestSelector_loads pf.aesEncryptBlock .sendFile c₁
  rw [hrun] at hloads
  have hloop : Program.run exec (resendLoop pf 2) c =
      Program.run exec (sendAndRecieve pf .sendFile >>= fun _ => resendLoop pf 1) c₁ := by
    rw [resendLoop, Program.run_bind, Cpp.run_members]
    simp only [hinvalid, Bool.false_eq_true, if_false]
    rw [Program.run_bind, hagain]
  have hbefore : c₂.log ++ [.sent c₂.members.requestPacket c₂.folder] <+:
      (Program.run exec (resendEncryptedMessage pf) c).2.log :=
    ((sendAndRecieve_sends hrun).trans (log_bind _ _ c₁)).trans (hloop ▸ log_bind _ _ c)
  obtain ⟨rest, hrest⟩ := hbefore
  rw [← hrest, length_uploadAnswers_append, uploadAnswers_sent, if_pos hloads.code_eq,
    hloads.log_eq, List.length_append, hc₁.count, List.length_singleton]
  omega

/-- A flag that is not set after the CRC loop sends the 902. -/
theorem sends_exit {c c' : Process K} (hrun : Program.run exec (resendLoop pf 2) c = (.ok (), c'))
    (hinvalid : c'.members.crcValid = false)
    (hname : nameSize ≤ c'.members.requestHandler.filename.length) :
    ∃ packet, packet.code = RequestCode.exitCrc.value ∧ c'.log ++ [Event.sent packet c'.folder] <+:
      (Program.run exec (resendEncryptedMessage pf) c).2.log := by
  obtain ⟨packet, hcode, hload⟩ := run_crcRequest .exitCrc c' hname
  have hselect : Program.run exec (requestSelector pf.aesEncryptBlock .exitCrc) c' = _ := hload
  refine ⟨packet, hcode, ?_⟩
  rw [resendEncryptedMessage, Program.run_bind, hrun]
  simp only [Program.run_bind _ Cpp.members, Cpp.run_members, hinvalid, Bool.false_eq_true,
    if_false]
  exact (sendAndRecieve_sends hselect).trans (log_bind _ _ c')

/-- **Needed for the limit.** -/
theorem RetryLimit.fits {s c : Process K}
    (hlimit : RetryLimit s.members.requestHandler.transferInfo pf.longBits
      (events (uploadFile pf) s))
    (h : Program.run exec (sendFile pf) s = (.ok true, c))
    (hinvalid : c.members.crcValid = false) : ResendFits pf s c := by
  generalize hti : s.members.requestHandler.transferInfo = ti at hlimit
  have hlog : ∀ c, (Program.run exec (sendFile pf) { s with log := [] }).2 = c →
      c.log = events (sendFile pf) s := by
    rintro c rfl
    rfl
  rw [run_sendFile_behind] at h
  rw [events_uploadFile, Program.run_bind] at hlimit
  have hsend := triple_sendFile_counted pf ti { s with log := [] } ⟨eachSent_nil, hti, rfl⟩
  generalize Program.run exec (sendFile pf) { s with log := [] } = result at h hsend hlimit hlog
  rcases result with ⟨e | goOn, c₀⟩
  · cases (Prod.mk.inj h).1
  obtain ⟨hgo, rfl⟩ := Prod.mk.inj h
  cases hgo
  have hlog : c₀.log = events (sendFile pf) s := hlog c₀ rfl
  have hinvalid : c₀.members.crcValid = false := hinvalid
  -- what the CRC resend logs is a part of what the call logs
  have hbefore : (Program.run exec (resendEncryptedMessage pf) c₀).2.log <+:
      (Program.run exec (do if ← checkCrcValid pf then confirmFile pf) c₀).2.log := by
    rw [← run_checkCrcValid_false pf hinvalid]
    exact log_bind _ _ c₀
  have hwithin : (uploadAnswers
      (Program.run exec (resendEncryptedMessage pf) c₀).2.log).length ≤ 3 := by
    obtain ⟨rest, hrest⟩ := hbefore
    have huploads := hlimit.uploads
    simp only [if_true] at huploads
    rw [← hrest, length_uploadAnswers_append] at huploads
    omega
  have hexits : ∀ past packet folder, past ++ [.sent packet folder] <+:
      (Program.run exec (resendEncryptedMessage pf) c₀).2.log →
      packet.code = RequestCode.exitCrc.value → ThreeRefuted ti pf.longBits past :=
    fun past packet folder hpast => hlimit.exits.of_prefix (hpast.trans hbefore)
  refine ResendFits.of_behind ?_
  rcases hsend.2 rfl with hc | ⟨hc, -⟩
  · refine ⟨.inl (hlog ▸ hc.count), fun c' hc' hinvalid' answer hmem => ?_⟩
    have hloop := triple_resendLoop_counted pf ti c₀ hc
    rw [hc'] at hloop
    obtain ⟨i, hi, -, -⟩ := hloop
    obtain ⟨packet, hcode, hsent⟩ := sends_exit hc' hinvalid' hi.name_length
    have hlog' : c'.log = events (sendFile pf) s ++ events (resendLoop pf 2) c₀ := by
      rw [← hlog, ← log_run, hc']
    rw [← hlog'] at hmem
    obtain ⟨response, folder, heq, hverdict⟩ := (hexits _ _ _ hsent hcode).2 answer hmem
    exact ⟨response, folder, heq, hverdict.code_eq⟩
  · have hstops : ∀ c₁, Program.run exec (sendAndRecieve pf .nValidCrc) c₀ = (.ok true, c₁) →
        (Program.run exec (requestSelector pf.aesEncryptBlock .sendFile) c₁).1 ≠ .ok true :=
      fun c₁ hc₁ hbuilt => absurd (fourth_upload hc hinvalid hc₁ hbuilt) (by omega)
    obtain ⟨e, s', hrun, -⟩ := resendLoop_stopped hc hinvalid hstops
    refine ⟨.inr hstops, fun c' hc' => ?_⟩
    rw [hrun] at hc'
    cases (Prod.mk.inj hc').1

/-! ## By the responses -/

/-- The codes of the responses to the 828s of a log. -/
def uploadLabels (log : List Event) : List (Option ResponseCode) :=
  (uploadAnswers log).map fun answer =>
    answer.bind fun response => ResponseCode.ofValue response.1.code

/-- The codes of the responses to the 828s among these requests, if the response to the
first of them is the `n`-th in the stream. -/
def labelsFrom (s : Process K) : Nat → List RequestCode → List (Option ResponseCode)
  | _, [] => []
  | n, code :: codes =>
    if code = .nValidCrc then labelsFrom s n codes
    else if code = .sendFile then answerLabel s n :: labelsFrom s (n + 1) codes
    else labelsFrom s (n + 1) codes

/-- What two rounds of the CRC loop send. -/
def bothResends : List RequestCode := [.nValidCrc, .sendFile, .nValidCrc, .sendFile]

section Labels

variable {s t t' : Process K} {answers : List ResponsePacket} {codes : List RequestCode}

theorem labelsFrom_keys (s : Process K) (n k : Nat) (codes : List RequestCode) :
    labelsFrom s n (List.replicate k .sPublicKey ++ codes) = labelsFrom s (n + k) codes := by
  induction k generalizing n with
  | zero => rfl
  | succ k ih =>
    rw [List.replicate_succ, List.cons_append, labelsFrom, if_neg (by decide), if_neg (by decide),
      ih, Nat.add_assoc, Nat.add_comm 1 k]

theorem length_labelsFrom_files (s : Process K) (n k : Nat) :
    (labelsFrom s n (List.replicate k .sendFile)).length = k := by
  induction k generalizing n with
  | zero => rfl
  | succ k ih =>
    rw [List.replicate_succ, labelsFrom, if_neg (by decide), if_pos rfl, List.length_cons, ih]

/-- A run of exchanges logs the codes of the responses to its 828s. -/
theorem Heard.uploadLabels_eq (hs : Heard pf s answers t)
    (h : Program.run exec (sendAll pf codes) t = (.ok (), t')) :
    uploadLabels t'.log = uploadLabels t.log ++ labelsFrom s answers.length codes := by
  induction codes generalizing t answers with
  | nil =>
    cases h
    exact (List.append_nil _).symm
  | cons code codes ih =>
    rw [sendAll, Program.run_bind] at h
    have hexchange := sendAndRecieve_exchange pf code t
    generalize hfirst : Program.run exec (sendAndRecieve pf code) t = result at h hexchange
    rcases result with ⟨e | b, t₁⟩
    · cases h
    by_cases hcode : code = .nValidCrc
    · subst hcode
      rw [ih (hs.unanswered hfirst) h, labelsFrom, if_pos rfl, uploadLabels,
        hexchange.uploadAnswers_eq (by decide), ← uploadLabels]
    have hs₁ := hs.answered hcode hfirst
    have hrest := ih hs₁ h
    rw [List.length_append, List.length_singleton] at hrest
    rw [hrest, labelsFrom, if_neg hcode]
    by_cases hfile : code = .sendFile
    · subst hfile
      obtain ⟨folder, hanswers, -⟩ := hexchange.upload
      have hlabel := hs₁.label_eq (by simp)
      rw [List.length_append, List.length_singleton, Nat.add_sub_cancel] at hlabel
      rw [if_pos rfl, uploadLabels, hanswers, List.map_append, ← uploadLabels, List.append_assoc,
        hlabel]
      rfl
    · rw [if_neg hfile, uploadLabels, hexchange.uploadAnswers_eq hfile, ← uploadLabels]

/-- From wherever the log begins. -/
theorem Heard.uploadLabels_events (hs : Heard pf s answers t)
    (h : Program.run exec (sendAll pf codes) t = (.ok (), t')) :
    uploadLabels (events (sendAll pf codes) t) = labelsFrom s answers.length codes := by
  have hfresh : Heard pf s answers { t with log := [] } :=
    ⟨hs.stream, hs.state, hs.last, hs.transferInfo_eq, hs.userName_eq, hs.keyless⟩
  have hbehind := run_behind (sendAll pf codes) { t with log := [] } t.log
  have ht : Process.behind { t with log := [] } t.log = t := by simp [Process.behind]
  rw [ht, h] at hbehind
  exact hfresh.uploadLabels_eq (Prod.ext (Prod.mk.inj hbehind).1.symm rfl)

theorem all_checksums_iff {log : List Event} :
    (∀ answer ∈ uploadAnswers log, ∃ response folder, answer = some (response, folder) ∧
      ResponseCode.ofValue response.code = some .validCrcFile) ↔
    ∀ label ∈ uploadLabels log, label = some .validCrcFile := by
  rw [uploadLabels, List.forall_mem_map]
  refine forall₂_congr fun answer _ => ?_
  cases answer with
  | none => simp
  | some response =>
    obtain ⟨packet, folder⟩ := response
    simp

/-- Code that comes to the same state logs the same on the way. -/
theorem events_eq_of_run {α β : Type} {p : Cpp K α} {q : Cpp K β} {r : Except Fault α}
    {r' : Except Fault β} (h : Program.run exec p s = (r, t))
    (h' : Program.run exec q s = (r', t)) : events p s = events q s := by
  have hp := log_run p s
  have hq := log_run q s
  rw [h] at hp
  rw [h'] at hq
  exact List.append_cancel_left (hp.symm.trans hq)

theorem events_bind {α β : Type} {p : Cpp K α} {f : α → Cpp K β} {a : α}
    (h : Program.run exec p s = (.ok a, t)) :
    events (p >>= f) s = events p s ++ events (f a) t := by
  have hp := log_run p s
  have hf := log_run (f a) t
  have hboth := log_run (p >>= f) s
  rw [Program.run_bind, h] at hboth
  rw [h] at hp
  refine @List.append_cancel_left _ s.log _ _ (hboth.symm.trans ?_)
  rw [← List.append_assoc, ← hp]
  exact hf

/-- A round of the CRC loop. -/
theorem run_resendLoop_round (hinvalid : s.members.crcValid = false) (rounds : Nat) :
    Program.run exec (resendLoop pf (rounds + 1)) s =
      Program.run exec (sendAll pf [.nValidCrc, .sendFile] >>= fun _ => resendLoop pf rounds)
        s := by
  rw [resendLoop, Program.run_bind, Cpp.run_members]
  simp only [hinvalid, Bool.false_eq_true, if_false, sendAll, Program.bind_assoc,
    Program.pure_eq, Program.ret_bind]

/-- The CRC loop leaves the flag unset exactly if it goes through twice and neither
response sets it. -/
theorem Heard.run_resendLoop_iff (hs : Heard pf s answers t)
    (hinvalid : t.members.crcValid = false) :
    Program.run exec (resendLoop pf 2) t = (.ok (), t') ∧ t'.members.crcValid = false ↔
      Program.run exec (sendAll pf bothResends) t = (.ok (), t') ∧
        flagAfter pf s (answers.length + 1) = false ∧
        flagAfter pf s (answers.length + 2) = false := by
  have htwice : sendAll pf bothResends =
      sendAll pf [.nValidCrc, .sendFile] >>= fun _ => sendAll pf [.nValidCrc, .sendFile] :=
    sendAll_append pf [.nValidCrc, .sendFile] [.nValidCrc, .sendFile]
  rw [htwice, run_resendLoop_round hinvalid, Program.run_bind, Program.run_bind]
  generalize hfirst : Program.run exec (sendAll pf [.nValidCrc, .sendFile]) t = result
  rcases result with ⟨e | u, t₁⟩
  · exact iff_of_false (fun h => by cases h.1) fun h => by cases h.1
  obtain ⟨more, hs₁, hlength⟩ := hs.after hfirst
  have hlength : (answers ++ more).length = answers.length + 1 := by
    rw [List.length_append, hlength]
    rfl
  have hflag := hs₁.crcValid_eq
  rw [hlength] at hflag
  dsimp only
  cases hvalid : t₁.members.crcValid with
  | true =>
    -- the loop ends with the flag set
    refine iff_of_false (fun h => ?_) fun h => ?_
    · have hends : Program.run exec (resendLoop pf 1) t₁ = (.ok (), t₁) := by
        rw [resendLoop, Program.run_bind, Cpp.run_members]
        simp [hvalid]
      obtain rfl := (Prod.mk.inj (hends.symm.trans h.1)).2
      cases hvalid.symm.trans h.2
    · cases hvalid.symm.trans (hflag.trans h.2.1)
  | false =>
    rw [run_resendLoop_round hvalid, Program.run_bind]
    generalize hsecond : Program.run exec (sendAll pf [.nValidCrc, .sendFile]) t₁ = result
    rcases result with ⟨e | u, t₂⟩
    · exact iff_of_false (fun h => by cases h.1) fun h => by cases h.1
    obtain ⟨more', hs₂, hlength'⟩ := hs₁.after hsecond
    have hlength' : (answers ++ more ++ more').length = answers.length + 2 := by
      rw [List.length_append, hlength, hlength']
      rfl
    have hflag' := hs₂.crcValid_eq
    rw [hlength'] at hflag'
    constructor
    · rintro ⟨hsame, hlast⟩
      obtain rfl : t₂ = t' := (Prod.mk.inj hsame).2
      exact ⟨rfl, hflag.symm.trans hvalid, hflag'.symm.trans hlast⟩
    · rintro ⟨hsame, -, hlast⟩
      obtain rfl : t₂ = t' := (Prod.mk.inj hsame).2
      exact ⟨rfl, hflag'.trans hlast⟩

end Labels

variable (pf) in
/-- When the retries of a call from `s` keep the limit, by the responses in the stream. -/
structure RetriesFit (s : Process K) : Prop where
  /-- the first 828 is not answered by a 1607, or no further one can be built -/
  once : fileTries s = 1 ∨
    ∀ c, Program.run exec (sendAll pf (opening s ++ [.nValidCrc])) s = (.ok (), c) →
      (Program.run exec (requestSelector pf.aesEncryptBlock .sendFile) c).1 ≠ .ok true
  /-- if two CRC resends go through and leave the flag unset, then the responses to all
  three 828s are 1603s -/
  answered :
    GoesThrough pf (opening s ++ bothResends) s →
    flagAfter pf s (heardAtCheck s + 1) = false → flagAfter pf s (heardAtCheck s + 2) = false →
    ∀ i ≤ 2, answerLabel s (heardAtCheck s - 1 + i) = some .validCrcFile

section Fits

variable {c : Process K}

/-- A 901 behind the opening. -/
theorem run_opening_again {c₁ : Process K}
    (h : Program.run exec (sendAll pf (opening s)) s = (.ok (), c)) :
    Program.run exec (sendAll pf (opening s ++ [.nValidCrc])) s = (.ok (), c₁) ↔
      Program.run exec (sendAndRecieve pf .nValidCrc) c = (.ok true, c₁) := by
  have hexchange := sendAndRecieve_exchange pf .nValidCrc c
  rw [sendAll_append, Program.run_bind, h]
  simp only [sendAll, Program.run_bind]
  generalize Program.run exec (sendAndRecieve pf .nValidCrc) c = result at hexchange ⊢
  rcases result with ⟨e | b, c'⟩
  · exact iff_of_false (fun h => by cases h) fun h => by cases h
  · obtain rfl : b = true := by cases hexchange <;> rfl
    constructor
    · intro h
      cases h
      rfl
    · intro h
      cases h
      rfl

/-- The 828s before `VALID_CRC`. -/
theorem length_uploadAnswers_sendFile (h : Program.run exec (sendFile pf) s = (.ok true, c)) :
    (uploadAnswers (events (sendFile pf) s)).length = fileTries s := by
  obtain ⟨-, hopening⟩ := run_sendFile_iff.mp h
  have hlabels := (Heard.start pf s).uploadLabels_events hopening
  rw [events_eq_of_run h hopening, ← @List.length_map _ _ (uploadAnswers _) _]
  rw [uploadLabels] at hlabels
  rw [hlabels, opening, labelsFrom_keys, length_labelsFrom_files]

/-- With one 828 before `VALID_CRC`, these are the responses to the three. -/
theorem labelsFrom_three (hone : fileTries s = 1) :
    labelsFrom s 0 (opening s ++ bothResends) =
      [answerLabel s (heardAtCheck s - 1), answerLabel s (heardAtCheck s - 1 + 1),
        answerLabel s (heardAtCheck s - 1 + 2)] := by
  have hlast : heardAtCheck s - 1 = keyTries s := by rw [heardAtCheck, hone, Nat.add_sub_cancel]
  rw [opening, hone, List.append_assoc, labelsFrom_keys, Nat.zero_add, hlast]
  rfl

theorem forall_labelsFrom_three (hone : fileTries s = 1) {label : ResponseCode} :
    (∀ l ∈ labelsFrom s 0 (opening s ++ bothResends), l = some label) ↔
      ∀ i ≤ 2, answerLabel s (heardAtCheck s - 1 + i) = some label := by
  rw [labelsFrom_three hone]
  simp only [List.forall_mem_cons, List.not_mem_nil, false_implies, implies_true, and_true]
  constructor
  · rintro ⟨hfirst, hsecond, hthird⟩ i hi
    have hcases : i = 0 ∨ i = 1 ∨ i = 2 := by omega
    rcases hcases with rfl | rfl | rfl
    · exact hfirst
    · exact hsecond
    · exact hthird
  · intro h
    exact ⟨h 0 (by omega), h 1 (by omega), h 2 (by omega)⟩

/-- The CRC resends go through only if the 828 can be built again. -/
theorem once_of_through
    (honce : fileTries s = 1 ∨
      ∀ c, Program.run exec (sendAll pf (opening s ++ [.nValidCrc])) s = (.ok (), c) →
        (Program.run exec (requestSelector pf.aesEncryptBlock .sendFile) c).1 ≠ .ok true)
    (hall : GoesThrough pf (opening s ++ bothResends) s) : fileTries s = 1 := by
  refine honce.resolve_right fun hstops => ?_
  have hsplit : opening s ++ bothResends =
      (opening s ++ [.nValidCrc]) ++ [.sendFile, .nValidCrc, .sendFile] := by simp [bothResends]
  rw [GoesThrough, hsplit, sendAll_append, Program.run_bind] at hall
  generalize hagain : Program.run exec (sendAll pf (opening s ++ [.nValidCrc])) s = result at hall
  rcases result with ⟨e | u, c⟩
  · cases hall
  obtain ⟨e, c', hrun, -⟩ := sendAndRecieve_unbuilt (hstops c hagain)
  dsimp only at hall
  rw [sendAll, Program.run_bind, hrun] at hall
  cases hall

/-- When the CRC loop leaves the flag unset, by the responses to the whole call. -/
theorem run_resendLoop_iff {c' : Process K}
    (hopening : Program.run exec (sendAll pf (opening s)) s = (.ok (), c))
    (hinvalid : c.members.crcValid = false) :
    Program.run exec (resendLoop pf 2) c = (.ok (), c') ∧ c'.members.crcValid = false ↔
      Program.run exec (sendAll pf (opening s ++ bothResends)) s = (.ok (), c') ∧
        flagAfter pf s (heardAtCheck s + 1) = false ∧
        flagAfter pf s (heardAtCheck s + 2) = false := by
  obtain ⟨answers, hc, hlength⟩ := heard_opening hopening
  rw [hc.run_resendLoop_iff hinvalid, hlength, sendAll_append, Program.run_bind, hopening]

/-- What is logged on the way through both resends. -/
theorem uploadLabels_resent {c' : Process K}
    (h : Program.run exec (sendFile pf) s = (.ok true, c))
    (hresent : Program.run exec (resendLoop pf 2) c = (.ok (), c'))
    (hall : Program.run exec (sendAll pf (opening s ++ bothResends)) s = (.ok (), c')) :
    uploadLabels (events (sendFile pf) s ++ events (resendLoop pf 2) c) =
      labelsFrom s 0 (opening s ++ bothResends) := by
  have hboth : Program.run exec (sendFile pf >>= fun _ => resendLoop pf 2) s = (.ok (), c') := by
    rw [Program.run_bind, h]
    exact hresent
  rw [← events_bind (f := fun _ => resendLoop pf 2) h, events_eq_of_run hboth hall]
  exact (Heard.start pf s).uploadLabels_events hall

/-- **What the process needs at `VALID_CRC`** is what the responses say. -/
theorem resendFits_iff (h : Program.run exec (sendFile pf) s = (.ok true, c))
    (hinvalid : c.members.crcValid = false) : ResendFits pf s c ↔ RetriesFit pf s := by
  obtain ⟨-, hopening⟩ := run_sendFile_iff.mp h
  have honce : ((uploadAnswers (events (sendFile pf) s)).length = 1 ∨
      ∀ c₁, Program.run exec (sendAndRecieve pf .nValidCrc) c = (.ok true, c₁) →
        (Program.run exec (requestSelector pf.aesEncryptBlock .sendFile) c₁).1 ≠ .ok true) ↔
      (fileTries s = 1 ∨
        ∀ c₁, Program.run exec (sendAll pf (opening s ++ [.nValidCrc])) s = (.ok (), c₁) →
          (Program.run exec (requestSelector pf.aesEncryptBlock .sendFile) c₁).1 ≠
            .ok true) := by
    simp only [length_uploadAnswers_sendFile h, run_opening_again hopening]
  constructor
  · intro hfits
    have honce' := honce.mp hfits.once
    refine ⟨honce', fun hall hflag hflag' => ?_⟩
    have hrun : Program.run exec (sendAll pf (opening s ++ bothResends)) s =
        (.ok (), (Program.run exec (sendAll pf (opening s ++ bothResends)) s).2) :=
      Prod.ext hall rfl
    obtain ⟨hresent, hlast⟩ := (run_resendLoop_iff hopening hinvalid).mpr ⟨hrun, hflag, hflag'⟩
    have hchecked := all_checksums_iff.mp (hfits.answered _ hresent hlast)
    rw [uploadLabels_resent h hresent hrun] at hchecked
    exact (forall_labelsFrom_three (once_of_through honce' hall)).mp hchecked
  · intro hfits
    refine ⟨honce.mpr hfits.once, fun c' hresent hlast => ?_⟩
    obtain ⟨hrun, hflag, hflag'⟩ := (run_resendLoop_iff hopening hinvalid).mp ⟨hresent, hlast⟩
    have hall : GoesThrough pf (opening s ++ bothResends) s := by rw [GoesThrough, hrun]
    rw [all_checksums_iff, uploadLabels_resent h hresent hrun]
    exact (forall_labelsFrom_three (once_of_through hfits.once hall)).mpr
      (hfits.answered hall hflag hflag')

end Fits

/-- **The retry limit**: in a call of `uploadFile` from any state, over any responses,
the file is sent at most three times and a 902 follows three wrong checksums, if and
only if the retries, where the responses bring the call to `VALID_CRC` with the flag
unset, fit: no error resend came before them, and only 1603s left the flag unset. -/
theorem retry_limit_iff (pf : Platform K) (s : Process K) :
    RetryLimit s.members.requestHandler.transferInfo pf.longBits (events (uploadFile pf) s) ↔
      (ReachesCheck pf s → flagAfter pf s (heardAtCheck s) = false → RetriesFit pf s) := by
  constructor
  · intro hlimit hreaches hflag
    obtain ⟨c, hrun, hvalid, -⟩ := hreaches.at_check
    have hinvalid := hvalid.trans hflag
    exact (resendFits_iff hrun hinvalid).mp (hlimit.fits hrun hinvalid)
  · intro hfits
    refine retryLimit_of_fits fun c hrun hinvalid => (resendFits_iff hrun hinvalid).mpr ?_
    obtain ⟨hreaches, -⟩ := run_sendFile_iff.mp hrun
    obtain ⟨c', hrun', hvalid, -⟩ := hreaches.at_check
    obtain rfl : c = c' := (Prod.mk.inj (hrun.symm.trans hrun')).2
    exact hfits hreaches (hvalid.symm.trans hinvalid)

/-- The server answers the first 828 with an error and every other one with a wrong
checksum. -/
def unlucky : Process Bytes :=
  toyProcess [1] (fun name => if name = keyPriv then some [1] else none)
    (toyKeyFrame .inPublicOutCrypted [1] ++ responseFrame .generalErr [] ++
      (List.replicate 4 (responseFrame .validCrcFile [0, 0, 0, 0])).flatten ++
      responseFrame .msgRecieved [])

/-- Each of the two mechanisms resends twice: the file goes out five times. -/
theorem unlucky_sends_five : ¬ RetryLimit unlucky.members.requestHandler.transferInfo 32
    (events (uploadFile toyPlatform) unlucky) := by
  intro hlimit
  have hfive : (uploadAnswers (events (uploadFile toyPlatform) unlucky)).length = 5 := by
    decide +kernel
  exact absurd hlimit.uploads (by omega)

end FileTransfer.Client
