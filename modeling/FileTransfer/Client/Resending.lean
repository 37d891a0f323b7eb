import FileTransfer.Client.Retrying

/-!
# Resending after a server error

`errorResend` sends a request two more times, whatever is answered the first time,
and reads its verdict off the response that came last. Its sibling
`resendEncryptedMessage` looks after each round whether it may stop.
`errorResend_stops_iff` says when the two come to the same.
-/

namespace FileTransfer.Client

open FileTransfer.Effect FileTransfer.Server

variable {K : Type}

/-! ## Stopping at success -/

/-- The event is a call of `sendData`. -/
@[simp] def Event.isSent : Event → Bool
  | .sent _ _ => true
  | _ => false

/-- The event is a response other than 1607. -/
@[simp] def Event.succeeds : Event → Bool
  | .received packet _ => packet.code != ResponseCode.generalErr.value
  | _ => false

/-- What a resend of `toDo` should come to: at most two copies are sent, none after one
that was answered with another code than 1607, and `true` is returned exactly if there
was one. -/
@[mk_iff]
structure StopsAtSuccess (toDo : RequestCode) (result : Except Fault Bool) (log : List Event) :
    Prop where
  request : ∀ packet folder, .sent packet folder ∈ log → packet.code = toDo.value
  copies : log.countP Event.isSent ≤ 2
  stops : log.Pairwise fun earlier later => earlier.succeeds = true → later.isSent = false
  result : ∀ value, result = .ok value → (value = true ↔ ∃ e ∈ log, e.succeeds = true)

/-- When it does: if the first copy goes through, the response in hand is a 1607 then, or
no second copy follows. Nothing comes back for a 901, so there the response is the one
from before, and it is enough that the second copy does not go through. -/
def ResendsWell (pf : Platform K) (toDo : RequestCode) (s : Process K) : Prop :=
  ∀ c, Program.run exec (sendAndRecieve pf toDo) s = (.ok true, c) →
    c.members.responsePacket.code = ResponseCode.generalErr.value ∨
      if toDo = .nValidCrc then ∀ c', Program.run exec (sendAndRecieve pf toDo) c ≠ (.ok true, c')
      else (Program.run exec (requestSelector pf.aesEncryptBlock toDo) c).1 ≠ .ok true

/-! ## One round -/

/-- What a round adds to the log, and what it leaves in hand. -/
inductive Round (code : RequestCode) (s s' : Process K) :
    Except Fault Bool → List Event → Prop where
  | unsent {e : Fault} : Round code s s' (.error e) []
  | unanswered {e : Fault} {packet : RequestPacket} {folder : Folder} :
      packet.code = code.value → Round code s s' (.error e) [.sent packet folder]
  | oneWay {packet : RequestPacket} {folder : Folder} :
      code = .nValidCrc → packet.code = code.value →
      s'.members.responsePacket = s.members.responsePacket →
      Round code s s' (.ok true) [.sent packet folder]
  | rejected {e : Fault} {packet : RequestPacket} {folder folder' : Folder} :
      packet.code = code.value → Round code s s' (.error e)
        [.sent packet folder, .received s'.members.responsePacket folder']
  | accepted {packet : RequestPacket} {folder folder' : Folder} :
      code ≠ .nValidCrc → packet.code = code.value → Round code s s' (.ok true)
        [.sent packet folder, .received s'.members.responsePacket folder']

theorem Loads.responsePacket_eq {code : RequestCode} {s s' : Process K} {r : Except Fault Bool}
    (h : Loads code s r s') : s'.members.responsePacket = s.members.responsePacket := by
  cases h <;> rfl

/-- Every exchange is a round. -/
theorem Exchange.round {pf : Platform K} {code : RequestCode} {s s' : Process K}
    {r : Except Fault Bool} (h : Exchange pf code s r s') :
    ∃ tail, s'.log = s.log ++ tail ∧ Round code s s' r tail := by
  cases h with
  | unbuilt => exact ⟨[], (List.append_nil _).symm, .unsent⟩
  | unsent hloads =>
    exact ⟨_, by rw [← hloads.log_eq]; rfl, .unanswered hloads.code_eq⟩
  | oneWay hone hloads =>
    exact ⟨_, by rw [← hloads.log_eq]; rfl, .oneWay hone hloads.code_eq hloads.responsePacket_eq⟩
  | unanswered hloads =>
    exact ⟨_, by rw [← hloads.log_eq]; rfl, .unanswered hloads.code_eq⟩
  | @rejected _ _ s₁ _ _ _ packet hloads _ hreacts =>
    refine ⟨[.sent s₁.members.requestPacket s₁.folder,
      .received s'.members.responsePacket s₁.folder], ?_, .rejected hloads.code_eq⟩
    rw [hreacts.log_eq, hreacts.responsePacket_eq, ← hloads.log_eq]
    exact List.append_assoc _ [_] [_]
  | @accepted s₁ _ _ _ packet hone hloads hreacts =>
    refine ⟨[.sent s₁.members.requestPacket s₁.folder,
      .received s'.members.responsePacket s₁.folder], ?_, .accepted hone hloads.code_eq⟩
    rw [hreacts.log_eq, hreacts.responsePacket_eq, ← hloads.log_eq]
    exact List.append_assoc _ [_] [_]

theorem sendAndRecieve_round (pf : Platform K) (code : RequestCode) {s s' : Process K}
    {r : Except Fault Bool} (h : Program.run exec (sendAndRecieve pf code) s = (r, s')) :
    Round code s s' r (events (sendAndRecieve pf code) s) := by
  have hexchange := sendAndRecieve_exchange pf code s
  have hlog := log_run (sendAndRecieve pf code) s
  rw [h] at hexchange hlog
  obtain ⟨tail, htail, hround⟩ := hexchange.round
  rwa [← List.append_cancel_left (htail.symm.trans hlog)]

/-- A round adds nothing exactly if its request cannot be built. -/
theorem events_eq_nil_iff {pf : Platform K} {code : RequestCode} {s : Process K} :
    events (sendAndRecieve pf code) s = [] ↔
      (Program.run exec (requestSelector pf.aesEncryptBlock code) s).1 ≠ .ok true := by
  have hlog := log_run (sendAndRecieve pf code) s
  constructor
  · intro hnil hbuilt
    have hloads := requestSelector_loads pf.aesEncryptBlock code s
    rw [hbuilt] at hloads
    have hsends := sendAndRecieve_sends (Prod.ext hbuilt rfl)
    rw [hlog, hnil, List.append_nil, hloads.log_eq] at hsends
    have hlength := hsends.length_le
    simp at hlength
  · intro hunbuilt
    obtain ⟨e, s', hrun, hsame⟩ := sendAndRecieve_unbuilt hunbuilt
    rw [hrun, hsame] at hlog
    exact List.append_right_eq_self.mp hlog.symm

/-! ## Two rounds -/

section Rounds

variable {pf : Platform K} {toDo : RequestCode} {s c c' : Process K}

/-- What a piece of code logs, read off the log it leaves. -/
theorem events_eq_of_log {α : Type} {p : Cpp K α} {tail : List Event}
    (h : (Program.run exec p s).2.log = s.log ++ tail) : events p s = tail :=
  List.append_cancel_left ((log_run p s).symm.trans h)

/-- The first copy does not go through. -/
theorem errorResend_first_error {e : Fault}
    (h : Program.run exec (sendAndRecieve pf toDo) s = (.error e, c)) :
    (Program.run exec (errorResend pf toDo) s).1 = .error e ∧
      events (errorResend pf toDo) s = events (sendAndRecieve pf toDo) s := by
  have hrun : Program.run exec (errorResend pf toDo) s = (.error e, c) := by
    simp only [errorResend, errorResendLoop, Program.run_bind, h]
  refine ⟨by rw [hrun], events_eq_of_log ?_⟩
  rw [hrun, ← log_run, h]

/-- The first copy goes through: the second decides. -/
theorem run_errorResend (h : Program.run exec (sendAndRecieve pf toDo) s = (.ok true, c))
    {r : Except Fault Bool} (h' : Program.run exec (sendAndRecieve pf toDo) c = (r, c')) :
    Program.run exec (errorResend pf toDo) s =
      (r.map fun _ => c'.members.responsePacket.code != ResponseCode.generalErr.value, c') := by
  have hverdict : (ResponseCode.ofValue c'.members.responsePacket.code != some .generalErr) =
      (c'.members.responsePacket.code != ResponseCode.generalErr.value) := by
    rw [Bool.eq_iff_iff, bne_iff_ne, bne_iff_ne, Ne, Ne, ResponseCode.ofValue_eq_some, eq_comm]
  rw [← hverdict]
  cases r with
  | error e => simp only [errorResend, errorResendLoop, Program.run_bind, h, h', Except.map]
  | ok b =>
    simp only [errorResend, errorResendLoop, responseCode, Program.run_bind, h, h',
      Cpp.run_members, Program.pure_eq, Program.run_ret, Except.map]

/-- What is logged then. -/
theorem events_errorResend (h : Program.run exec (sendAndRecieve pf toDo) s = (.ok true, c)) :
    events (errorResend pf toDo) s =
      events (sendAndRecieve pf toDo) s ++ events (sendAndRecieve pf toDo) c := by
  refine events_eq_of_log ?_
  have hfirst := log_run (sendAndRecieve pf toDo) s
  rw [h] at hfirst
  rw [run_errorResend h rfl, ← List.append_assoc, ← hfirst]
  exact log_run (sendAndRecieve pf toDo) c

end Rounds

/-! ## When two rounds stop at success -/

section Stops

variable {toDo : RequestCode} {s c c' : Process K} {r r' : Except Fault Bool}
  {log log' : List Event}

theorem Round.request (h : Round toDo s c r log) :
    ∀ packet folder, .sent packet folder ∈ log → packet.code = toDo.value := by
  cases h with
  | unsent => simp
  | unanswered hcode => simp [hcode]
  | oneWay _ hcode => simp [hcode]
  | rejected hcode => simp [hcode]
  | accepted _ hcode => simp [hcode]

theorem Round.copies (h : Round toDo s c r log) : log.countP Event.isSent ≤ 1 := by
  cases h <;> simp [List.countP_cons]

/-- A round that does not go through ends the resend, and stops in time. -/
theorem Round.stopsAtSuccess {e : Fault} (h : Round toDo s c (.error e) log) :
    StopsAtSuccess toDo (.error e) log where
  request := h.request
  copies := h.copies.trans (by decide)
  stops := by cases h <;> simp
  result := fun _ hok => by cases hok

/-- Two rounds send two copies of the request at most. -/
theorem Round.stopsAtSuccess_iff {result : Except Fault Bool} (h : Round toDo s c r log)
    (h' : Round toDo c c' r' log') :
    StopsAtSuccess toDo result (log ++ log') ↔
      ((log ++ log').Pairwise fun earlier later =>
        earlier.succeeds = true → later.isSent = false) ∧
      ∀ value, result = .ok value → (value = true ↔ ∃ e ∈ log ++ log', e.succeeds = true) := by
  constructor
  · intro hstops
    exact ⟨hstops.stops, hstops.result⟩
  · intro hrest
    refine ⟨fun packet folder hsent => ?_, ?_, hrest.1, hrest.2⟩
    · exact (List.mem_append.mp hsent).elim (h.request packet folder) (h'.request packet folder)
    · rw [List.countP_append]
      exact Nat.add_le_add h.copies h'.copies

/-- A second round behind one that was answered: none may be sent, or there was no
success yet. -/
theorem Round.stops_behind_answer {packet : RequestPacket} {folder folder' : Folder}
    (hcode : toDo ≠ .nValidCrc) (h : Round toDo s c (.ok true)
      [Event.sent packet folder, Event.received c.members.responsePacket folder'])
    (h' : Round toDo c c' r' log') :
    StopsAtSuccess toDo
        (r'.map fun _ => c'.members.responsePacket.code != ResponseCode.generalErr.value)
        ([Event.sent packet folder, Event.received c.members.responsePacket folder'] ++ log') ↔
      c.members.responsePacket.code = ResponseCode.generalErr.value ∨ log' = [] := by
  rw [h.stopsAtSuccess_iff h']
  cases h' with
  | unsent => simp [Except.map]
  | unanswered => simp [Except.map]
  | oneWay hone => exact absurd hone hcode
  | rejected => simp [Except.map]
  | accepted =>
    simp only [Except.map, List.cons_append, List.nil_append]
    -- behind a first 1607 the last response is the only one that can be a success
    simpa using fun hsame hfirst => absurd hsame hfirst

/-- A second 901 behind the first: nothing comes back, so the verdict is that on an
earlier response. -/
theorem Round.stops_behind_oneWay {packet : RequestPacket} {folder : Folder}
    (hcode : toDo = .nValidCrc) (h : Round toDo s c (.ok true) [Event.sent packet folder])
    (h' : Round toDo c c' r' log') :
    StopsAtSuccess toDo
        (r'.map fun _ => c'.members.responsePacket.code != ResponseCode.generalErr.value)
        ([Event.sent packet folder] ++ log') ↔
      c.members.responsePacket.code = ResponseCode.generalErr.value ∨ r' ≠ .ok true := by
  rw [h.stopsAtSuccess_iff h']
  cases h' with
  | unsent => simp [Except.map]
  | unanswered => simp [Except.map]
  | oneWay _ _ hsame => simp [Except.map, hsame]
  | rejected => simp [Except.map]
  | accepted hone => exact absurd hcode hone

end Stops

/-- **When a resend stops at success**: exactly if the first copy is answered with 1607,
or there is no second one to follow it. -/
theorem errorResend_stops_iff (pf : Platform K) (toDo : RequestCode) (s : Process K) :
    StopsAtSuccess toDo (Program.run exec (errorResend pf toDo) s).1
      (events (errorResend pf toDo) s) ↔ ResendsWell pf toDo s := by
  obtain ⟨r, c, hfirst⟩ : ∃ r c, Program.run exec (sendAndRecieve pf toDo) s = (r, c) :=
    ⟨_, _, rfl⟩
  obtain ⟨r', c', hsecond⟩ : ∃ r' c', Program.run exec (sendAndRecieve pf toDo) c = (r', c') :=
    ⟨_, _, rfl⟩
  have hround := sendAndRecieve_round pf toDo hfirst
  have hround' := sendAndRecieve_round pf toDo hsecond
  have hwell : r = .ok true → (ResendsWell pf toDo s ↔
      c.members.responsePacket.code = ResponseCode.generalErr.value ∨
        if toDo = .nValidCrc then r' ≠ .ok true
        else events (sendAndRecieve pf toDo) c = []) := by
    intro hok
    subst hok
    simp [ResendsWell, hfirst, hsecond, events_eq_nil_iff]
  generalize hlog : events (sendAndRecieve pf toDo) s = log at hround
  cases r with
  | error e =>
    obtain ⟨hresult, hevents⟩ := errorResend_first_error hfirst
    rw [hresult, hevents, hlog]
    refine iff_of_true hround.stopsAtSuccess fun c' hok => ?_
    rw [hfirst] at hok
    cases (Prod.mk.inj hok).1
  | ok b =>
    obtain rfl : b = true := by
      cases hround <;> rfl
    rw [hwell rfl, run_errorResend hfirst hsecond, events_errorResend hfirst, hlog]
    cases hround with
    | oneWay hone hpacket hsame =>
      rw [if_pos hone]
      exact Round.stops_behind_oneWay hone (.oneWay hone hpacket hsame) hround'
    | accepted hother hpacket =>
      rw [if_neg hother]
      exact Round.stops_behind_answer hother (.accepted (s := s) hother hpacket) hround'

/-- A client whose key exchange was answered with 1607. The server accepts the key when
it is sent again, and not when it is sent once more. -/
def accepted : Process Bytes :=
  (Program.run exec (sendAndRecieve toyPlatform .sPublicKey)
    (toyProcess [1] (fun name => if name = keyPriv then some [1] else none)
      (responseFrame .generalErr [] ++ toyKeyFrame .inPublicOutCrypted [1] ++
        responseFrame .generalErr []))).2

/-- **It sends it once more, and takes the exchange for failed.** -/
theorem accepted_does_not_stop :
    accepted.members.responsePacket.code = ResponseCode.generalErr.value ∧
    (Program.run exec (errorResend toyPlatform .sPublicKey) accepted).1 = .ok false ∧
    ¬ StopsAtSuccess .sPublicKey
      (Program.run exec (errorResend toyPlatform .sPublicKey) accepted).1
      (events (errorResend toyPlatform .sPublicKey) accepted) := by
  obtain ⟨hcode, hfalse, hsuccess⟩ :
      accepted.members.responsePacket.code = ResponseCode.generalErr.value ∧
      (Program.run exec (errorResend toyPlatform .sPublicKey) accepted).1 = .ok false ∧
      ∃ e ∈ events (errorResend toyPlatform .sPublicKey) accepted, e.succeeds = true := by
    decide +kernel
  refine ⟨hcode, hfalse, fun h => ?_⟩
  exact absurd ((h.result false hfalse).mpr hsuccess) (by decide)

end FileTransfer.Client
