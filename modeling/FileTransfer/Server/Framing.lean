import FileTransfer.Server.Connection

/-!
# Framing of the request stream

What the protocol asks of `handle_request` is `WellFramed`: the bytes still to
come begin with a complete frame, and then `req_select` gets exactly that frame
and the connection is left right behind it; or they do not, and `req_select` is
not called. What the code needs for it is `FullReads`, a condition on the bytes
and on the transport alone. `wellFramed_iff` says these agree on every
connection, and `sessionLog_eq_requests` carries the calls of one method to
the sessions of `handle_client`.
-/

namespace FileTransfer.Server

namespace Conn

/-! ## Reading a list of sizes -/

/-- One `recv` for each size, the results joined. -/
def recvAll : List Nat → Conn → Bytes × Conn
  | [], c => ([], c)
  | n :: ns, c =>
    let data := c.recv n
    let rest := recvAll ns data.2
    (data.1 ++ rest.1, rest.2)

/-- From the `i`-th call on, the transport is willing to return each of these
sizes in one piece. -/
def Grants (cut : Nat → Nat) : Nat → List Nat → Prop
  | _, [] => True
  | i, n :: ns => n ≤ max 1 (cut i) ∧ Grants cut (i + 1) ns

/-- The loop of `receive_payload` asks for the chunk sizes of the payload. -/
theorem receiveLoop_eq (size : Nat) (payload : Bytes) (c : Conn) :
    receiveLoop size (min size Constants.chunkSize) payload c =
      (payload ++ (recvAll (chunkSizes Constants.chunkSize size) c).1,
        (recvAll (chunkSizes Constants.chunkSize size) c).2) := by
  induction size using Nat.strong_induction_on generalizing payload c with
  | _ size ih =>
    rw [receiveLoop]
    rcases Nat.eq_zero_or_pos size with rfl | hpos
    · rw [chunkSizes_zero]
      simp [recvAll]
    · have hchunk : 0 < Constants.chunkSize := by decide
      have hguard : 0 < size ∧ 0 < min size Constants.chunkSize := by omega
      rw [dif_pos hguard, chunkSizes_pos hpos hchunk]
      simp only [recvAll]
      rw [ih _ (by omega), List.append_assoc]

theorem receivePayload_eq (size : Nat) (c : Conn) :
    receivePayload size c = recvAll (chunkSizes Constants.chunkSize size) c := by
  rw [receivePayload, receiveLoop_eq]
  rfl

theorem recvAll_stream (ns : List Nat) (c : Conn) :
    (recvAll ns c).1 ++ (recvAll ns c).2.stream = c.stream := by
  induction ns generalizing c with
  | nil => rfl
  | cons n ns ih => rw [recvAll, List.append_assoc, ih, recv_stream]

@[simp] theorem recv_cut (c : Conn) (n : Nat) : (c.recv n).2.cut = c.cut := rfl

@[simp] theorem recv_calls (c : Conn) (n : Nat) : (c.recv n).2.calls = c.calls + 1 := rfl

theorem length_recv (c : Conn) (n : Nat) :
    (c.recv n).1.length = min (min n (max 1 (c.cut c.calls))) c.stream.length := by
  simp [recv]

theorem length_recvAll_le (ns : List Nat) (c : Conn) :
    (recvAll ns c).1.length ≤ ns.sum := by
  induction ns generalizing c with
  | nil => simp [recvAll]
  | cons n ns ih =>
    have hhead := length_recv c n
    have htail := ih (c.recv n).2
    simp only [recvAll, List.length_append, List.sum_cons]
    omega

/-- **Reads add up exactly when none was cut short**: the bytes asked for are
there, and the transport grants every read. -/
theorem length_recvAll_eq_sum_iff (ns : List Nat) (c : Conn) :
    (recvAll ns c).1.length = ns.sum ↔
      Grants c.cut c.calls ns ∧ ns.sum ≤ c.stream.length := by
  induction ns generalizing c with
  | nil => simp [recvAll, Grants]
  | cons n ns ih =>
    have hhead := length_recv c n
    have hle := length_recvAll_le ns (c.recv n).2
    have hstream := recv_stream_length c n
    have hih := ih (c.recv n).2
    simp only [recv_cut, recv_calls] at hih
    simp only [recvAll, List.length_append, List.sum_cons, Grants]
    constructor
    · intro h
      have htail : (recvAll ns (c.recv n).2).1.length = ns.sum := by omega
      obtain ⟨hgrants, hsum⟩ := hih.mp htail
      exact ⟨⟨by omega, hgrants⟩, by omega⟩
    · rintro ⟨⟨hgrant, hgrants⟩, hsum⟩
      have htail := hih.mpr ⟨hgrants, by omega⟩
      omega

/-! ## Frames -/

/-- The complete frame a stream begins with, and what follows it. -/
def nextFrame (stream : Bytes) : Option (Header × Bytes × Bytes) :=
  match unpackHeader (stream.take Constants.headerSize) with
  | none => none
  | some header =>
    if Constants.headerSize + header.size ≤ stream.length then
      some (header, (stream.drop Constants.headerSize).take header.size,
        stream.drop (Constants.headerSize + header.size))
    else none

/-- What framing asks of one call of `handle_request`. -/
def WellFramed (c : Conn) : Prop :=
  match nextFrame c.stream with
  | some (header, payload, rest) =>
    (c.receiveRequest).1 = some (header, payload) ∧ (c.receiveRequest).2.stream = rest
  | none => (c.receiveRequest).1 = none

/-- What the code needs for it. With a complete frame to come: every `recv` for
it returns as much as was asked. Without: not even a header is to come, or the
first `recv` cuts the header short. -/
def FullReads (c : Conn) : Prop :=
  match nextFrame c.stream with
  | some (header, _, _) =>
    Grants c.cut c.calls (Constants.headerSize :: chunkSizes Constants.chunkSize header.size)
  | none =>
    c.stream.length < Constants.headerSize ∨ max 1 (c.cut c.calls) < Constants.headerSize

theorem unpackHeader_isSome (data : Bytes) :
    (unpackHeader data).isSome ↔ data.length = Constants.headerSize := by
  unfold unpackHeader
  split <;> simp_all

/-- `handle_request` gets past the header exactly when the first `recv` returns
all 23 bytes of it. -/
theorem receiveRequest_eq_none_iff (c : Conn) :
    (c.receiveRequest).1 = none ↔
      c.stream.length < Constants.headerSize ∨ max 1 (c.cut c.calls) < Constants.headerSize := by
  have hheader : 0 < Constants.headerSize := by decide
  have hlen := length_recv c Constants.headerSize
  have hunpack := unpackHeader_isSome (c.recv Constants.headerSize).1
  simp only [receiveRequest]
  split
  · simp only [true_iff]
    omega
  · split
    · next hnone =>
      rw [hnone] at hunpack
      simp only [Option.isSome_none, Bool.false_eq_true, false_iff] at hunpack
      simp only [true_iff]
      omega
    · next hsome =>
      rw [hsome] at hunpack
      simp only [Option.isSome_some, true_iff] at hunpack
      simp only [reduceCtorEq, false_iff]
      omega

/-- A granted header is the next 23 bytes, and the payload is read behind it. -/
theorem receiveRequest_of_header {c : Conn} {header : Header}
    (hstream : Constants.headerSize ≤ c.stream.length)
    (hgrant : Constants.headerSize ≤ max 1 (c.cut c.calls))
    (hunpack : unpackHeader (c.stream.take Constants.headerSize) = some header) :
    (c.recv Constants.headerSize).1 = c.stream.take Constants.headerSize ∧
      (c.recv Constants.headerSize).2.stream = c.stream.drop Constants.headerSize ∧
      c.receiveRequest =
        (some (header, (recvAll (chunkSizes Constants.chunkSize header.size)
            (c.recv Constants.headerSize).2).1),
          (recvAll (chunkSizes Constants.chunkSize header.size)
            (c.recv Constants.headerSize).2).2) := by
  have hk : min Constants.headerSize (max 1 (c.cut c.calls)) = Constants.headerSize := by omega
  have hdata : (c.recv Constants.headerSize).1 = c.stream.take Constants.headerSize := by
    simp only [recv, hk]
  have hrest : (c.recv Constants.headerSize).2.stream = c.stream.drop Constants.headerSize := by
    simp only [recv, hk]
  have hne : ¬ (c.stream.take Constants.headerSize).length = 0 := by
    have hheader : 0 < Constants.headerSize := by decide
    rw [List.length_take]
    omega
  refine ⟨hdata, hrest, ?_⟩
  simp only [receiveRequest, hdata, if_neg hne, hunpack, receivePayload_eq]

theorem nextFrame_eq_some {stream : Bytes} {header : Header} {payload rest : Bytes}
    (h : nextFrame stream = some (header, payload, rest)) :
    unpackHeader (stream.take Constants.headerSize) = some header ∧
      Constants.headerSize + header.size ≤ stream.length ∧
      payload = (stream.drop Constants.headerSize).take header.size ∧
      rest = stream.drop (Constants.headerSize + header.size) := by
  simp only [nextFrame] at h
  split at h
  · cases h
  · split at h
    · next hunpack hle => cases h; exact ⟨hunpack, hle, rfl, rfl⟩
    · cases h

/-- With a complete frame to come, the call is right exactly when every read is
granted. -/
theorem wellFramed_iff_of_frame {c : Conn} {header : Header} {payload rest : Bytes}
    (h : nextFrame c.stream = some (header, payload, rest)) :
    ((c.receiveRequest).1 = some (header, payload) ∧ (c.receiveRequest).2.stream = rest) ↔
      Grants c.cut c.calls
        (Constants.headerSize :: chunkSizes Constants.chunkSize header.size) := by
  obtain ⟨hunpack, hle, rfl, rfl⟩ := nextFrame_eq_some h
  by_cases hgrant : Constants.headerSize ≤ max 1 (c.cut c.calls)
  · obtain ⟨-, hrest, hreq⟩ := receiveRequest_of_header (by omega) hgrant hunpack
    generalize hns : chunkSizes Constants.chunkSize header.size = ns at hreq
    have hsum : ns.sum = header.size := hns ▸ sum_chunkSizes (by decide) _
    have hiff := length_recvAll_eq_sum_iff ns (c.recv Constants.headerSize).2
    have happ := recvAll_stream ns (c.recv Constants.headerSize).2
    have hdrop : header.size ≤ (c.stream.drop Constants.headerSize).length := by
      rw [List.length_drop]
      omega
    simp only [recv_cut, recv_calls, hrest, hsum, hdrop, and_true] at hiff
    rw [hrest] at happ
    simp only [hreq, Grants, hgrant, true_and, ← hiff, Option.some.injEq, Prod.mk.injEq]
    constructor
    · rintro ⟨hpayload, -⟩
      rw [hpayload, List.length_take]
      omega
    · intro hlen
      rw [← List.drop_drop, ← happ, ← hlen]
      simp
  · have hnone : (c.receiveRequest).1 = none :=
      (receiveRequest_eq_none_iff c).mpr (.inr (by omega))
    simp [hnone, Grants, hgrant]

/-- **Framing holds exactly under full reads**, on every connection. -/
theorem wellFramed_iff (c : Conn) : c.WellFramed ↔ c.FullReads := by
  simp only [WellFramed, FullReads]
  split
  · next h => exact wellFramed_iff_of_frame h
  · exact receiveRequest_eq_none_iff c

/-! ## Successive calls -/

/-- What up to `n` successive calls pass to `req_select`, ending with the first
that does not call it. -/
def requests : Nat → Conn → List (Header × Bytes)
  | 0, _ => []
  | n + 1, c =>
    match (c.receiveRequest).1 with
    | none => []
    | some req => req :: requests n (c.receiveRequest).2

/-- The first `n` frames of a stream, ending where no complete frame is left. -/
def frames : Nat → Bytes → List (Header × Bytes)
  | 0, _ => []
  | n + 1, stream =>
    match nextFrame stream with
    | none => []
    | some (header, payload, rest) => (header, payload) :: frames n rest

/-- `P` holds of the connection at each of these calls. -/
def AtEachCall (P : Conn → Prop) : Nat → Conn → Prop
  | 0, _ => True
  | n + 1, c => P c ∧ ((c.receiveRequest).1.isSome → AtEachCall P n (c.receiveRequest).2)

/-- Calls that are all well framed go through the frames of the stream. -/
theorem requests_eq_frames {n : Nat} {c : Conn} (h : AtEachCall WellFramed n c) :
    requests n c = frames n c.stream := by
  induction n generalizing c with
  | zero => rfl
  | succ n ih =>
    obtain ⟨hc, hnext⟩ := h
    simp only [WellFramed] at hc
    simp only [requests, frames]
    split at hc
    · next hframe =>
      obtain ⟨hreq, hrest⟩ := hc
      rw [hframe, hreq]
      simp only
      rw [ih (hnext (by rw [hreq]; rfl)), hrest]
    · next hframe => rw [hframe, hc]

theorem requests_take (n m : Nat) (c : Conn) :
    (requests m c).take n = requests (min n m) c := by
  induction m generalizing n c with
  | zero => simp [requests]
  | succ m ih =>
    cases n with
    | zero => simp [requests]
    | succ n =>
      rw [Nat.succ_min_succ]
      simp only [requests]
      split
      · rfl
      · rw [List.take_succ_cons, ih]

theorem frames_prefix {n m : Nat} (h : n ≤ m) (stream : Bytes) :
    frames n stream <+: frames m stream := by
  induction n generalizing m stream with
  | zero => exact List.nil_prefix
  | succ n ih =>
    obtain ⟨m, rfl⟩ : ∃ k, m = k + 1 := ⟨m - 1, by omega⟩
    simp only [frames]
    split
    · exact List.prefix_refl _
    · exact (List.prefix_cons_inj _).mpr (ih (by omega) _)

theorem AtEachCall.mono {P : Conn → Prop} {n m : Nat} {c : Conn} (h : AtEachCall P m c)
    (hnm : n ≤ m) : AtEachCall P n c := by
  induction n generalizing m c with
  | zero => trivial
  | succ n ih =>
    obtain ⟨m, rfl⟩ : ∃ k, m = k + 1 := ⟨m - 1, by omega⟩
    exact ⟨h.1, fun hsome => ih (h.2 hsome) (by omega)⟩

theorem AtEachCall.imp {P Q : Conn → Prop} (hPQ : ∀ c, P c → Q c) {n : Nat} {c : Conn}
    (h : AtEachCall P n c) : AtEachCall Q n c := by
  induction n generalizing c with
  | zero => trivial
  | succ n ih => exact ⟨hPQ c h.1, fun hsome => ih (h.2 hsome)⟩

end Conn

/-! ## Sessions -/

section Session

open Conn

variable {σ : Type} (select : Header → Bytes → σ → Except Raised Handled × σ)

/-- `select`, keeping a log of what it was called with. -/
def logged (header : Header) (payload : Bytes) (s : σ × List (Header × Bytes)) :
    Except Raised Handled × (σ × List (Header × Bytes)) :=
  ((select header payload s.1).1, (select header payload s.1).2, s.2 ++ [(header, payload)])

/-- The calls of `req_select` in one session of `handle_client`. -/
def sessionLog (c : Conn) (s : σ) : List (Header × Bytes) :=
  (handleClient (logged select) c (s, [])).2.2.2

/-- One `handle_request`, nested ones included, logs what some number of calls
pass on. When it responds, the next call is the one after them. -/
theorem handleRequest_logged (c : Conn) (s : σ) (log : List (Header × Bytes)) :
    ∃ n, (handleRequest (logged select) c (s, log)).2.2.2 = log ++ requests n c ∧
      (∀ response, response ≠ [] →
        (handleRequest (logged select) c (s, log)).1 = some response →
        ∀ m, requests (n + m) c =
          requests n c ++ requests m (handleRequest (logged select) c (s, log)).2.1) := by
  induction hlen : c.stream.length using Nat.strong_induction_on generalizing c s log with
  | _ len ih =>
    have hlt : ∀ req, c.receiveRequest.1 = some req →
        c.receiveRequest.2.stream.length < c.stream.length :=
      fun _ => receiveRequest_stream_lt
    rw [handleRequest_eq]
    split
    · next c' hrecv =>
      refine ⟨0, by simp [requests], fun response hne h => ?_⟩
      cases h
      exact absurd rfl hne
    · next header payload c' hrecv =>
      rw [hrecv] at hlt
      have hc' : c'.stream.length < len := hlen ▸ hlt _ rfl
      -- this call passes one request on
      have hone : ∀ m, requests (m + 1) c = (header, payload) :: requests m c' := by
        intro m
        simp [requests, hrecv]
      have hstop : requests 1 c = [(header, payload)] := hone 0
      simp only [logged]
      split
      · next hsel =>
        obtain ⟨-, rfl⟩ := Prod.mk.inj hsel
        refine ⟨1, by rw [hstop], fun response _ _ m => ?_⟩
        rw [Nat.add_comm, hone, hstop]
        rfl
      · next hsel =>
        obtain ⟨-, rfl⟩ := Prod.mk.inj hsel
        -- a 901: the nested call passes on the requests behind it
        obtain ⟨n, hlog, hnext⟩ := ih _ hc' c' _ (log ++ [(header, payload)]) rfl
        refine ⟨n + 1, ?_, fun response hne h m => ?_⟩
        · rw [hlog, hone, List.append_assoc]
          rfl
        · rw [Nat.add_right_comm, hone, hnext response hne h m, hone]
          rfl
      · next hsel =>
        obtain ⟨-, rfl⟩ := Prod.mk.inj hsel
        refine ⟨1, by rw [hstop], fun response hne h => ?_⟩
        cases h
        exact absurd rfl hne
      · next hsel =>
        obtain ⟨-, rfl⟩ := Prod.mk.inj hsel
        exact ⟨1, by rw [hstop], fun response hne h => by cases h⟩

theorem handleClient_logged (c : Conn) (s : σ) (log : List (Header × Bytes)) :
    ∃ n, (handleClient (logged select) c (s, log)).2.2.2 = log ++ requests n c := by
  induction hlen : c.stream.length using Nat.strong_induction_on generalizing c s log with
  | _ len ih =>
    obtain ⟨n, hlog, hnext⟩ := handleRequest_logged select c s log
    have hlt : ∀ response, (handleRequest (logged select) c (s, log)).1 = some response →
        response ≠ [] →
        (handleRequest (logged select) c (s, log)).2.1.stream.length < c.stream.length :=
      fun _ => handleRequest_stream_lt (logged select)
    rw [handleClient]
    split
    · next b bs c' s' hreq =>
      rw [hreq] at hlog hnext hlt
      obtain ⟨m, hm⟩ := ih _ (hlen ▸ hlt _ rfl (by simp)) c' s'.1 s'.2 rfl
      refine ⟨n + m, ?_⟩
      simp only at hm hlog ⊢
      rw [hm, hlog, List.append_assoc, hnext _ (by simp) rfl m]
    · next c' s' hreq =>
      rw [hreq] at hlog
      exact ⟨n, hlog⟩

/-- A session makes successive calls: whatever `req_select` answers, the session
logs what some number of successive calls pass on. -/
theorem sessionLog_eq_requests (c : Conn) (s : σ) :
    ∃ n, sessionLog select c s = requests n c := by
  obtain ⟨n, h⟩ := handleClient_logged select c s []
  exact ⟨n, h⟩

/-- **Framing of the request stream.** On every connection a call of
`handle_request` is well framed exactly when its reads are full; and as long as
the calls of a session have full reads, `req_select` gets the frames of the
stream, one after another, whatever it answers. -/
theorem session_framing (c : Conn) (s : σ) :
    (∀ c' : Conn, c'.WellFramed ↔ c'.FullReads) ∧
      ∀ n, AtEachCall FullReads n c →
        (sessionLog select c s).take n <+: frames n c.stream := by
  refine ⟨wellFramed_iff, fun n hfull => ?_⟩
  obtain ⟨m, hlog⟩ := sessionLog_eq_requests select c s
  have hwell : AtEachCall WellFramed (min n m) c :=
    (hfull.mono (Nat.min_le_left n m)).imp fun c' => (wellFramed_iff c').mpr
  rw [hlog, requests_take, requests_eq_frames hwell]
  exact frames_prefix (Nat.min_le_left n m) c.stream

end Session

/-- A sign-in (827) for `"a"`: its two bytes of payload come in two segments. -/
def splitSignIn : Conn where
  stream := List.replicate 16 7 ++ [3, 0x3b, 0x03, 2, 0, 0, 0] ++ [0x61, 0x00]
  cut i := if i = 0 then 23 else 1
  calls := 0

/-- The loop stops after one `recv(2)` that returned one byte: `req_select` gets
half of the payload, although all of the frame arrives. -/
theorem split_payload_is_cut_short : ¬ ∀ c : Conn, c.WellFramed := by
  intro h
  have hframe : Conn.nextFrame splitSignIn.stream =
      some (⟨⟨List.replicate 16 7, rfl⟩, 3, 827, 2⟩, [0x61, 0x00], []) := by decide +kernel
  have hreq : splitSignIn.receiveRequest.1 =
      some (⟨⟨List.replicate 16 7, rfl⟩, 3, 827, 2⟩, [0x61]) := by decide +kernel
  have hcall := h splitSignIn
  simp only [Conn.WellFramed, hframe, hreq] at hcall
  exact absurd hcall.1 (by decide)

end FileTransfer.Server
