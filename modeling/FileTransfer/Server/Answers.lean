import FileTransfer.Server.Endings
import FileTransfer.Server.Framing

/-!
# Requests and their answers

What `req_select` does with a version and a code, and from it when a call of
`handle_request` answers its request. A whole session then pairs requests and
responses: every request but a 901 gets one response, in order, and the 901s
could as well not have been sent.
-/

namespace FileTransfer.Server

open FileTransfer.Effect

/-! ## Selection -/

/-- The keys of `create_operations_map`. -/
def knownCodes : List Nat :=
  [Constants.register, Constants.sPublicKey, Constants.sendFile, Constants.reconnect,
    Constants.nValidCrc, Constants.exitCrc, Constants.validCrc]

section Serve

variable {env : Env} {crypto : Crypto} {header : Header} {payload : Bytes} {w : World}

theorem responseMap_eq_none {code : Nat} (h : code ∉ knownCodes) :
    responseMap env crypto code = none := by
  simp only [knownCodes, List.mem_cons, List.not_mem_nil, or_false, not_or] at h
  simp only [responseMap, h, if_false]

/-- Another version is refused. -/
theorem serve_otherVersion (hversion : header.version ≠ Constants.version) :
    serve env crypto header payload w = (.ok (.response errorResponse), w) := by
  rw [serve, reqSelect, if_pos hversion]
  rfl

/-- An unknown code is called before it is tested. -/
theorem serve_unknownCode (hversion : header.version = Constants.version)
    (hcode : header.code ∉ knownCodes) :
    serve env crypto header payload w = (.error (.exception .typeError), w) := by
  have hmap : responseMap env crypto header.code = none := responseMap_eq_none hcode
  simp only [serve, reqSelect, hversion, ne_eq, not_true_eq_false, if_false, hmap, run_raise]

/-- A 901 leaves the answer to the next request, and changes nothing. -/
theorem serve_resend (hversion : header.version = Constants.version)
    (hcode : header.code = Constants.nValidCrc) :
    serve env crypto header payload w = (.ok .handleRequest, w) := by
  have hmap : responseMap env crypto header.code = some resendCrc := by
    rw [hcode]
    rfl
  simp only [serve, reqSelect, hversion, ne_eq, not_true_eq_false, if_false, hmap]
  rfl

/-- What a handler that always returns answers. -/
theorem serve_of_returns {handler : Uid → Nat → Bytes → Py Bytes}
    (hversion : header.version = Constants.version)
    (hmap : responseMap env crypto header.code = some (respond handler))
    (h : Returns (handler header.uid (handlerArg header) payload) WellFormed) :
    ∃ response w', serve env crypto header payload w = (.ok (.response response), w') ∧
      WellFormed response := by
  have hend := Program.run_ends (noExit_exec env) h w
  rw [serve_respond hversion hmap]
  generalize Program.run (exec env) (handler header.uid (handlerArg header) payload) w = result
    at hend ⊢
  rcases result with ⟨e | response, w'⟩
  · exact hend.elim
  · exact ⟨response, w', rfl, hend⟩

end Serve

namespace Step

variable (env : Env) (crypto : Crypto) (s : Step)

/-- The request is an upload whose file is saved and cannot be read back. -/
def CannotReadBack : Prop :=
  s.header.version = Constants.version ∧ s.header.code = Constants.sendFile ∧
    ReadBackFails env crypto s.header.uid s.payload s.before

/-- The response to the request, where it has one of its own. -/
def response : Option Bytes :=
  match (serve env crypto s.header s.payload s.before).1 with
  | .ok (.response response) => some response
  | _ => none

variable {env crypto s}

theorem exits_of_cannotReadBack (h : s.CannotReadBack env crypto) :
    ∃ w', serve env crypto s.header s.payload s.before = (.error .systemExit, w') := by
  obtain ⟨hversion, hcode, hread⟩ := h
  have hmap : responseMap env crypto s.header.code =
      some (respond (handleEncryptedFile env crypto)) := by rw [hcode]; rfl
  have hexit : Exits env (handleEncryptedFile env crypto s.header.uid (handlerArg s.header)
    s.payload) s.before := exits_handleEncryptedFile.mpr hread
  rw [serve_respond hversion hmap]
  rw [Exits] at hexit
  generalize Program.run (exec env) (handleEncryptedFile env crypto s.header.uid
    (handlerArg s.header) s.payload) s.before = result at hexit ⊢
  rcases result with ⟨r, w'⟩
  obtain rfl : r = .error .systemExit := hexit
  exact ⟨w', rfl⟩

/-- **A known code is answered**, 901 apart, whatever the state of the tables and
the disk, unless the file just saved cannot be read back. -/
theorem serve_answers (hversion : s.header.version = Constants.version)
    (hcode : s.header.code ∈ knownCodes) (hresend : s.header.code ≠ Constants.nValidCrc)
    (hread : ¬ s.CannotReadBack env crypto) :
    ∃ response w', serve env crypto s.header s.payload s.before = (.ok (.response response), w') ∧
      WellFormed response := by
  simp only [knownCodes, List.mem_cons, List.not_mem_nil, or_false] at hcode
  rcases hcode with hcode | hcode | hcode | hcode | hcode | hcode | hcode
  · exact serve_of_returns hversion (by rw [hcode]; rfl) (returns_registerNewClient _ _ _)
  · exact serve_of_returns hversion (by rw [hcode]; rfl) (returns_handlePublicKey _ _ _ _)
  · -- an upload returns or exits, and it does not exit
    have hmap : responseMap env crypto s.header.code =
        some (respond (handleEncryptedFile env crypto)) := by rw [hcode]; rfl
    have hend := Program.run_ends (noExit_exec env)
      (@ends_handleEncryptedFile env crypto s.header.uid (handlerArg s.header) s.payload) s.before
    have hstay : ¬ Exits env (handleEncryptedFile env crypto s.header.uid (handlerArg s.header)
        s.payload) s.before :=
      fun hexit => hread ⟨hversion, hcode, exits_handleEncryptedFile.mp hexit⟩
    rw [serve_respond hversion hmap]
    rw [Exits] at hstay
    generalize Program.run (exec env) (handleEncryptedFile env crypto s.header.uid
      (handlerArg s.header) s.payload) s.before = result at hend hstay ⊢
    rcases result with ⟨e | response, w'⟩
    · exact absurd (congrArg Except.error hend) hstay
    · exact ⟨response, w', rfl, hend⟩
  · exact serve_of_returns hversion (by rw [hcode]; rfl) (returns_handleSignInReqeust _ _ _ _)
  · exact absurd hcode hresend
  · exact serve_of_returns hversion (by rw [hcode]; rfl) (returns_validOrAbort _ _ _)
  · exact serve_of_returns hversion (by rw [hcode]; rfl) (returns_validOrAbort _ _ _)

end Step

/-! ## One call of handle_request -/

section Call

variable (env : Env) (crypto : Crypto)

/-- The next request on `c`, behind which the connection is at `c'`, is answered
as documented: with one well-formed frame, after which the session goes on; and
a wrong version or an unknown code with the error response, changing nothing. -/
def AnswersNext (c c' : Conn) (header : Header) (w : World) : Prop :=
  ∃ response w', handleRequest (serve env crypto) c w = (some response, c', w') ∧
    WellFormed response ∧
    (handleClient (serve env crypto) c w).1 =
      response :: (handleClient (serve env crypto) c' w').1 ∧
    (header.version ≠ Constants.version ∨ header.code ∉ knownCodes →
      response = errorResponse ∧ w'.clients = w.clients ∧ w'.files = w.files ∧ w'.disk = w.disk)

variable {env crypto} {c c' : Conn} {header : Header} {payload : Bytes} {w : World}

theorem answersNext_of_serve (hreceive : c.receiveRequest = (some (header, payload), c'))
    {response : Bytes} {w' : World}
    (hserve : serve env crypto header payload w = (.ok (.response response), w'))
    (hwell : WellFormed response)
    (hrefused : header.version ≠ Constants.version ∨ header.code ∉ knownCodes →
      response = errorResponse ∧ w' = w) : AnswersNext env crypto c c' header w := by
  have hcall : handleRequest (serve env crypto) c w = (some response, c', w') := by
    rw [handleRequest_eq, hreceive]
    simp only [hserve]
  refine ⟨response, w', hcall, hwell, ?_, fun h => ?_⟩
  · rw [handleClient_of_response _ hcall hwell.ne_nil]
  · obtain ⟨hresponse, rfl⟩ := hrefused h
    exact ⟨hresponse, rfl, rfl, rfl⟩

/-- **When a request is answered.** A request other than 901 is answered as
documented exactly when its version is refused, or its code is known and it is
no upload whose file is saved and cannot be read back. -/
theorem request_answered_iff (hreceive : c.receiveRequest = (some (header, payload), c'))
    (hresend : header.code ≠ Constants.nValidCrc) :
    AnswersNext env crypto c c' header w ↔
      header.version ≠ Constants.version ∨
        header.code ∈ knownCodes ∧ ¬ Step.CannotReadBack env crypto ⟨header, payload, w⟩ := by
  by_cases hversion : header.version = Constants.version
  · by_cases hcode : header.code ∈ knownCodes
    · by_cases hread : Step.CannotReadBack env crypto ⟨header, payload, w⟩
      · have hnot : ¬ AnswersNext env crypto c c' header w := by
          rintro ⟨response, w', hcall, -⟩
          obtain ⟨w₁, hexit⟩ := Step.exits_of_cannotReadBack hread
          rw [handleRequest_eq, hreceive] at hcall
          simp only [hexit] at hcall
          cases hcall
        simp [hversion, hread, hnot]
      · obtain ⟨response, w', hserve, hwell⟩ := Step.serve_answers (s := ⟨header, payload, w⟩)
          hversion hcode hresend hread
        have hanswers := answersNext_of_serve hreceive hserve hwell
          fun h => absurd h (by simp [hversion, hcode])
        simp [hcode, hread, hanswers]
    · have hnot : ¬ AnswersNext env crypto c c' header w := by
        rintro ⟨response, w', hcall, hwell, -⟩
        rw [handleRequest_eq, hreceive] at hcall
        simp only [serve_unknownCode hversion hcode] at hcall
        cases hcall
        exact hwell.ne_nil rfl
      simp [hversion, hcode, hnot]
  · have hanswers : AnswersNext env crypto c c' header w :=
      answersNext_of_serve hreceive (serve_otherVersion hversion) wellFormed_errorResponse
        fun _ => ⟨rfl, rfl⟩
    simp [hversion, hanswers]

/-- A connection that brings these requests, on a transport that returns them as
they are asked for. -/
def connection (reqs : List (Header × Bytes)) : Conn where
  stream := reqs.flatMap fun (header, payload) =>
    header.uid.bytes ++ toLE 1 header.version ++ toLE 2 header.code ++ toLE 4 header.size ++ payload
  cut _ := Constants.chunkSize
  calls := 0

/-- A calm environment reads every file back. -/
theorem calm_readsBack (draw : Nat → Uid) (s : Step) : ¬ s.CannotReadBack (.calm draw) crypto :=
  fun h => h.2.2.2.2.1 rfl

/-- A sign-in is answered, here with a denial. -/
theorem signIn_answered :
    AnswersNext (.calm Uid.ofNat) toyCrypto (connection [request (Uid.ofNat 0) 827 []])
      (connection [request (Uid.ofNat 0) 827 []]).receiveRequest.2
      (request (Uid.ofNat 0) 827 []).1 (.init .bare) := by
  have hrequest : (connection [request (Uid.ofNat 0) 827 []]).receiveRequest.1 =
      some (request (Uid.ofNat 0) 827 []) := by decide +kernel
  exact (request_answered_iff (Prod.ext hrequest rfl) (by decide)).mpr
    (.inr ⟨by decide, calm_readsBack _ _⟩)

/-- **A code nobody knows ends the session**: the request is read, and nothing
is sent for it. -/
theorem unknown_code_unanswered :
    (connection [request (Uid.ofNat 0) 999 []]).receiveRequest.1 =
        some (request (Uid.ofNat 0) 999 []) ∧
      ¬ AnswersNext (.calm Uid.ofNat) toyCrypto (connection [request (Uid.ofNat 0) 999 []])
        (connection [request (Uid.ofNat 0) 999 []]).receiveRequest.2
        (request (Uid.ofNat 0) 999 []).1 (.init .bare) := by
  have hrequest : (connection [request (Uid.ofNat 0) 999 []]).receiveRequest.1 =
      some (request (Uid.ofNat 0) 999 []) := by decide +kernel
  have hserve := @serve_unknownCode (.calm Uid.ofNat) toyCrypto (request (Uid.ofNat 0) 999 []).1 []
    (.init .bare) rfl (by decide)
  refine ⟨hrequest, ?_⟩
  rintro ⟨response, w', hcall, hwell, -⟩
  generalize connection [request (Uid.ofNat 0) 999 []] = c at hrequest hcall
  rw [handleRequest_eq, ← Prod.mk.eta (p := c.receiveRequest), hrequest, request] at hcall
  rw [request] at hserve
  simp only [hserve] at hcall
  cases hcall
  exact hwell.ne_nil rfl

end Call

/-! ## Sessions with and without 901 -/

/-- Successive calls of `handle_request` on `c` get these requests, and then no
more. -/
def Delivers (c : Conn) (reqs : List (Header × Bytes)) : Prop :=
  Conn.requests (reqs.length + 1) c = reqs

instance (c : Conn) (reqs : List (Header × Bytes)) : Decidable (Delivers c reqs) :=
  inferInstanceAs (Decidable (_ = _))

/-- A request of this version with a code the server knows. -/
structure Known (req : Header × Bytes) : Prop where
  version : req.1.version = Constants.version
  code : req.1.code ∈ knownCodes

/-- The requests that have an answer of their own. -/
def withoutResends (reqs : List (Header × Bytes)) : List (Header × Bytes) :=
  reqs.filter (·.1.code ≠ Constants.nValidCrc)

section Session

variable {env : Env} {crypto : Crypto} {c c' : Conn} {w : World} {req : Header × Bytes}
  {reqs : List (Header × Bytes)}

theorem receiveRequest_of_delivers_nil (h : Delivers c []) : c.receiveRequest.1 = none := by
  simp only [Delivers, Conn.requests] at h
  split at h
  · assumption
  · cases h

theorem receiveRequest_of_delivers_cons (h : Delivers c (req :: reqs)) :
    c.receiveRequest = (some req, c.receiveRequest.2) ∧ Delivers c.receiveRequest.2 reqs := by
  simp only [Delivers, Conn.requests] at h
  split at h
  · cases h
  · next req' hreq =>
    obtain ⟨rfl, hrest⟩ := List.cons.inj h
    exact ⟨Prod.ext hreq rfl, hrest⟩

/-- Leaving the 901s out changes nothing a second time. -/
theorem withoutResends_withoutResends : withoutResends (withoutResends reqs) =
    withoutResends reqs := by
  simp [withoutResends]

/-- A session that only gets 901s, or nothing, sends nothing. -/
theorem handleClient_nil (h : Delivers c []) :
    (handleClient (serve env crypto) c w).1 = [] ∧
      (handleClient (serve env crypto) c w).2.2 = w := by
  have hnone := receiveRequest_of_delivers_nil h
  have hcall : handleRequest (serve env crypto) c w = (some [], c.receiveRequest.2, w) := by
    rw [handleRequest_eq, ← Prod.mk.eta (p := c.receiveRequest), hnone]
  rw [handleClient_eq, hcall]
  exact ⟨rfl, rfl⟩

/-- **What a session sends and leaves behind**: one response for each request
that is not a 901, in their order, and the world after these requests alone. -/
theorem handleClient_delivers (hdelivers : Delivers c reqs) (hknown : ∀ req ∈ reqs, Known req)
    (hread : ∀ s ∈ script env crypto w (withoutResends reqs), ¬ s.CannotReadBack env crypto) :
    (handleClient (serve env crypto) c w).1.map some =
        (script env crypto w (withoutResends reqs)).map (Step.response env crypto) ∧
      (∀ response ∈ (handleClient (serve env crypto) c w).1, response ≠ []) ∧
      (handleClient (serve env crypto) c w).2.2 = handleAll env crypto w (withoutResends reqs) := by
  induction reqs generalizing c w with
  | nil =>
    obtain ⟨hsent, hworld⟩ := @handleClient_nil env crypto c w hdelivers
    rw [hsent, hworld]
    exact ⟨rfl, nofun, rfl⟩
  | cons req rest ih =>
    obtain ⟨header, payload⟩ := req
    obtain ⟨hreceive, hrest⟩ := receiveRequest_of_delivers_cons hdelivers
    have hreq : Known (header, payload) := hknown _ (List.mem_cons_self ..)
    have hothers : ∀ req ∈ rest, Known req := fun req h => hknown req (List.mem_cons_of_mem _ h)
    by_cases hresend : header.code = Constants.nValidCrc
    · -- the call that reads the 901 is the call that reads the next request
      have hskip : withoutResends ((header, payload) :: rest) = withoutResends rest :=
        List.filter_cons_of_neg (by simpa using hresend)
      have hcall : handleRequest (serve env crypto) c w =
          handleRequest (serve env crypto) c.receiveRequest.2 w := by
        rw [handleRequest_eq, hreceive]
        simp only [serve_resend hreq.version hresend]
      rw [handleClient_eq, hcall, ← handleClient_eq, hskip]
      exact ih hrest hothers (hskip ▸ hread)
    · have hkeep : withoutResends ((header, payload) :: rest) =
          (header, payload) :: withoutResends rest :=
        List.filter_cons_of_pos (by simpa using hresend)
      rw [hkeep] at hread ⊢
      obtain ⟨response, w', hserve, hwell⟩ := Step.serve_answers (s := ⟨header, payload, w⟩)
        hreq.version hreq.code hresend (hread _ (List.mem_cons_self ..))
      have hcall : handleRequest (serve env crypto) c w =
          (some response, c.receiveRequest.2, w') := by
        rw [handleRequest_eq, hreceive]
        simp only [hserve]
      have hafter : Step.after env crypto ⟨header, payload, w⟩ = w' := congrArg Prod.snd hserve
      obtain ⟨hsent, hnonempty, hworld⟩ := @ih c.receiveRequest.2 w' hrest hothers
        fun s hs => hread s (List.mem_cons_of_mem _ (by rw [hafter]; exact hs))
      rw [handleClient_of_response _ hcall hwell.ne_nil]
      refine ⟨?_, ?_, ?_⟩
      · rw [script, hafter, List.map_cons, List.map_cons, hsent, Step.response, hserve]
      · exact List.forall_mem_cons.mpr ⟨hwell.ne_nil, hnonempty⟩
      · rw [handleAll, hafter, hworld]

/-- **Requests and responses stay paired.** A session that gets known requests
of this version sends one response, never an empty one, for each that is not a
901, in their order; and a session that gets the same requests without the 901s
sends the same and leaves the same world behind. -/
theorem resends_leave_no_trace (hdelivers : Delivers c reqs)
    (hdelivers' : Delivers c' (withoutResends reqs)) (hknown : ∀ req ∈ reqs, Known req)
    (hread : ∀ s ∈ script env crypto w (withoutResends reqs), ¬ s.CannotReadBack env crypto) :
    (handleClient (serve env crypto) c w).1.map some =
        (script env crypto w (withoutResends reqs)).map (Step.response env crypto) ∧
      (handleClient (serve env crypto) c w).1.length = (withoutResends reqs).length ∧
      (∀ response ∈ (handleClient (serve env crypto) c w).1, response ≠ []) ∧
      (handleClient (serve env crypto) c w).1 = (handleClient (serve env crypto) c' w).1 ∧
      (handleClient (serve env crypto) c w).2.2 = (handleClient (serve env crypto) c' w).2.2 := by
  obtain ⟨hsent, hnonempty, hworld⟩ := handleClient_delivers hdelivers hknown hread
  have hknown' : ∀ req ∈ withoutResends reqs, Known req :=
    fun req h => hknown req (List.mem_of_mem_filter h)
  obtain ⟨hsent', -, hworld'⟩ := @handleClient_delivers env crypto c' w _ hdelivers' hknown'
    (by rw [withoutResends_withoutResends]; exact hread)
  rw [withoutResends_withoutResends] at hsent' hworld'
  refine ⟨hsent, ?_, hnonempty, ?_, hworld.trans hworld'.symm⟩
  · rw [← List.length_map some, hsent, List.length_map, length_script]
  · exact (List.map_injective_iff.mpr (Option.some_injective Bytes)) (hsent.trans hsent'.symm)

/-- A registration and a sign-in, with 901s around them. -/
def interrupted : List (Header × Bytes) :=
  [request (Uid.ofNat 0) 901 [0x66], request (Uid.ofNat 0) 825 [0x75, 0x00],
    request (Uid.ofNat 0) 901 [], request (Uid.ofNat 0) 901 [], request (Uid.ofNat 1) 827 []]

theorem interrupted_leaves_no_trace :
    (handleClient (serve (.calm Uid.ofNat) toyCrypto) (connection interrupted)
        (.init .bare)).1.length = 2 ∧
      (handleClient (serve (.calm Uid.ofNat) toyCrypto) (connection interrupted) (.init .bare)).1 =
        (handleClient (serve (.calm Uid.ofNat) toyCrypto)
          (connection (withoutResends interrupted)) (.init .bare)).1 := by
  have hknown : ∀ req ∈ interrupted, Known req := by
    have hall : ∀ req ∈ interrupted,
        req.1.version = Constants.version ∧ req.1.code ∈ knownCodes := by decide
    exact fun req hreq => ⟨(hall req hreq).1, (hall req hreq).2⟩
  obtain ⟨-, hlength, -, hsame, -⟩ := @resends_leave_no_trace (.calm Uid.ofNat) toyCrypto
    (connection interrupted) (connection (withoutResends interrupted)) (.init .bare) interrupted
    (by decide +kernel) (by decide +kernel) hknown fun s _ => calm_readsBack _ s
  exact ⟨hlength, hsame⟩

end Session

end FileTransfer.Server
