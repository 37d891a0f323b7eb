import FileTransfer.Server.RequestHandler

/-!
# The server's end of a connection

`handle_request` and `receive_payload` of `requestHandler.py` and the loop of
`Server.handle_client`. They only read the socket and call `req_select`, so
`req_select` is a parameter here: a state transformer `select` that answers,
asks for another `handle_request`, or raises.

A `Conn` holds the bytes the peer will have sent before it closes and the
transport's choices: `cut i` bounds what the `i`-th `recv` returns.
-/

namespace FileTransfer.Server

structure Conn where
  stream : Bytes
  cut : Nat → Nat
  calls : Nat

namespace Conn

/-- `recv(n)`: at least one and at most `n` of the next bytes, and `b''` only
when the peer has closed. -/
def recv (c : Conn) (n : Nat) : Bytes × Conn :=
  let k := min n (max 1 (c.cut c.calls))
  (c.stream.take k, { c with stream := c.stream.drop k, calls := c.calls + 1 })

/-- The loop of `receive_payload`: what is asked for is subtracted, not what
came. -/
def receiveLoop (size toGet : Nat) (payload : Bytes) (c : Conn) : Bytes × Conn :=
  if _h : 0 < size ∧ 0 < toGet then
    let data := c.recv toGet
    let size' := size - toGet
    receiveLoop size' (min size' Constants.chunkSize) (payload ++ data.1) data.2
  else (payload, c)
termination_by size
decreasing_by omega

def receivePayload (payloadSize : Nat) (c : Conn) : Bytes × Conn :=
  receiveLoop payloadSize (min payloadSize Constants.chunkSize) [] c

/-- `handle_request` up to its call of `req_select`, and what it passes; `none`
when it returns `b''` instead. -/
def receiveRequest (c : Conn) : Option (Header × Bytes) × Conn :=
  let data := c.recv Constants.headerSize
  -- the peer has closed
  if data.1.length = 0 then (none, data.2)
  else
    match unpackHeader data.1 with
    -- fewer than 23 bytes came
    | none => (none, data.2)
    | some header =>
      let payload := receivePayload header.size data.2
      (some (header, payload.1), payload.2)

/-! ## Reading makes progress -/

theorem recv_stream (c : Conn) (n : Nat) :
    (c.recv n).1 ++ (c.recv n).2.stream = c.stream :=
  List.take_append_drop _ _

theorem recv_stream_length (c : Conn) (n : Nat) :
    (c.recv n).2.stream.length = c.stream.length - (c.recv n).1.length := by
  have := congrArg List.length (c.recv_stream n)
  rw [List.length_append] at this
  omega

theorem receiveLoop_stream_le (size toGet : Nat) (payload : Bytes) (c : Conn) :
    (receiveLoop size toGet payload c).2.stream.length ≤ c.stream.length := by
  induction size using Nat.strong_induction_on generalizing toGet payload c with
  | _ size ih =>
    rw [receiveLoop]
    split
    · next h =>
      refine Nat.le_trans (ih _ (by omega) _ _ _) ?_
      rw [recv_stream_length]
      omega
    · exact Nat.le_refl _

/-- A call that gets as far as `req_select` has consumed a header. -/
theorem receiveRequest_stream_lt {c : Conn} {req : Header × Bytes}
    (h : (c.receiveRequest).1 = some req) :
    (c.receiveRequest).2.stream.length < c.stream.length := by
  simp only [receiveRequest] at h ⊢
  split at h
  · cases h
  · next hdata =>
    rw [if_neg hdata]
    split at h
    · cases h
    · next header hheader =>
      refine Nat.lt_of_le_of_lt (receiveLoop_stream_le _ _ _ _) ?_
      have hle : (c.recv Constants.headerSize).1.length ≤ c.stream.length := by
        simp only [recv, List.length_take]
        omega
      rw [recv_stream_length]
      omega

end Conn

section Session

variable {σ : Type} (select : Header → Bytes → σ → Except Raised Handled × σ)

/-- `handle_request`: the response, `b''` after any `Exception`; `none` when
`SystemExit` passes through. -/
def handleRequest (c : Conn) (s : σ) : Option Bytes × Conn × σ :=
  match _h : c.receiveRequest with
  | (none, c') => (some [], c', s)
  | (some (header, payload), c') =>
    match select header payload s with
    | (.ok (.response response), s') => (some response, c', s')
    | (.ok .handleRequest, s') => handleRequest c' s'
    | (.error (.exception _), s') => (some [], c', s')
    | (.error .systemExit, s') => (none, c', s')
termination_by c.stream.length
decreasing_by
  have := Conn.receiveRequest_stream_lt (c := c) (by rw [_h])
  rwa [_h] at this

/-- `handle_request` on what `receive_request` gave. -/
theorem handleRequest_eq (c : Conn) (s : σ) :
    handleRequest select c s =
      match c.receiveRequest with
      | (none, c') => (some [], c', s)
      | (some (header, payload), c') =>
        match select header payload s with
        | (.ok (.response response), s') => (some response, c', s')
        | (.ok .handleRequest, s') => handleRequest select c' s'
        | (.error (.exception _), s') => (some [], c', s')
        | (.error .systemExit, s') => (none, c', s') := by
  rw [handleRequest]
  split
  · next h => rw [h]
  · next h => rw [h]

/-- A non-empty response costs the connection at least one byte. -/
theorem handleRequest_stream_lt {c : Conn} {s : σ} {response : Bytes}
    (h : (handleRequest select c s).1 = some response) (hne : response ≠ []) :
    (handleRequest select c s).2.1.stream.length < c.stream.length := by
  induction hlen : c.stream.length using Nat.strong_induction_on generalizing c s with
  | _ len ih =>
    rw [handleRequest_eq] at h ⊢
    have hlt : ∀ req, c.receiveRequest.1 = some req →
        c.receiveRequest.2.stream.length < c.stream.length :=
      fun _ => Conn.receiveRequest_stream_lt
    split at h
    · cases h
      exact absurd rfl hne
    · next header payload c' hrecv =>
      rw [hrecv] at hlt
      have hc' : c'.stream.length < len := hlen ▸ hlt _ rfl
      split at h
      · exact hc'
      · exact Nat.lt_trans (ih _ hc' h rfl) hc'
      · cases h
        exact absurd rfl hne
      · cases h

/-- `Server.handle_client`: serve until a response is empty or the thread
exits. The result lists the responses passed to `send_response`. -/
def handleClient (c : Conn) (s : σ) : List Bytes × Conn × σ :=
  match _h : handleRequest select c s with
  | (some (b :: bs), c', s') =>
    let (sent, last) := handleClient c' s'
    ((b :: bs) :: sent, last)
  | (_, c', s') => ([], c', s')
termination_by c.stream.length
decreasing_by
  have := handleRequest_stream_lt select (c := c) (s := s) (by rw [_h]) (List.cons_ne_nil b bs)
  rwa [_h] at this

/-- `handle_client` on what `handle_request` gave. -/
theorem handleClient_eq (c : Conn) (s : σ) :
    handleClient select c s =
      match handleRequest select c s with
      | (some (b :: bs), c', s') =>
        ((b :: bs) :: (handleClient select c' s').1, (handleClient select c' s').2)
      | (_, c', s') => ([], c', s') := by
  rw [handleClient]
  split
  · next h => rw [h]
  · next hnot h =>
    rw [h]
    split
    · next heq =>
      cases heq
      exact (hnot _ _ rfl).elim
    · next heq => cases heq; rfl

/-- A response that is not empty is sent, and the session goes on behind the
request. -/
theorem handleClient_of_response {c c' : Conn} {s s' : σ} {response : Bytes}
    (h : handleRequest select c s = (some response, c', s')) (hne : response ≠ []) :
    handleClient select c s =
      (response :: (handleClient select c' s').1, (handleClient select c' s').2) := by
  obtain ⟨b, bs, rfl⟩ := List.exists_cons_of_ne_nil hne
  rw [handleClient_eq, h]

end Session

/-- The server proper: `select` is a run of `req_select`. -/
def serve (env : Env) (crypto : Crypto) (header : Header) (payload : Bytes) (w : World) :
    Except Raised Handled × World :=
  (reqSelect env crypto header payload).run (exec env) w

end FileTransfer.Server
