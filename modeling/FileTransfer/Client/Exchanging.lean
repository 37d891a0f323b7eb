import FileTransfer.Client.CutOff

/-!
# Code that reaches the server through exchanges alone

The operations of `Client` use the socket in `sendAndRecieve` and nowhere else, and
what `sendAndRecieve` does besides sending and receiving leaves the socket alone. This
is a fact about the programs, so it serves whatever an operation is taken to mean:
`Exchanging.triple` carries what every exchange keeps to the operations.
-/

namespace FileTransfer.Client

open FileTransfer.Effect
open Program (Triple)

variable {K α β : Type}

/-! ## Code without the socket -/

/-- The operation leaves the socket alone. -/
def ClientOp.Local : ClientOp K → Prop
  | .sendData => False
  | .receiveData => False
  | _ => True

/-- The code leaves the socket alone. -/
abbrev Alone (p : Cpp K α) : Prop :=
  Program.Uses (S := clientOps K) ClientOp.Local (fun _ _ => True) (fun _ => True) p

theorem alone_pure (a : α) : Alone (pure a : Cpp K α) := trivial

theorem alone_throw (e : Fault) : Alone (throw e : Cpp K α) := trivial

theorem alone_op {o : ClientOp K} (h : o.Local) : Alone (Program.op (S := clientOps K) o) :=
  (Program.uses_op (fun _ _ => True) h).mono fun _ _ => trivial

theorem alone_lift (x : Except Fault α) : Alone (Cpp.lift x : Cpp K α) := by
  cases x <;> trivial

theorem Alone.bind {p : Cpp K α} {f : α → Cpp K β} (hp : Alone p) (hf : ∀ a, Alone (f a)) :
    Alone (p >>= f) :=
  Program.Uses.bind hp fun a _ => hf a

theorem Alone.catchException {p : Cpp K α} (hp : Alone p) (otherwise : α) :
    Alone (Cpp.catchException otherwise p) :=
  Program.Uses.tryCatch hp fun e => by cases e <;> trivial

theorem alone_members : Alone (Cpp.members : Cpp K (Members K)) := alone_op trivial

theorem alone_assign (c : Members K) : Alone (Cpp.assign c) := alone_op trivial

theorem alone_lookup (name : Bytes) : Alone (Cpp.lookup name : Cpp K _) := alone_op trivial

theorem alone_ifstream (name : Bytes) : Alone (Cpp.ifstream name : Cpp K _) := alone_op trivial

theorem alone_ofstream (name content : Bytes) : Alone (Cpp.ofstream name content : Cpp K _) :=
  alone_op trivial

/-! ## The selectors -/

theorem alone_loadRequest (request : Members K → Except Fault RequestPacket) :
    Alone (loadRequest request) :=
  alone_members.bind fun _ => (alone_lift _).bind fun _ => (alone_assign _).bind fun _ =>
    alone_pure _

theorem alone_requestSelector (aes : Bytes → Bytes → Bytes) (code : RequestCode) :
    Alone (requestSelector aes code : Cpp K Bool) := by
  cases code with
  | sendFile =>
    exact alone_members.bind fun _ => (alone_ifstream _).bind fun _ =>
      (alone_lift _).bind fun _ => (alone_assign _).bind fun _ => alone_pure _
  | reconnect =>
    exact alone_members.bind fun _ => (alone_ifstream _).bind fun _ =>
      (alone_lift _).bind fun _ => (alone_assign _).bind fun _ => alone_pure _
  | _ => exact alone_loadRequest _

section Rsa

variable (rsa : Rsa K)

theorem alone_createNewClientFile (payload : Bytes) :
    Alone (createNewClientFile rsa payload) := by
  have hkey : Alone (saveEncodedPrivateKey rsa) := by
    refine (alone_lookup _).bind fun found => ?_
    split
    · exact alone_pure _
    · exact alone_members.bind fun _ => alone_ofstream _ _
  refine hkey.bind fun saved => ?_
  split
  · exact alone_pure _
  refine (alone_lookup _).bind fun found => ?_
  split
  · exact alone_pure _
  refine (alone_ifstream _).bind fun key => ?_
  cases key with
  | none => exact alone_pure _
  | some key => exact alone_members.bind fun _ => alone_ofstream _ _

theorem alone_decryptAESKey (cipher : Option Bytes) : Alone (decryptAESKey rsa cipher) := by
  have hread : Alone (readPrivateRsaKey : Cpp K Bytes) := by
    refine (alone_ifstream _).bind fun key => ?_
    cases key with
    | none => exact alone_throw _
    | some key => exact alone_pure _
  refine hread.bind fun key => ?_
  cases rsa.loadPrivateKeyFromBase64 key with
  | none => exact alone_throw _
  | some privateKey =>
    refine alone_members.bind fun _ => (alone_assign _).bind fun _ => ?_
    refine (alone_lift _).bind fun cipher => ?_
    cases rsa.oaepDecrypt privateKey cipher with
    | none => exact alone_throw _
    | some decrypted =>
      dsimp only
      split
      · exact alone_members.bind fun _ => (alone_assign _).bind fun _ => alone_pure _
      · exact alone_throw _

theorem alone_recieveAesKey (payload : Bytes) : Alone (recieveAesKey rsa payload) := by
  refine Alone.catchException ?_ false
  split
  · exact alone_throw _
  · exact alone_decryptAESKey rsa _

theorem alone_responseSelector (w : Nat) : Alone (responseSelector rsa w) := by
  refine alone_members.bind fun c => ?_
  dsimp only
  cases ResponseCode.ofValue c.responsePacket.code with
  | none => exact alone_pure _
  | some label =>
    cases label with
    | regSuccessful => exact alone_createNewClientFile rsa _
    | inPublicOutCrypted => exact alone_recieveAesKey rsa _
    | okReconnOutAes => exact alone_recieveAesKey rsa _
    | validCrcFile =>
      exact alone_members.bind fun _ => (alone_lookup _).bind fun _ =>
        (alone_lift _).bind fun _ => (alone_assign _).bind fun _ => alone_pure _
    | _ => exact alone_pure _

end Rsa

/-! ## The operations -/

variable (pf : Platform K)

/-- The code uses the socket in `sendAndRecieve` alone. -/
inductive Exchanging : {α : Type} → Cpp K α → Prop where
  | exchange (code : RequestCode) : Exchanging (sendAndRecieve pf code)
  | alone {α : Type} {p : Cpp K α} (h : Alone p) : Exchanging p
  | bind {α β : Type} {p : Cpp K α} {f : α → Cpp K β} (hp : Exchanging p)
      (hf : ∀ a, Exchanging (f a)) : Exchanging (p >>= f)
  | catchException {α : Type} {p : Cpp K α} (otherwise : α) (hp : Exchanging p) :
      Exchanging (Cpp.catchException otherwise p)

variable {pf}

/-- **What every exchange keeps, and every operation away from the socket, the code
keeps**, whatever the operations mean. -/
theorem Exchanging.triple {τ : Type} {H : Handler (clientOps K) Fault τ} {I : τ → Prop}
    (hexchange : ∀ code, Triple H I (sendAndRecieve pf code) (fun _ => I) fun _ => I)
    (hlocal : ∀ (o : ClientOp K) s, o.Local → I s → I (H o s).2) {p : Cpp K α}
    (hp : Exchanging pf p) : Triple H I p (fun _ => I) fun _ => I := by
  induction hp with
  | exchange code => exact hexchange code
  | alone h =>
    exact Program.triple_of_run_snd fun s hs =>
      Program.run_invariant (fun o s ho hs => ⟨trivial, hlocal o s ho hs⟩) h hs
  | bind _ _ ihp ihf => exact ihp.bind ihf
  | catchException otherwise _ ih =>
    refine ih.tryCatch fun e => ?_
    cases e with
    | exception => exact fun _ hs => hs
    | _ => exact fun _ hs => hs

theorem exchanging_pure (a : α) : Exchanging pf (pure a : Cpp K α) := .alone (alone_pure a)

theorem exchanging_responseCode : Exchanging pf (responseCode : Cpp K _) :=
  .alone (alone_members.bind fun _ => alone_pure _)

theorem exchanging_resendIfServerError (toDo : RequestCode) :
    Exchanging pf (resendIfServerError pf toDo) := by
  have hloop : ∀ rounds, Exchanging pf (errorResendLoop pf toDo rounds) := by
    intro rounds
    induction rounds with
    | zero => exact exchanging_pure _
    | succ rounds ih => exact .bind (.exchange toDo) fun _ => ih
  refine .bind exchanging_responseCode fun label => ?_
  split
  · exact .bind (hloop 2) fun _ => .bind exchanging_responseCode fun _ => exchanging_pure _
  · exact exchanging_pure _

theorem exchanging_checkCrcValid : Exchanging pf (checkCrcValid pf) := by
  have hmembers : Exchanging pf (Cpp.members : Cpp K _) := .alone alone_members
  have hloop : ∀ rounds, Exchanging pf (resendLoop pf rounds) := by
    intro rounds
    induction rounds with
    | zero => exact exchanging_pure _
    | succ rounds ih =>
      refine .bind hmembers fun c => ?_
      split
      · exact exchanging_pure _
      · exact .bind (.exchange _) fun _ => .bind (.exchange _) fun _ => ih
  refine .bind hmembers fun c => ?_
  split
  · exact exchanging_pure _
  refine .bind (hloop 2) fun _ => .bind hmembers fun c => ?_
  split
  · exact exchanging_pure _
  · exact .bind (.exchange _) fun _ => exchanging_pure _

theorem exchanging_uploadFile : Exchanging pf (uploadFile pf) := by
  have hmembers : Exchanging pf (Cpp.members : Cpp K _) := .alone alone_members
  have hkeys : Exchanging pf (exchangeKeys pf) := by
    refine .bind hmembers fun c => ?_
    split
    · exact exchanging_pure _
    · exact .bind (.exchange _) fun _ => exchanging_resendIfServerError _
  have hsend : Exchanging pf (sendFile pf) := by
    refine .bind hkeys fun go => ?_
    split
    · exact .bind (.exchange _) fun _ => exchanging_resendIfServerError _
    · exact exchanging_pure _
  have hconfirm : Exchanging pf (confirmFile pf) :=
    .bind (.exchange _) fun _ => .bind (exchanging_resendIfServerError _) fun _ =>
      exchanging_pure _
  have htry : Exchanging pf (uploadTry pf) := by
    refine .bind hsend fun go => ?_
    split
    · refine .bind exchanging_checkCrcValid fun valid => ?_
      split
      · exact hconfirm
      · exact exchanging_pure _
    · exact exchanging_pure _
  exact .catchException _ (.bind htry fun _ => exchanging_pure _)

theorem exchanging_registerNewClient : Exchanging pf (registerNewClient pf) := by
  refine .catchException _ (.bind (.exchange _) fun _ =>
    .bind exchanging_responseCode fun label => ?_)
  split
  · exact .alone (alone_members.bind fun _ => (alone_lift _).bind fun _ =>
      (alone_assign _).bind fun _ => alone_pure _)
  · exact exchanging_pure _

theorem exchanging_signIn : Exchanging pf (signIn pf) := by
  refine .catchException _ (.bind (.exchange _) fun _ =>
    .bind exchanging_responseCode fun label => ?_)
  split
  · exact exchanging_registerNewClient
  · exact .alone (alone_members.bind fun _ => (alone_assign _).bind fun _ => alone_pure _)
  · exact exchanging_pure _

end FileTransfer.Client
