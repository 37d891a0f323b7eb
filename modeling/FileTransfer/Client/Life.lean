import FileTransfer.Client.Uploading

/-!
# The life of a client

A client is started any number of times in one folder. Each process generates its
own key pair and calls the public operations in any order, until one of them ends
the process. The log goes on from one process to the next.
-/

namespace FileTransfer.Client

open FileTransfer.Effect FileTransfer.History FileTransfer.Server
open Program (Triple)

variable {K : Type} (pf : Platform K)

/-- The public operations of `Client`. -/
inductive Operation where
  | signIn
  | registerNewClient
  | uploadFile
deriving DecidableEq

/-- The operations that `main` calls. -/
def mainOperations : List Operation := [.registerNewClient, .uploadFile, .signIn, .uploadFile]

/-- An operation with a value came to an end: with the value, or with the process. -/
def Process.finish : Except Fault Bool × Process K → Process K
  | (.ok value, s) => { s with log := s.log ++ [.returned value] }
  | (.error _, s) => { s with running := false }

/-- What calling an operation makes of the process. -/
def Operation.call : Operation → Process K → Process K
  | .signIn, s => Process.finish (Program.run exec (Client.signIn pf) s)
  | .registerNewClient, s => Process.finish (Program.run exec (Client.registerNewClient pf) s)
  | .uploadFile, s =>
    match Program.run exec (Client.uploadFile pf) s with
    | (.ok .returned, s') => s'
    | (_, s') => { s' with running := false }

inductive Action (K : Type) where
  /-- a process is started with a fresh key pair; the rest is what `transfer.info` says,
  the memory that it is constructed in, and its connection -/
  | start (privateKey : K) (transferInfo : TransferInfo) (userName : Bytes)
      (memory : Members K) (connection : ConnectionHandler)
  | call (operation : Operation)

def Action.perform : Action K → Process K → Process K
  | .start privateKey transferInfo userName memory connection, s =>
    { s with
      members := construct pf privateKey transferInfo userName memory
      connection := connection
      log := s.log ++ [.started userName s.folder]
      running := true }
  | .call operation, s => operation.call pf s

/-- A process ended where it stands may be followed by another one; only a running one
is called. -/
def Action.Allowed (s : Process K) : Action K → Prop
  | .start .. => True
  | .call _ => s.running = true

instance (s : Process K) (action : Action K) : Decidable (action.Allowed s) :=
  match action with
  | .start .. => inferInstanceAs (Decidable True)
  | .call _ => inferInstanceAs (Decidable (s.running = true))

/-- One action, with the process before and after it. -/
structure Step (K : Type) where
  before : Process K
  action : Action K
  after : Process K

def Step.Happens (e : Step K) : Prop :=
  e.action.Allowed e.before ∧ e.after = e.action.perform pf e.before

/-- Before the first start: a folder, and nothing that matters besides. -/
def beforeStart (folder : Folder) (memory : Members K) (connection : ConnectionHandler) :
    Process K where
  members := memory
  connection := connection
  folder := folder
  log := []
  running := false

/-- `es` leads from `s₀` to `s`. -/
abbrev Life (s₀ : Process K) (es : List (Step K)) (s : Process K) : Prop :=
  Run Step.before Step.after (Step.Happens pf) s₀ es s

/-! ## Following a list of actions -/

/-- Perform the actions one after another, as long as they are allowed. -/
def follow : List (Action K) → Process K → Option (Process K)
  | [], s => some s
  | action :: rest, s =>
    if action.Allowed s then follow rest (action.perform pf s) else none

variable {pf}

/-- Actions that can be followed make a life of just these actions. -/
theorem life_follow_actions {s₀ s s' : Process K} {es : List (Step K)} (h : Life pf s₀ es s)
    {actions : List (Action K)} (hfollow : follow pf actions s = some s') :
    ∃ es', Life pf s₀ (es ++ es') s' ∧ es'.map Step.action = actions := by
  induction actions generalizing s es with
  | nil =>
    cases hfollow
    exact ⟨[], by rwa [List.append_nil], rfl⟩
  | cons action rest ih =>
    simp only [follow] at hfollow
    split at hfollow
    · next hallowed =>
      have hstep : Life pf s₀ (es ++ [Step.mk s action (action.perform pf s)])
          (action.perform pf s) :=
        Run.event (e := Step.mk s action (action.perform pf s)) h ⟨hallowed, rfl⟩
      obtain ⟨es', hlife, hactions⟩ := ih hstep hfollow
      refine ⟨Step.mk s action (action.perform pf s) :: es', ?_, congrArg _ hactions⟩
      rwa [List.append_assoc] at hlife
    · cases hfollow

theorem life_follow {s₀ s s' : Process K} {es : List (Step K)} (h : Life pf s₀ es s)
    {actions : List (Action K)} (hfollow : follow pf actions s = some s') :
    ∃ es', Life pf s₀ es' s' := by
  obtain ⟨es', hlife, -⟩ := life_follow_actions h hfollow
  exact ⟨es ++ es', hlife⟩

/-! ## What the operations keep -/

section Invariant

/-- What the body leaves where it throws is what the process goes on with. -/
theorem triple_catchException {α : Type} {I : Process K → Prop} {otherwise : α}
    {body : Cpp K α} {post : α → Process K → Prop} {exn : Fault → Process K → Prop}
    (h : Triple exec I body post exn) (hcatch : ∀ s, exn .exception s → post otherwise s) :
    Triple exec I (Cpp.catchException otherwise body) post exn := by
  refine h.tryCatch fun e => ?_
  cases e with
  | exception => exact hcatch
  | _ => exact fun s hs => hs

/-- The fact does not depend on what the operations do besides their exchanges. -/
structure Undisturbed (I : Process K → Prop) : Prop where
  clientID : ∀ s id, I s → I { s with members := { s.members with
    requestPacket := { s.members.requestPacket with clientID := id } } }
  registeredClient : ∀ s, I s → I { s with members := { s.members with registeredClient := true } }
  returned : ∀ s value, I s → I { s with log := s.log ++ [.returned value] }
  ended : ∀ s, I s → I { s with running := false }

variable {I : Process K → Prop}

theorem triple_uploadFile_const
    (h : ∀ code, Triple exec I (sendAndRecieve pf code) (fun _ => I) fun _ => I) :
    Triple exec I (Client.uploadFile pf) (fun _ => I) fun _ => I := by
  refine triple_catchException ?_ fun s hs => hs
  exact (triple_uploadTry fun code _ _ => h code).bind fun _ s hs => hs

variable (hI : Undisturbed I)
include hI

/-- What an operation with a value came to is logged. -/
theorem Undisturbed.finish {p : Cpp K Bool} {s : Process K} (hs : I (Program.run exec p s).2) :
    I (Process.finish (Program.run exec p s)) := by
  generalize Program.run exec p s = result at hs ⊢
  rcases result with ⟨e | value, s'⟩
  · exact hI.ended s' hs
  · exact hI.returned s' value hs

variable (h : ∀ code, Triple exec I (sendAndRecieve pf code) (fun _ => I) fun _ => I)
include h

theorem Undisturbed.registerNewClient :
    Triple exec I (Client.registerNewClient pf) (fun _ => I) fun _ => I := by
  refine triple_catchException ?_ fun s hs => hs
  refine (h .register).bind fun _ s hs => ?_
  simp only [responseCode, Program.run_bind, Cpp.run_members, Program.pure_eq, Program.run_ret]
  cases ResponseCode.ofValue s.members.responsePacket.code with
  | none => exact hs
  | some label =>
    cases label with
    | regSuccessful =>
      simp only [Program.run_bind, Cpp.run_members, Cpp.run_lift]
      cases uidOf s.members.responsePacket.payload with
      | none => exact hs
      | some id => exact hI.clientID s id hs
    | _ => exact hs

theorem Undisturbed.signIn :
    Triple exec I (Client.signIn pf) (fun _ => I) fun _ => I := by
  refine triple_catchException ?_ fun s hs => hs
  refine (h .reconnect).bind fun _ s hs => ?_
  simp only [responseCode, Program.run_bind, Cpp.run_members, Program.pure_eq, Program.run_ret]
  cases ResponseCode.ofValue s.members.responsePacket.code with
  | none => exact hs
  | some label =>
    cases label with
    | reconnectFailed => exact hI.registerNewClient h s hs
    | okReconnOutAes => exact hI.registeredClient s hs
    | _ => exact hs

/-- **What every exchange keeps, every operation keeps.** -/
theorem Undisturbed.call (operation : Operation) {s : Process K} (hs : I s) :
    I (operation.call pf s) := by
  cases operation with
  | signIn => exact hI.finish ((hI.signIn h).run_snd hs)
  | registerNewClient => exact hI.finish ((hI.registerNewClient h).run_snd hs)
  | uploadFile =>
    have hupload := (triple_uploadFile_const h).run_snd hs
    rw [Operation.call]
    generalize Program.run exec (Client.uploadFile pf) s = result at hupload ⊢
    rcases result with ⟨e | _ | _, s'⟩
    · exact hI.ended s' hupload
    · exact hupload
    · exact hI.ended s' hupload

end Invariant

end FileTransfer.Client
