import FileTransfer.Lib.History
import FileTransfer.Server.Connection
import FileTransfer.Server.Footprint

/-!
# Runs of the server

Requests are handled one after another, each from the world the one before
left. A `Step` is one of them. What a step leaves alone follows from its
footprint; in particular, who is registered changes with code 825 only.
-/

namespace FileTransfer.Server

open FileTransfer.Effect

/-! ## Who is registered -/

/-- The user name of every uid, in the order of registration. -/
def World.names (w : World) : List (Uid × Str) :=
  w.clients.rows.map fun row => (row.uuid, row.userName)

/-- The row of `uid` has the user name `name`. -/
def World.Registered (w : World) (uid : Uid) (name : Str) : Prop := (uid, name) ∈ w.names

theorem registered_iff {w : World} {uid : Uid} {name : Str} :
    w.Registered uid name ↔ ∃ row ∈ w.clients, row.uuid = uid ∧ row.userName = name := by
  simp [World.Registered, World.names, Table.mem_rows]

/-- A uid has one user name. -/
theorem World.Registered.unique {w : World} {uid : Uid} {name name' : Str}
    (h : w.Registered uid name) (h' : w.Registered uid name') : name = name' := by
  obtain ⟨row, hrow, huid, rfl⟩ := registered_iff.mp h
  obtain ⟨row', hrow', huid', rfl⟩ := registered_iff.mp h'
  rw [Table.eq_of_key_eq hrow hrow' (huid.trans huid'.symm)]

theorem registered_of_find? {w : World} {uid : Uid} {row : ClientRow}
    (h : w.clients.find? (·.uuid = uid) = some row) : w.Registered uid row.userName := by
  obtain ⟨hmem, hkey⟩ := Table.mem_of_find? h
  exact registered_iff.mpr ⟨row, hmem, of_decide_eq_true hkey, rfl⟩

/-- An assignment to a column other than the user name keeps all names. -/
theorem names_update {w : World} {p : ClientRow → Bool} {f : ClientRow → ClientRow}
    (hf : ∀ r, (f r).uuid = r.uuid) (hname : ∀ r, (f r).userName = r.userName) :
    World.names { w with clients := w.clients.update p f hf } = w.names := by
  simp only [World.names, Table.update, List.map_map]
  refine List.map_congr_left fun r _ => ?_
  simp only [Function.comp]
  split
  · rw [hf, hname]
  · rfl

/-! ## What one operation leaves alone -/

section Operation

variable {env : Env} {registered : Uid → Str → Prop} {fresh : Uid → Prop} {header : Header}
  {payload : Bytes} {o : Op}

/-- Only an insert and an UPDATE of `clients` change that table. -/
theorem clients_exec (o : Op) (w : World) :
    (exec env o w).2.clients = w.clients ∨ (∃ row, o = .query (.insertClient row)) ∨
      ∃ field data uid, o = .query (.update (.client field data) uid) := by
  have hquery : ∀ {q : Query}, (∀ w, (q.exec w).2.clients = w.clients) →
      (exec env (.query q) w).2.clients = w.clients := by
    intro q hq
    simp only [exec]
    split
    · rfl
    · exact hq _
  -- a call on a path changes the disk at most
  have hdisk : ∀ {α : Type} {w : World} {r : Except PathError (α × Disk)},
      (diskReply w r).2.clients = w.clients := by
    intro α w r
    cases r <;> rfl
  cases o with
  | query q =>
    cases q with
    | insertClient row => exact .inr (.inl ⟨row, rfl⟩)
    | update entry uid =>
      cases entry with
      | client field data => exact .inr (.inr ⟨field, data, uid, rfl⟩)
      | verified data => exact .inl (hquery fun _ => rfl)
    | updateNamed entry uid name => exact .inl (hquery fun _ => by cases entry <;> rfl)
    | selectClient => exact .inl (hquery fun _ => rfl)
    | selectUuid => exact .inl (hquery fun _ => rfl)
    | insertFile => exact .inl (hquery fun _ => rfl)
    | deleteUnverified => exact .inl (hquery fun _ => rfl)
  | mkdir p =>
    refine .inl ?_
    simp only [exec]
    split <;> rfl
  | writeFile p content =>
    refine .inl ?_
    simp only [exec]
    split
    · rfl
    · exact hdisk
    · exact hdisk
  | readFile p =>
    refine .inl ?_
    simp only [exec]
    split
    · rfl
    · exact hdisk
  | remove p =>
    refine .inl ?_
    simp only [exec]
    split
    · rfl
    · exact hdisk
  | uuid4 => exact .inl rfl
  | randomBytes n => exact .inl rfl
  | now => exact .inl rfl

/-- Setting a key or the time leaves the names alone. -/
theorem names_exec_update {field : ClientField} {data : field.Ty} {uid : Uid} {w : World}
    (hfield : field ≠ .userName) :
    (exec env (.query (.update (.client field data) uid)) w).2.names = w.names := by
  simp only [exec]
  split
  · rfl
  · refine names_update (by simp) fun r => ?_
    cases field with
    | userName => exact absurd rfl hfield
    | _ => rfl

/-- Only the insert of a registration changes who is registered. -/
theorem names_exec (h : Footprint env registered fresh header payload o) (w : World) :
    (exec env o w).2.names = w.names ∨
      header.code = Constants.register ∧
        ∃ row, o = .query (.insertClient row) ∧ fresh row.uuid := by
  rcases clients_exec o w with hsame | ⟨row, rfl⟩ | ⟨field, data, uid, rfl⟩
  · refine .inl ?_
    rw [World.names, World.names, hsame]
  · cases h with
    | insertClient hcode _ hfresh => exact .inr ⟨hcode, _, rfl, hfresh⟩
  · refine .inl (names_exec_update ?_)
    cases h <;> decide

/-- A user name that is read is the registered one. -/
theorem replies_exec {w : World} (hfresh : ∀ t, fresh (env.uuid4 t)) (o : Op) :
    Replies w.Registered fresh o (exec env o w).1 := by
  cases o with
  | query q =>
    cases q with
    | selectClient field uid =>
      cases field with
      | userName =>
        intro name hname
        simp only [exec] at hname
        split at hname
        · cases hname
        · simp only [Query.exec, Except.mapError, Except.ok.injEq] at hname
          obtain ⟨row, hfind, rfl⟩ := Option.map_eq_some_iff.mp hname
          exact registered_of_find? hfind
      | _ => trivial
    | _ => trivial
  | uuid4 =>
    intro uid huid
    cases huid
    exact hfresh _
  | _ => trivial

theorem replies_trivial (o : Op) (r : Except Raised o.Reply) :
    Replies (fun _ _ => True) (fun _ => True) o r := by
  unfold Replies
  split
  · exact fun _ _ => trivial
  · exact fun _ _ => trivial
  · trivial

end Operation

/-! ## Steps -/

/-- What is served where a handler answers by itself. -/
theorem serve_respond {env : Env} {crypto : Crypto} {header : Header} {payload : Bytes} {w : World}
    {handler : Uid → Nat → Bytes → Py Bytes} (hversion : header.version = Constants.version)
    (hmap : responseMap env crypto header.code = some (respond handler)) :
    serve env crypto header payload w =
      match Program.run (exec env) (handler header.uid (handlerArg header) payload) w with
      | (.ok response, w') => (.ok (.response response), w')
      | (.error e, w') => (.error e, w') := by
  rw [serve, reqSelect_respond hversion hmap, respond, Program.run_bind]
  rcases Program.run (exec env) (handler header.uid (handlerArg header) payload) w
    with ⟨e | response, w'⟩ <;> rfl

/-- The code in a response. -/
def responseCode (response : Bytes) : Nat := fromLE (slice response 1 3)

/-- A handled request: what came in, and the world it met. -/
structure Step where
  header : Header
  payload : Bytes
  before : World

namespace Step

variable (env : Env) (crypto : Crypto) (s : Step)

def after : World := (serve env crypto s.header s.payload s.before).2

/-- The code of the answer; `none` when `resend_crc` leaves it to the next
request, or nothing is answered at all. -/
def answer : Option Nat :=
  match (serve env crypto s.header s.payload s.before).1 with
  | .ok (.response response) => some (responseCode response)
  | _ => none

/-- The request was answered with `code`. -/
abbrev Answered (code : Nat) : Prop := s.answer env crypto = some code

/-- The name of the file an upload (828) or an abort (902) is about. -/
def fileName : Option Str :=
  if s.header.code = Constants.sendFile then uploadName s.payload
  else if s.header.code = Constants.exitCrc then finalName s.payload
  else none

/-- A confirmation (900) of the client's file `name`. -/
def Confirms (uid : Uid) (name : Str) : Prop :=
  s.header.code = Constants.validCrc ∧ s.header.uid = uid ∧ finalName s.payload = some name

/-- An abort (902) of the client's file `name`. -/
def Aborts (uid : Uid) (name : Str) : Prop :=
  s.header.code = Constants.exitCrc ∧ s.header.uid = uid ∧ finalName s.payload = some name

variable {env crypto s}

theorem answered_iff {code : Nat} :
    s.Answered env crypto code ↔
      ∃ response, (serve env crypto s.header s.payload s.before).1 = .ok (.response response) ∧
        responseCode response = code := by
  rw [Answered, answer]
  split
  · next response hserve =>
    rw [hserve]
    simp
  · next hserve =>
    constructor
    · intro h
      cases h
    · rintro ⟨response, hresponse, -⟩
      exact absurd hresponse (hserve response)

/-- While a request other than 825 runs, the names stay what they were, and
every user name that is read is a registered one. -/
theorem exec_known (hcode : s.header.code ≠ Constants.register) (o : Op) (w : World)
    (ho : Footprint env s.before.Registered (fun _ => True) s.header s.payload o)
    (hw : w.names = s.before.names) :
    Replies s.before.Registered (fun _ => True) o (exec env o w).1 ∧
      (exec env o w).2.names = s.before.names := by
  have hregistered : w.Registered = s.before.Registered := by
    funext uid name
    rw [World.Registered, World.Registered, hw]
  refine ⟨hregistered ▸ replies_exec (fun _ => trivial) o, ?_⟩
  rcases names_exec ho w with hsame | ⟨hregister, -⟩
  · exact hsame.trans hw
  · exact absurd hregister hcode

theorem names_after (hcode : s.header.code ≠ Constants.register) :
    (s.after env crypto).names = s.before.names :=
  Program.run_invariant (I := fun w : World => w.names = s.before.names) (exec_known hcode)
    (reqSelect_within crypto) rfl

/-- The world after a request that a handler answers. -/
theorem after_respond {handler : Uid → Nat → Bytes → Py Bytes}
    (hversion : s.header.version = Constants.version)
    (hmap : responseMap env crypto s.header.code = some (respond handler)) :
    s.after env crypto =
      (Program.run (exec env)
        (handler s.header.uid (handlerArg s.header) s.payload) s.before).2 := by
  rw [after, serve_respond hversion hmap]
  rcases Program.run (exec env) (handler s.header.uid (handlerArg s.header) s.payload) s.before
    with ⟨e | response, w⟩ <;> rfl

/-- **The rule for one step**: what every operation of the footprint preserves,
the step preserves. -/
theorem invariant {I : World → Prop}
    (hstep : ∀ o w, Footprint env (fun _ _ => True) (fun _ => True) s.header s.payload o →
      I w → I (exec env o w).2) (h : I s.before) : I (s.after env crypto) :=
  Program.run_invariant (fun o w ho hw => ⟨replies_trivial o _, hstep o w ho hw⟩)
    (reqSelect_within crypto) h

end Step

/-! ## Whole runs -/

/-- Runs from a world, by steps that all meet a condition. -/
abbrev Run (env : Env) (crypto : Crypto) :
    (Step → Prop) → World → List Step → World → Prop :=
  History.Run Step.before (Step.after env crypto)

section Script

variable (env : Env) (crypto : Crypto)

/-- The world after a list of requests. -/
def handleAll : World → List (Header × Bytes) → World
  | w, [] => w
  | w, (header, payload) :: rest => handleAll (Step.after env crypto ⟨header, payload, w⟩) rest

/-- The steps they take. -/
def script : World → List (Header × Bytes) → List Step
  | _, [] => []
  | w, (header, payload) :: rest =>
    ⟨header, payload, w⟩ :: script (Step.after env crypto ⟨header, payload, w⟩) rest

theorem length_script (w : World) (requests : List (Header × Bytes)) :
    (script env crypto w requests).length = requests.length := by
  induction requests generalizing w with
  | nil => rfl
  | cons request rest ih => exact congrArg (· + 1) (ih _)

/-- The last request of a list meets the world that the others leave. -/
theorem handleAll_concat (w : World) (requests : List (Header × Bytes)) (j : Header × Bytes) :
    handleAll env crypto w (requests ++ [j]) =
      (serve env crypto j.1 j.2 (handleAll env crypto w requests)).2 := by
  induction requests generalizing w with
  | nil => rfl
  | cons request rest ih => exact ih _

theorem script_concat (w : World) (requests : List (Header × Bytes)) (j : Header × Bytes) :
    script env crypto w (requests ++ [j]) =
      script env crypto w requests ++ [⟨j.1, j.2, handleAll env crypto w requests⟩] := by
  induction requests generalizing w with
  | nil => rfl
  | cons request rest ih => exact congrArg (_ :: ·) (ih _)

theorem run_append_script {ok : Step → Prop} {w₀ w : World} {hist : List Step}
    {requests : List (Header × Bytes)} (hrun : Run env crypto ok w₀ hist w)
    (hok : ∀ s ∈ script env crypto w requests, ok s) :
    Run env crypto ok w₀ (hist ++ script env crypto w requests)
      (handleAll env crypto w requests) := by
  induction requests generalizing hist w with
  | nil => simpa [script, handleAll] using hrun
  | cons request rest ih =>
    obtain ⟨header, payload⟩ := request
    have hstep := History.Run.event (e := (⟨header, payload, w⟩ : Step)) hrun
      (hok _ (List.mem_cons_self ..))
    have hrest := ih hstep fun s hs => hok s (List.mem_cons_of_mem _ hs)
    rw [List.append_assoc] at hrest
    exact hrest

/-- Any list of requests is a run. -/
theorem run_script {ok : Step → Prop} {w : World} {requests : List (Header × Bytes)}
    (hok : ∀ s ∈ script env crypto w requests, ok s) :
    Run env crypto ok w (script env crypto w requests) (handleAll env crypto w requests) :=
  run_append_script env crypto .start hok

end Script

/-! ## Concrete requests -/

/-- A request as a client packs it. -/
def request (uid : Uid) (code : Nat) (payload : Bytes) : Header × Bytes :=
  (⟨uid, 3, code, payload.length⟩, payload)

def padName (name : Bytes) : Bytes := name ++ List.replicate (255 - name.length) 0x7c

/-- A file with the content `v1`, encrypted under the key of zeros. -/
def uploadRequest (uid : Uid) (name : Bytes) : Header × Bytes :=
  request uid 828 (toLE 4 16 ++ toLE 4 2 ++ toLE 2 1 ++ toLE 2 1 ++ padName name ++ cipherBlock)

/-- A confirmation of the file `name`. -/
def confirmRequest (uid : Uid) (name : Bytes) : Header × Bytes := request uid 900 (padName name)

theorem padName_eq {name : Str} {bytes : Bytes} (hname : utf8Encode name = bytes) :
    padName bytes = utf8Encode (name ++ List.replicate (255 - bytes.length) '|') := by
  rw [padName, utf8Encode_append, utf8Encode_replicate_pipe, hname]

theorem length_padName {bytes : Bytes} (hlen : bytes.length ≤ 255) :
    (padName bytes).length = 255 := by
  rw [padName, List.length_append, List.length_replicate]
  omega

/-- The name in an upload is the one that was padded. -/
theorem uploadName_uploadRequest (uid : Uid) {name : Str} {bytes : Bytes}
    (hname : utf8Encode name = bytes) (hpipe : '|' ∉ name) (hlen : bytes.length ≤ 255) :
    uploadName (uploadRequest uid bytes).2 = some name := by
  have hslice : slice (uploadRequest uid bytes).2 Constants.nameIndex Constants.contentIndex =
      padName bytes :=
    slice_append rfl (by rw [length_padName hlen])
  rw [padName_eq hname] at hslice
  exact unpaddedName_of_padded hslice hpipe

/-- So is the name in a confirmation. -/
theorem finalName_confirmRequest (uid : Uid) {name : Str} {bytes : Bytes}
    (hname : utf8Encode name = bytes) (hpipe : '|' ∉ name) (hlen : bytes.length ≤ 255) :
    finalName (confirmRequest uid bytes).2 = some name := by
  have hslice : slice (confirmRequest uid bytes).2 0 Constants.fileNameSize = padName bytes :=
    List.take_of_length_le (Nat.le_of_eq (length_padName hlen))
  rw [padName_eq hname] at hslice
  exact unpaddedName_of_padded hslice hpipe

/-- A key exchange of the client whose user name is `u`. -/
def keyRequest (uid : Uid) : Header × Bytes :=
  request uid 826 ([0x75, 0x00] ++ List.replicate 160 0)

end FileTransfer.Server
