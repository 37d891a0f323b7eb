import FileTransfer.Server.Registration

/-!
# What answers say about a uuid

Two worlds that differ only in the uuid of one client, and one request that
does not present it. Every operation of the request answers alike in both
worlds, except the lookup of that client's own name, whose answer is the uuid.
-/

namespace FileTransfer.Server

open FileTransfer.Effect

/-! ## Worlds that differ in one uuid -/

/-- `u₁` becomes `u₂`. -/
def renameUid (u₁ u₂ u : Uid) : Uid := if u = u₁ then u₂ else u

/-- The worlds agree once the uuid `u₁` of the first is replaced by `u₂`, in both
tables. -/
structure Renamed (u₁ u₂ : Uid) (w₁ w₂ : World) : Prop where
  clients : Table.Rewritten (fun r => { r with uuid := renameUid u₁ u₂ r.uuid })
    w₁.clients w₂.clients
  files : Table.Rewritten (fun r => { r with uuid := renameUid u₁ u₂ r.uuid })
    w₁.files w₂.files
  disk : w₂.disk = w₁.disk
  tick : w₂.tick = w₁.tick

/-- `uid` is neither of the two. -/
structure Apart (u₁ u₂ uid : Uid) : Prop where
  left : uid ≠ u₁
  right : uid ≠ u₂

theorem Apart.renameUid_eq_iff {u₁ u₂ uid u : Uid} (h : Apart u₁ u₂ uid) :
    renameUid u₁ u₂ u = uid ↔ u = uid := by
  unfold renameUid
  split
  · next heq =>
    constructor
    · exact fun hu => absurd hu.symm h.right
    · exact fun hu => absurd (hu.symm.trans heq) h.left
  · rfl

theorem Apart.renameUid_eq {u₁ u₂ uid : Uid} (h : Apart u₁ u₂ uid) :
    renameUid u₁ u₂ uid = uid := by
  rw [renameUid, if_neg h.left]

section Operation

variable {env : Env} {u₁ u₂ : Uid} {header : Header} {payload : Bytes} {w₁ w₂ : World}

/-- Statements that answer alike and keep the worlds related do so as
operations. -/
theorem exec_query_renamed {q : Query} (h : Renamed u₁ u₂ w₁ w₂)
    (hq : ∀ {v₁ v₂ : World}, Renamed u₁ u₂ v₁ v₂ → v₁.names = w₁.names →
      (q.exec v₁).1 = (q.exec v₂).1 ∧ Renamed u₁ u₂ (q.exec v₁).2 (q.exec v₂).2) :
    (exec env (.query q) w₁).1 = (exec env (.query q) w₂).1 ∧
      Renamed u₁ u₂ (exec env (.query q) w₁).2 (exec env (.query q) w₂).2 := by
  obtain ⟨clients₂, files₂, disk₂, tick₂⟩ := w₂
  obtain rfl : disk₂ = w₁.disk := h.disk
  obtain rfl : tick₂ = w₁.tick := h.tick
  have hticked : Renamed u₁ u₂ w₁.ticked (World.ticked ⟨clients₂, files₂, w₁.disk, w₁.tick⟩) :=
    ⟨h.clients, h.files, rfl, rfl⟩
  obtain ⟨hreply, hworld⟩ := hq hticked rfl
  simp only [exec]
  by_cases hfails : env.queryFails w₁.tick
  · simp only [if_pos hfails]
    exact ⟨trivial, hticked⟩
  · simp only [if_neg hfails]
    exact ⟨congrArg _ hreply, hworld⟩

/-- A call on a path asks the disk alone. -/
theorem diskReply_renamed {α : Type} (h : Renamed u₁ u₂ w₁ w₂)
    (r : Except PathError (α × Disk)) :
    (diskReply w₁ r).1 = (diskReply w₂ r).1 ∧
      Renamed u₁ u₂ (diskReply w₁ r).2 (diskReply w₂ r).2 := by
  cases r with
  | error e => exact ⟨rfl, h⟩
  | ok x => exact ⟨rfl, h.clients, h.files, rfl, h.tick⟩

theorem updateClient_renamed {field : ClientField} {data : field.Ty} {uid : Uid}
    (h : Renamed u₁ u₂ w₁ w₂) (huid : Apart u₁ u₂ uid) :
    ((Query.update (.client field data) uid).exec w₁).1 =
        ((Query.update (.client field data) uid).exec w₂).1 ∧
      Renamed u₁ u₂ ((Query.update (.client field data) uid).exec w₁).2
        ((Query.update (.client field data) uid).exec w₂).2 := by
  simp only [Query.exec]
  refine ⟨?_, ?_, h.files, h.disk, h.tick⟩
  · rw [h.clients.count fun r => by simp [huid.renameUid_eq_iff]]
  · exact h.clients.update (by simp) (fun r => by simp [huid.renameUid_eq_iff])
      fun r => by cases field <;> rfl

/-- The lookup of a name that is not the client's finds a row that is not its own. -/
theorem findUsername_renamed {name : Str} (h : Renamed u₁ u₂ w₁ w₂)
    (hname : ¬ w₁.Registered u₁ name) :
    ((Query.selectUuid name).exec w₁).1 = ((Query.selectUuid name).exec w₂).1 ∧
      Renamed u₁ u₂ ((Query.selectUuid name).exec w₁).2 ((Query.selectUuid name).exec w₂).2 := by
  refine ⟨?_, h⟩
  simp only [Query.exec]
  rw [h.clients.find? fun _ _ => rfl, Option.map_map]
  cases hfind : w₁.clients.find? (·.userName = name) with
  | none => rfl
  | some row =>
    have hother : row.uuid ≠ u₁ := by
      intro heq
      obtain ⟨hmem, hrow⟩ := Table.mem_of_find? hfind
      exact hname (registered_iff.mpr ⟨row, hmem, heq, of_decide_eq_true hrow⟩)
    simp [renameUid, hother]

/-- A uuid that is neither of the two is taken in both worlds or in none. -/
theorem insertClient_renamed {row : ClientRow} (h : Renamed u₁ u₂ w₁ w₂)
    (hrow : Apart u₁ u₂ row.uuid) :
    ((Query.insertClient row).exec w₁).1 = ((Query.insertClient row).exec w₂).1 ∧
      Renamed u₁ u₂ ((Query.insertClient row).exec w₁).2 ((Query.insertClient row).exec w₂).2 := by
  obtain ⟨uid, name, publicKey, lastSeen, aesKey⟩ := row
  simp only [Query.exec]
  rcases h.clients.insert? (r := ⟨uid, name, publicKey, lastSeen, aesKey⟩)
    (congrArg (ClientRow.mk · _ _ _ _) hrow.renameUid_eq)
    (fun r => hrow.renameUid_eq_iff) with ⟨h₁, h₂⟩ | ⟨t₁, t₂, h₁, h₂, ht⟩
  · rw [h₁, h₂]
    exact ⟨rfl, h⟩
  · rw [h₁, h₂]
    exact ⟨rfl, ht, h.files, h.disk, h.tick⟩

theorem insertFile_renamed {row : FileRow} (h : Renamed u₁ u₂ w₁ w₂)
    (hrow : Apart u₁ u₂ row.uuid) :
    ((Query.insertFile row).exec w₁).1 = ((Query.insertFile row).exec w₂).1 ∧
      Renamed u₁ u₂ ((Query.insertFile row).exec w₁).2 ((Query.insertFile row).exec w₂).2 := by
  obtain ⟨uid, name, path, verified⟩ := row
  have hsame := congrArg (FileRow.mk · name path verified) hrow.renameUid_eq
  have hkey := fun r : FileRow => hrow.renameUid_eq_iff (u := r.uuid)
  simp only [Query.exec]
  refine ⟨?_, h.clients, ?_, h.disk, h.tick⟩
  · rcases h.files.insert? (r := ⟨uid, name, path, verified⟩) hsame hkey with
      ⟨h₁, h₂⟩ | ⟨t₁, t₂, h₁, h₂, -⟩
    · rw [h₁, h₂]
    · rw [h₁, h₂]
      rfl
  · exact h.files.insertOrIgnore (r := ⟨uid, name, path, verified⟩) hsame hkey

/-- Marking the rows of a client that is neither of the two. -/
theorem verify_renamed {p : FileRow → Bool} {data : Nat} (h : Renamed u₁ u₂ w₁ w₂)
    (hp : ∀ r : FileRow, p { r with uuid := renameUid u₁ u₂ r.uuid } = p r) :
    w₁.files.count p = w₂.files.count p ∧
      Renamed u₁ u₂
        { w₁ with files := w₁.files.update p ({ · with verified := data }) fun _ => rfl }
        { w₂ with files := w₂.files.update p ({ · with verified := data }) fun _ => rfl } := by
  refine ⟨(h.files.count hp).symm, h.clients, ?_, h.disk, h.tick⟩
  refine h.files.update ?_ hp ?_
  · exact fun _ => rfl
  · exact fun _ => rfl

/-- **Every operation answers alike** in both worlds, when the request presents
neither uuid and does not look up the client's name. -/
theorem exec_renamed {registered : Uid → Str → Prop} {o : Op} (h : Renamed u₁ u₂ w₁ w₂)
    (ho : Footprint env registered (Apart u₁ u₂) header payload o)
    (huid : Apart u₁ u₂ header.uid)
    (hname : ∀ name, header.code = Constants.register → asciiDecode payload = some name →
      ¬ w₁.Registered u₁ name) :
    (exec env o w₁).1 = (exec env o w₂).1 ∧
      Renamed u₁ u₂ (exec env o w₁).2 (exec env o w₂).2 := by
  obtain ⟨clients₂, files₂, disk₂, tick₂⟩ := w₂
  obtain rfl : disk₂ = w₁.disk := h.disk
  obtain rfl : tick₂ = w₁.tick := h.tick
  have hticked : Renamed u₁ u₂ w₁.ticked (World.ticked ⟨clients₂, files₂, w₁.disk, w₁.tick⟩) :=
    ⟨h.clients, h.files, rfl, rfl⟩
  -- a condition on the header's uid does not see the renaming
  have huser : ∀ r : ClientRow, decide (renameUid u₁ u₂ r.uuid = header.uid) =
      decide (r.uuid = header.uid) := fun r => decide_eq_decide.mpr huid.renameUid_eq_iff
  cases ho with
  | now => exact ⟨rfl, hticked⟩
  | uuid4 => exact ⟨rfl, hticked⟩
  | randomBytes => exact ⟨rfl, hticked⟩
  | mkdir =>
    simp only [exec]
    split
    · exact ⟨rfl, hticked⟩
    · exact ⟨rfl, h.clients, h.files, rfl, rfl⟩
  | writeFile =>
    simp only [exec]
    split
    · exact ⟨rfl, hticked⟩
    · exact ⟨rfl, (diskReply_renamed hticked _).2⟩
    · exact diskReply_renamed hticked _
  | readFile =>
    simp only [exec]
    split
    · exact ⟨rfl, hticked⟩
    · exact diskReply_renamed hticked _
  | remove =>
    simp only [exec]
    split
    · exact ⟨rfl, hticked⟩
    · exact diskReply_renamed hticked _
  | @findUsername name hcode hascii =>
    refine exec_query_renamed h fun hv hnames => findUsername_renamed hv ?_
    rw [World.Registered, hnames]
    exact hname name hcode hascii
  | insertClient hcode hascii hfresh =>
    exact exec_query_renamed h fun hv _ => insertClient_renamed hv hfresh
  | getData field =>
    refine exec_query_renamed h fun hv _ => ⟨?_, hv⟩
    simp only [Query.exec]
    rw [hv.clients.find? fun r _ => huser r, Option.map_map]
    cases field <;> rfl
  | setPublicKey => exact exec_query_renamed h fun hv _ => updateClient_renamed hv huid
  | setAesKey => exact exec_query_renamed h fun hv _ => updateClient_renamed hv huid
  | setLastSeen => exact exec_query_renamed h fun hv _ => updateClient_renamed hv huid
  | insertFile => exact exec_query_renamed h fun hv _ => insertFile_renamed hv huid
  | @verify name =>
    refine exec_query_renamed h fun hv _ => ?_
    obtain ⟨hcount, hrel⟩ := @verify_renamed u₁ u₂ _ _
      (fun r => decide (r.uuid = header.uid ∧ r.fileName = name)) 1 hv
      (fun r => by simp only [huid.renameUid_eq_iff])
    exact ⟨congrArg Except.ok hcount, hrel⟩
  | verifyAll =>
    refine exec_query_renamed h fun hv _ => ?_
    obtain ⟨hcount, hrel⟩ := @verify_renamed u₁ u₂ _ _
      (fun r => decide (r.uuid = header.uid)) 1 hv
      (fun r => by simp only [huid.renameUid_eq_iff])
    exact ⟨congrArg Except.ok hcount, hrel⟩
  | deleteUnverified =>
    refine exec_query_renamed h fun hv _ => ?_
    simp only [Query.exec]
    refine ⟨?_, hv.clients, ?_, hv.disk, hv.tick⟩
    · rw [hv.files.count fun r => by simp [huid.renameUid_eq_iff]]
    · exact hv.files.delete fun r => by simp [huid.renameUid_eq_iff]

end Operation

/-! ## One request -/

section Request

variable {env : Env} {crypto : Crypto} {u₁ u₂ : Uid} {w₁ w₂ : World}

/-- Every operation takes one tick. -/
theorem tick_exec (o : Op) (w : World) : (exec env o w).2.tick = w.tick + 1 := by
  have hreply : ∀ {α : Type} {v : World} {r : Except PathError (α × Disk)},
      (diskReply v r).2.tick = v.tick := by
    intro α v r
    cases r <;> rfl
  cases o with
  | query q =>
    simp only [exec]
    split
    · rfl
    · cases q with
      | insertClient row => simp only [Query.exec]; split <;> rfl
      | update entry uid => cases entry <;> rfl
      | updateNamed entry uid name => cases entry <;> rfl
      | _ => rfl
  | mkdir p =>
    simp only [exec]
    split <;> rfl
  | writeFile p content =>
    simp only [exec]
    split
    · rfl
    · exact hreply
    · exact hreply
  | readFile p =>
    simp only [exec]
    split
    · rfl
    · exact hreply
  | remove p =>
    simp only [exec]
    split
    · rfl
    · exact hreply
  | _ => rfl

/-- From `w` on, no uuid that is drawn is one of the two. -/
def DrawsApart (env : Env) (u₁ u₂ : Uid) (w : World) : Prop :=
  ∀ t, w.tick ≤ t → Apart u₁ u₂ (env.uuid4 t)

/-- The request does not present one of the two uuids, and does not register the
name of the client that has the first. -/
structure Stranger (u₁ u₂ : Uid) (w : World) (header : Header) (payload : Bytes) : Prop where
  uid : Apart u₁ u₂ header.uid
  name : ∀ name, header.code = Constants.register → asciiDecode payload = some name →
    ¬ w.Registered u₁ name

/-- One operation of a stranger's request, with all that has to stay true. -/
theorem exec_stranger {header : Header} {payload : Bytes} {o : Op}
    (ho : Footprint env (fun _ _ => True) (Apart u₁ u₂) header payload o)
    (h : Renamed u₁ u₂ w₁ w₂) (hdraws : DrawsApart env u₁ u₂ w₁)
    (hstranger : Stranger u₁ u₂ w₁ header payload) :
    Replies (fun _ _ => True) (Apart u₁ u₂) o (exec env o w₁).1 ∧
      DrawsApart env u₁ u₂ (exec env o w₁).2 ∧
      Stranger u₁ u₂ (exec env o w₁).2 header payload := by
  refine ⟨?_, ?_, hstranger.uid, fun name hcode hascii => ?_⟩
  · cases ho with
    | uuid4 =>
      intro uid huid
      cases huid
      exact hdraws _ (Nat.le_refl _)
    | getData field =>
      cases field with
      | userName => exact fun _ _ => trivial
      | _ => trivial
    | _ => trivial
  · intro t ht
    rw [tick_exec] at ht
    exact hdraws t (by omega)
  · have hbefore := hstranger.name name hcode hascii
    rcases names_exec ho w₁ with hsame | ⟨-, row, rfl, hfresh⟩
    · rw [World.Registered, hsame]
      exact hbefore
    · rcases @exec_insert env row w₁ with ⟨n, -, -, -, hnames⟩ | ⟨e, -, hnames⟩
      · rw [World.Registered, hnames]
        intro hmem
        rcases List.mem_append.mp hmem with hmem | hmem
        · exact hbefore hmem
        · cases List.mem_singleton.mp hmem
          exact hfresh.left rfl
      · rw [World.Registered, hnames]
        exact hbefore

/-- **A stranger's request is answered alike**, and leaves the worlds as
different as they were. -/
theorem serve_renamed {header : Header} {payload : Bytes} (h : Renamed u₁ u₂ w₁ w₂)
    (hdraws : DrawsApart env u₁ u₂ w₁) (hstranger : Stranger u₁ u₂ w₁ header payload) :
    (serve env crypto header payload w₁).1 = (serve env crypto header payload w₂).1 ∧
      Renamed u₁ u₂ (serve env crypto header payload w₁).2
        (serve env crypto header payload w₂).2 ∧
      DrawsApart env u₁ u₂ (serve env crypto header payload w₁).2 := by
  have hrelated := Program.run_related
    (R := fun s t => Renamed u₁ u₂ s t ∧ DrawsApart env u₁ u₂ s ∧
      Stranger u₁ u₂ s header payload)
    (fun o s t ho hst => by
      obtain ⟨hst, hdraws, hstranger⟩ := hst
      obtain ⟨hreply, hrest⟩ := exec_stranger ho hst hdraws hstranger
      obtain ⟨hsame, hst'⟩ := exec_renamed hst ho hstranger.uid hstranger.name
      exact ⟨hreply, hsame, hst', hrest⟩)
    (reqSelect_within crypto) ⟨h, hdraws, hstranger⟩
  exact ⟨hrelated.1, hrelated.2.1, hrelated.2.2.1⟩

end Request

/-! ## One answer on a connection -/

/-- The requests one call of `handle_request` takes up: the first on the
connection, and after a 901 the next. -/
inductive Conn.Serves : Conn → Header → Bytes → Prop where
  | first {c c' : Conn} {header : Header} {payload : Bytes} :
      c.receiveRequest = (some (header, payload), c') → Conn.Serves c header payload
  | again {c c' : Conn} {header header' : Header} {payload payload' : Bytes} :
      c.receiveRequest = (some (header, payload), c') →
      header.version = Constants.version → header.code = Constants.nValidCrc →
      Conn.Serves c' header' payload' → Conn.Serves c header' payload'

section Connection

variable {env : Env} {crypto : Crypto} {header : Header} {payload : Bytes}

theorem exists_respond {code : Nat} {func : Uid → Nat → Bytes → Py Handled}
    (h : responseMap env crypto code = some func) (hcode : code ≠ Constants.nValidCrc) :
    ∃ handler, func = respond handler := by
  unfold responseMap at h
  repeat' split at h
  all_goals first
    | exact absurd ‹_› hcode
    | (cases h; exact ⟨_, rfl⟩)
    | cases h

/-- Only a 901 is left to the next request, and it changes nothing. -/
theorem serve_eq_handleRequest {w w' : World}
    (h : serve env crypto header payload w = (.ok .handleRequest, w')) :
    header.version = Constants.version ∧ header.code = Constants.nValidCrc ∧ w' = w := by
  by_cases hversion : header.version = Constants.version
  · by_cases hcode : header.code = Constants.nValidCrc
    · have hmap : responseMap env crypto Constants.nValidCrc = some resendCrc := rfl
      refine ⟨hversion, hcode, ?_⟩
      simp only [serve, reqSelect, hversion, ne_eq, not_true_eq_false, if_false, hcode, hmap] at h
      exact (congrArg Prod.snd h).symm
    · exfalso
      simp only [serve, reqSelect, hversion, ne_eq, not_true_eq_false, if_false] at h
      split at h
      · cases h
      · next func hmap =>
        obtain ⟨handler, rfl⟩ := exists_respond hmap hcode
        rw [respond, Program.run_bind] at h
        split at h
        · cases h
        · cases h
  · rw [serve, reqSelect, if_pos hversion] at h
    cases h

variable {u₁ u₂ : Uid}

/-- **A client's uuid is not revealed to strangers.** Whatever comes in on a
connection, as long as no request that is served presents the uuid or registers
the client's own name, the answer does not depend on the uuid. -/
theorem answer_does_not_reveal_uuid {c : Conn} {w₁ w₂ : World} (h : Renamed u₁ u₂ w₁ w₂)
    (hdraws : DrawsApart env u₁ u₂ w₁)
    (hstrangers : ∀ header payload, c.Serves header payload →
      Stranger u₁ u₂ w₁ header payload) :
    (handleRequest (serve env crypto) c w₁).1 = (handleRequest (serve env crypto) c w₂).1 ∧
      Renamed u₁ u₂ (handleRequest (serve env crypto) c w₁).2.2
        (handleRequest (serve env crypto) c w₂).2.2 := by
  induction hlen : c.stream.length using Nat.strong_induction_on generalizing c w₁ w₂ with
  | _ len ih =>
    rw [handleRequest_eq, handleRequest_eq]
    rcases hrecv : c.receiveRequest with ⟨_ | ⟨header, payload⟩, c'⟩
    · exact ⟨rfl, h⟩
    · have hlt : c'.stream.length < len := by
        have := Conn.receiveRequest_stream_lt (c := c) (by rw [hrecv])
        rwa [hrecv, hlen] at this
      have hfirst := hstrangers header payload (.first hrecv)
      obtain ⟨hsame, hrel, hdraws'⟩ := @serve_renamed env crypto _ _ _ _ _ _ h hdraws hfirst
      rcases hserve₁ : serve env crypto header payload w₁ with ⟨r₁, v₁⟩
      rcases hserve₂ : serve env crypto header payload w₂ with ⟨r₂, v₂⟩
      rw [hserve₁, hserve₂] at hsame hrel
      rw [hserve₁] at hdraws'
      obtain rfl : r₁ = r₂ := hsame
      simp only [hserve₁, hserve₂]
      rcases r₁ with e | handled
      · cases e <;> exact ⟨rfl, hrel⟩
      · cases handled with
        | response response => exact ⟨rfl, hrel⟩
        | handleRequest =>
          -- a 901: the next request is served in the same world
          obtain ⟨hversion, hcode, rfl⟩ := serve_eq_handleRequest hserve₁
          exact ih _ hlt hrel hdraws'
            (fun _ _ hserves => hstrangers _ _ (.again hrecv hversion hcode hserves)) rfl

end Connection

/-! ## The client's own name -/

/-- `bob` alone, under some uuid. -/
def bobAlone (uid : Uid) : World where
  clients := ⟨[⟨uid, ['b', 'o', 'b', '\x00'], publicKeyPlaceholder, [], aesKeyPlaceholder⟩],
    List.nodup_singleton _⟩
  files := .empty
  disk := .bare
  tick := 0

theorem bobAlone_renamed : Renamed (Uid.ofNat 1) (Uid.ofNat 2) (bobAlone (Uid.ofNat 1))
    (bobAlone (Uid.ofNat 2)) :=
  ⟨rfl, rfl, rfl, rfl⟩

theorem calm_drawsApart (w : World) :
    DrawsApart (.calm fun _ => Uid.ofNat 7) (Uid.ofNat 1) (Uid.ofNat 2) w := by
  intro t _
  show Apart _ _ (Uid.ofNat 7)
  exact ⟨by decide, by decide⟩

/-- A connection on which a third uuid sends an 825 with some name. -/
def askFor (name : Bytes) : Conn where
  stream := (Uid.ofNat 9).bytes ++ [3, 0x39, 0x03] ++ toLE 4 name.length ++ name
  cut _ := 1024
  calls := 0

/-- It serves that one request. -/
theorem askFor_serves {name : Bytes} {header : Header} {payload : Bytes}
    (hreq : (askFor name).receiveRequest.1 = some (request (Uid.ofNat 9) 825 name))
    (h : (askFor name).Serves header payload) :
    header = ⟨Uid.ofNat 9, 3, 825, name.length⟩ ∧ payload = name := by
  cases h with
  | first hrecv =>
    rw [hrecv] at hreq
    cases hreq
    exact ⟨rfl, rfl⟩
  | again hrecv _ hcode _ =>
    rw [hrecv] at hreq
    cases hreq
    have : 825 = Constants.nValidCrc := hcode
    exact absurd this (by decide)

/-- Whoever asks for `eve` learns nothing about `bob`. -/
theorem askFor_eve_does_not_reveal_uuid :
    (handleRequest (serve (.calm fun _ => Uid.ofNat 7) toyCrypto)
        (askFor [0x65, 0x76, 0x65, 0x00]) (bobAlone (Uid.ofNat 1))).1 =
      (handleRequest (serve (.calm fun _ => Uid.ofNat 7) toyCrypto)
        (askFor [0x65, 0x76, 0x65, 0x00]) (bobAlone (Uid.ofNat 2))).1 := by
  refine (answer_does_not_reveal_uuid bobAlone_renamed (calm_drawsApart _)
    fun header payload hserves => ?_).1
  obtain ⟨rfl, rfl⟩ := askFor_serves (by decide +kernel) hserves
  refine ⟨⟨by decide, by decide⟩, fun name _ hname => ?_⟩
  cases hname
  show _ ∉ World.names _
  decide +kernel

/-- Whoever asks for `bob` is told his uuid: it is the payload of the 1601. -/
theorem askFor_bob : ∀ uid ∈ [Uid.ofNat 1, Uid.ofNat 2],
    (handleRequest (serve (.calm fun _ => Uid.ofNat 7) toyCrypto)
      (askFor [0x62, 0x6f, 0x62, 0x00]) (bobAlone uid)).1 =
    some (uidResponse Constants.registrationFail uid) := by
  decide +kernel

/-- **The answer to a third uuid tells the two worlds apart.** -/
theorem askFor_bob_reveals_uuid :
    Renamed (Uid.ofNat 1) (Uid.ofNat 2) (bobAlone (Uid.ofNat 1)) (bobAlone (Uid.ofNat 2)) ∧
      DrawsApart (.calm fun _ => Uid.ofNat 7) (Uid.ofNat 1) (Uid.ofNat 2)
        (bobAlone (Uid.ofNat 1)) ∧
      (∀ header payload, (askFor [0x62, 0x6f, 0x62, 0x00]).Serves header payload →
        Apart (Uid.ofNat 1) (Uid.ofNat 2) header.uid) ∧
      (handleRequest (serve (.calm fun _ => Uid.ofNat 7) toyCrypto)
          (askFor [0x62, 0x6f, 0x62, 0x00]) (bobAlone (Uid.ofNat 1))).1 ≠
        (handleRequest (serve (.calm fun _ => Uid.ofNat 7) toyCrypto)
          (askFor [0x62, 0x6f, 0x62, 0x00]) (bobAlone (Uid.ofNat 2))).1 := by
  refine ⟨bobAlone_renamed, calm_drawsApart _, fun header payload hserves => ?_, ?_⟩
  · obtain ⟨rfl, rfl⟩ := askFor_serves (by decide +kernel) hserves
    exact ⟨by decide, by decide⟩
  · rw [askFor_bob _ (by decide), askFor_bob _ (by decide)]
    decide

end FileTransfer.Server
