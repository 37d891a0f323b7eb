import FileTransfer.Server.Run

/-!
# Registration, stage by stage

The program of a registration is a chain of four operations: look the name
up, draw a uuid, read the clock, insert the row. Each stage is a program of
its own here, so that one can say where a thread is. Between the first and the
last operation the name has been found free and is not taken yet.
-/

namespace FileTransfer.Server

open FileTransfer.Effect

/-- A response that carries a uid. -/
def uidResponse (code : Nat) (uid : Uid) : Bytes :=
  toLE 1 3 ++ toLE 2 code ++ toLE 4 16 ++ uid.bytes

theorem initResponse_uid {code : Nat} (hcode : code < 2 ^ 16) (uid : Uid) :
    initResponse Constants.version code uid.bytes.length uid.bytes =
      .ok (uidResponse code uid) := by
  have hfits : 3 < 2 ^ 8 ∧ code < 2 ^ 16 ∧ 16 < 2 ^ 32 := ⟨by decide, hcode, by decide⟩
  simp only [initResponse, packHeader, uid.length_eq, if_pos hfits, uidResponse]

/-- The code field of a packed response. -/
theorem responseCode_header {code : Nat} (hcode : code < 2 ^ 16) (version size : Nat)
    (rest : Bytes) :
    responseCode (toLE 1 version ++ toLE 2 code ++ toLE 4 size ++ rest) = code := by
  have hslice : slice (toLE 1 version ++ toLE 2 code ++ toLE 4 size ++ rest) 1 3 = toLE 2 code := by
    rw [List.append_assoc, List.append_assoc, ← List.append_assoc]
    exact slice_append (by simp) (by simp)
  rw [responseCode, hslice, fromLE_toLE (by simpa using hcode)]

theorem responseCode_uidResponse {code : Nat} (hcode : code < 2 ^ 16) (uid : Uid) :
    responseCode (uidResponse code uid) = code :=
  responseCode_header hcode 3 16 uid.bytes

@[simp] theorem responseCode_errorResponse : responseCode errorResponse = 1607 := by decide

/-! ## Handlers as chains of operations -/

/-- Go on with the reply, or answer with `refusal`. -/
def orRefuse {α : Type} (refusal : Bytes) (k : α → Py Handled) : Except Raised α → Py Handled
  | .ok a => k a
  | .error (.exception _) => .ret (.response refusal)
  | .error .systemExit => .throw .systemExit

/-- The response, or the refusal where none could be packed. -/
def orRefusal (refusal : Bytes) : Except Exn Bytes → Py Handled
  | .ok response => .ret (.response response)
  | .error _ => .ret (.response refusal)

/-- A handler that answers with what its body returns, and with `refusal` when
the body raises. -/
def guarded (refusal : Bytes) (body : Py Bytes) : Py Handled := do
  let response ← tryExcept body fun _ => .ret refusal
  pure (.response response)

theorem guarded_ofExcept (refusal : Bytes) (r : Except Exn Bytes) :
    guarded refusal (ofExcept r) = orRefusal refusal r := by
  cases r <;> rfl

/-- An operation under the guard, with the rest of the body behind it. -/
theorem guarded_perform {refusal : Bytes} {o : Op} {k : Except Raised o.Reply → Py Bytes}
    {k' : o.Reply → Py Handled} (hok : ∀ a, guarded refusal (k (.ok a)) = k' a)
    (herror : ∀ e, guarded refusal (k (.error e)) = orRefuse refusal k' (.error e)) :
    guarded refusal (.perform o k) =
      @Program.perform sig Raised Handled o (orRefuse refusal k') := by
  refine congrArg (@Program.perform sig Raised Handled o) ?_
  funext r
  rcases r with e | a
  · exact herror e
  · exact hok a

/-! ## The stages -/

namespace Registration

def insert (name : Str) (uid : Uid) (now : Str) : Py Handled :=
  .perform (.query (.insertClient ⟨uid, name, publicKeyPlaceholder, now, aesKeyPlaceholder⟩))
    (orRefuse errorResponse fun (_ : Nat) =>
      .ret (.response (uidResponse Constants.initRegistrationSucc uid)))

def stamp (name : Str) (uid : Uid) : Py Handled :=
  .perform .now (orRefuse errorResponse fun (now : Str) => insert name uid now)

def draw (name : Str) : Py Handled :=
  .perform .uuid4 (orRefuse errorResponse fun (uid : Uid) => stamp name uid)

def lookup (name : Str) : Py Handled :=
  .perform (.query (.selectUuid name)) (orRefuse errorResponse fun
    | none => draw name
    | some (uid : Uid) => .ret (.response (uidResponse Constants.registrationFail uid)))

end Registration

variable {env : Env} {crypto : Crypto} {header : Header} {payload : Bytes} {name : Str}

/-- The request registers `name`. -/
structure Registers (header : Header) (payload : Bytes) (name : Str) : Prop where
  version : header.version = Constants.version
  code : header.code = Constants.register
  name : asciiDecode payload = some name

/-- The last thing the handler does: pack the response. -/
theorem answer_eq {code : Nat} (hcode : code < 2 ^ 16) (uid : Uid) :
    (do
      let response ← tryExcept
        (ofExcept (initResponse Constants.version code uid.bytes.length uid.bytes))
        registerNewClientExceptions
      pure (Handled.response response) : Py Handled) =
      .ret (.response (uidResponse code uid)) := by
  rw [initResponse_uid hcode]
  rfl

/-- **The stages are the handler**: on a readable name `req_select` is the chain
that starts with the lookup. -/
theorem reqSelect_register (h : Registers header payload name) :
    reqSelect env crypto header payload = Registration.lookup name := by
  obtain ⟨hversion, hcode, hname⟩ := h
  have hselect : reqSelect env crypto header payload =
      respond registerNewClient header.uid Constants.version payload := by
    have hmap : responseMap env crypto Constants.register = some (respond registerNewClient) := rfl
    have hother : ¬ (Constants.register = Constants.exitCrc ∨
        Constants.register = Constants.validCrc) := by decide
    simp only [reqSelect, hversion, ne_eq, not_true_eq_false, if_false, hcode, if_neg hother, hmap]
  rw [hselect, respond, registerNewClient, hname]
  refine congrArg (Program.perform _) ?_
  funext r
  rcases r with e | found
  · cases e <;> rfl
  · rcases found with _ | uid
    · refine congrArg (Program.perform _) ?_
      funext r
      rcases r with e | uid
      · cases e <;> rfl
      · refine congrArg (Program.perform _) ?_
        funext r
        rcases r with e | now
        · cases e <;> rfl
        · refine congrArg (Program.perform _) ?_
          funext r
          rcases r with e | n
          · cases e <;> rfl
          · exact answer_eq (by decide) uid
    · exact answer_eq (by decide) uid

/-- Any other 825 is answered at once, with the error response. -/
theorem reqSelect_not_register (hcode : header.code = Constants.register)
    (h : ∀ name, ¬ Registers header payload name) :
    reqSelect env crypto header payload = .ret (.response errorResponse) := by
  by_cases hversion : header.version = Constants.version
  · have hmap : responseMap env crypto Constants.register = some (respond registerNewClient) := rfl
    have hother : ¬ (Constants.register = Constants.exitCrc ∨
        Constants.register = Constants.validCrc) := by decide
    have hname : asciiDecode payload = none := by
      cases hname : asciiDecode payload with
      | none => rfl
      | some name => exact absurd ⟨hversion, hcode, hname⟩ (h name)
    simp only [reqSelect, hversion, ne_eq, not_true_eq_false, if_false, hcode, if_neg hother, hmap]
    rw [respond, registerNewClient, hname]
    rfl
  · rw [reqSelect, if_pos hversion]
    rfl

/-! ## What each stage does to the names -/

/-- The user names, in the order of registration. -/
def World.userNames (w : World) : List Str := w.names.map Prod.snd

theorem exec_lookup (name : Str) (w : World) :
    (exec env (.query (.selectUuid name)) w).2 = w.ticked := by
  simp only [exec, World.ticked]
  split <;> rfl

/-- The lookup answers "none" only for a free name. -/
theorem free_of_lookup {w : World}
    (h : (exec env (.query (.selectUuid name)) w).1 = .ok (none : Option Uid)) :
    env.queryFails w.tick = false ∧ name ∉ w.userNames := by
  simp only [exec] at h
  split at h
  · cases h
  · next hquery =>
    simp only [Query.exec, Except.mapError, Except.ok.injEq, Option.map_eq_none_iff] at h
    refine ⟨by simpa using hquery, fun hmem => ?_⟩
    simp only [World.userNames, World.names, List.map_map, List.mem_map] at hmem
    obtain ⟨row, hrow, hname⟩ := hmem
    exact of_decide_eq_false (Table.find?_eq_none.mp h row hrow) hname

/-- The insert registers the name under a free uid, or fails and changes
nothing. -/
theorem exec_insert (row : ClientRow) (w : World) :
    (∃ n, (exec env (.query (.insertClient row)) w).1 = .ok n ∧
      env.queryFails w.tick = false ∧ (∀ x ∈ w.names, x.1 ≠ row.uuid) ∧
      (exec env (.query (.insertClient row)) w).2.names =
        w.names ++ [(row.uuid, row.userName)]) ∨
    (∃ e, (exec env (.query (.insertClient row)) w).1 = .error e ∧
      (exec env (.query (.insertClient row)) w).2.names = w.names) := by
  simp only [exec]
  by_cases hfails : env.queryFails w.tick
  · rw [if_pos hfails]
    exact .inr ⟨_, rfl, rfl⟩
  · rw [if_neg hfails]
    simp only [Query.exec]
    cases hinsert : w.clients.insert? row with
    | none => exact .inr ⟨_, rfl, rfl⟩
    | some clients =>
      obtain ⟨hrows, hfree⟩ := Table.insert?_eq_some hinsert
      refine .inl ⟨1, rfl, by simpa using hfails, fun x hx => ?_, ?_⟩
      · obtain ⟨row', hrow', rfl⟩ := List.mem_map.mp hx
        exact hfree row' hrow'
      · show clients.rows.map _ = _
        rw [hrows, List.map_append]
        rfl

/-! ## A registration handled alone -/

theorem run_orRefuse_world {α : Type} {refusal : Bytes} {k : α → Py Handled}
    {r : Except Raised α} {w : World} :
    (Program.run (exec env) (orRefuse refusal k r) w).2 =
      match r with
      | .ok a => (Program.run (exec env) (k a) w).2
      | .error _ => w := by
  rcases r with e | a
  · cases e <;> rfl
  · rfl

/-- The three stages after a lookup, with no one in between. -/
theorem names_run_draw (name : Str) (w : World) :
    (Program.run (exec env) (Registration.draw name) w).2.names = w.names ∨
      env.queryFails (w.tick + 2) = false ∧ (∀ x ∈ w.names, x.1 ≠ env.uuid4 w.tick) ∧
        (Program.run (exec env) (Registration.draw name) w).2.names =
          w.names ++ [(env.uuid4 w.tick, name)] := by
  have hstages : (Program.run (exec env) (Registration.draw name) w).2 =
      (Program.run (exec env)
        (Registration.insert name (env.uuid4 w.tick) (env.now w.ticked.tick)) w.ticked.ticked).2 :=
    rfl
  rw [hstages, Registration.insert, Program.run_perform, run_orRefuse_world]
  rcases @exec_insert env _ w.ticked.ticked with ⟨n, hreply, hquery, hfree, hnames⟩ |
    ⟨e, hreply, hnames⟩
  · rw [hreply]
    exact .inr ⟨hquery, hfree, hnames⟩
  · rw [hreply]
    exact .inl hnames

/-- The step adds `name` to the registered names: the request registers it, it
is free, both statements work, and the uuid drawn is new. -/
structure Step.Admits (env : Env) (s : Step) (name : Str) : Prop where
  registers : Registers s.header s.payload name
  free : name ∉ s.before.userNames
  lookup : env.queryFails s.before.tick = false
  insert : env.queryFails (s.before.tick + 3) = false
  fresh : ∀ x ∈ s.before.names, x.1 ≠ env.uuid4 (s.before.tick + 1)

/-- **Handled alone, a registration takes a name that was free**, or leaves the
names as they are. -/
theorem Step.names_after_register {s : Step} (hcode : s.header.code = Constants.register) :
    (s.after env crypto).names = s.before.names ∨ ∃ name, s.Admits env name ∧
      (s.after env crypto).names =
        s.before.names ++ [(env.uuid4 (s.before.tick + 1), name)] := by
  by_cases hregisters : ∃ name, Registers s.header s.payload name
  · obtain ⟨name, h⟩ := hregisters
    rw [Step.after, serve, reqSelect_register h, Registration.lookup, Program.run_perform,
      exec_lookup, run_orRefuse_world]
    split
    · next found hfound =>
      rcases found with _ | uid
      · obtain ⟨hlookup, hfree⟩ := free_of_lookup hfound
        rcases @names_run_draw env name s.before.ticked with hnames | ⟨hinsert, hfresh, hnames⟩
        · exact .inl hnames
        · exact .inr ⟨name, ⟨h, hfree, hlookup, hinsert, hfresh⟩, hnames⟩
      · exact .inl rfl
    · exact .inl rfl
  · refine .inl ?_
    rw [Step.after, serve, reqSelect_not_register hcode fun name h => hregisters ⟨name, h⟩]
    rfl

/-- A name that is new after a step was admitted by it. -/
theorem Step.registered_before {s : Step} {uid : Uid} {name : Str}
    (h : (s.after env crypto).Registered uid name) :
    s.before.Registered uid name ∨
      s.Admits env name ∧ uid = env.uuid4 (s.before.tick + 1) := by
  unfold World.Registered at h ⊢
  by_cases hcode : s.header.code = Constants.register
  · rcases @Step.names_after_register env crypto s hcode with hnames | ⟨name', hadmits, hnames⟩
    · exact .inl (hnames ▸ h)
    · rw [hnames] at h
      rcases List.mem_append.mp h with h | h
      · exact .inl h
      · cases List.mem_singleton.mp h
        exact .inr ⟨hadmits, rfl⟩
  · rw [Step.names_after hcode] at h
    exact .inl h

/-- Who is registered stays registered, under the same name. -/
theorem Step.registered_after {s : Step} {uid : Uid} (h : s.before.Registered uid name) :
    (s.after env crypto).Registered uid name := by
  unfold World.Registered at h ⊢
  by_cases hcode : s.header.code = Constants.register
  · rcases @Step.names_after_register env crypto s hcode with hnames | ⟨name', -, hnames⟩
    · rw [hnames]
      exact h
    · rw [hnames]
      exact List.mem_append_left _ h
  · rw [Step.names_after hcode]
    exact h

end FileTransfer.Server
