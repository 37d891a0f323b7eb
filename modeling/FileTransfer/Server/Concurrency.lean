import FileTransfer.Lib.Interleaving
import FileTransfer.Server.Registration

/-!
# Registrations that interleave

Every session has a thread of its own, and the lock of `run_thread_query` is
held for one statement. A thread of the pool takes up one request after
another, as a session does, and any other thread may move between two of its
operations. Looking a name up and inserting it are two operations, so two
threads can find the same name free before either has inserted it.
-/

namespace FileTransfer.Server

open FileTransfer.Effect

/-- The threads of the server and what they have answered. -/
abbrev Threads := Pool sig Raised Handled (Header × Bytes) World

/-- What a thread does with a request. -/
abbrev handleJob (env : Env) (crypto : Crypto) (j : Header × Bytes) : Py Handled :=
  reqSelect env crypto j.1 j.2

/-! ## Where a request is -/

/-- The code of an answer, if there is one. -/
def answerCode : Except Raised Handled → Option Nat
  | .ok (.response response) => some (responseCode response)
  | _ => none

/-- An 825 for `name`, answered with 1600. -/
def Granted (name : Str) (x : (Header × Bytes) × Except Raised Handled) : Prop :=
  x.1.1.code = Constants.register ∧ asciiDecode x.1.2 = some name ∧
    answerCode x.2 = some Constants.initRegistrationSucc

instance (name : Str) : DecidablePred (Granted name) := fun x =>
  inferInstanceAs (Decidable (x.1.1.code = Constants.register ∧
    asciiDecode x.1.2 = some name ∧ answerCode x.2 = some Constants.initRegistrationSucc))

/-- The registration has found `name` free and has not inserted it yet. -/
def InWindow (j : Header × Bytes) (p : Py Handled) (name : Str) : Prop :=
  Registers j.1 j.2 name ∧
    (p = Registration.draw name ∨ (∃ uid, p = Registration.stamp name uid) ∨
      ∃ uid now, p = Registration.insert name uid now)

/-- The next operation inserts `name`, and it will work: the statement does not
fail, and the uuid is new. -/
structure Takes (env : Env) (w : World) (j : Header × Bytes) (p : Py Handled) (name : Str) :
    Prop where
  registers : Registers j.1 j.2 name
  insert : ∃ uid now, p = Registration.insert name uid now ∧ ∀ x ∈ w.names, x.1 ≠ uid
  works : env.queryFails w.tick = false

/-- Where a thread can be in its request. -/
inductive Stage (env : Env) (j : Header × Bytes) : Py Handled → Prop where
  | lookup {name : Str} (h : Registers j.1 j.2 name) : Stage env j (Registration.lookup name)
  | draw {name : Str} (h : Registers j.1 j.2 name) : Stage env j (Registration.draw name)
  | stamp {name : Str} {uid : Uid} (h : Registers j.1 j.2 name) :
      Stage env j (Registration.stamp name uid)
  | insert {name : Str} {uid : Uid} {now : Str} (h : Registers j.1 j.2 name) :
      Stage env j (Registration.insert name uid now)
  | done (r : Except Raised Handled) : Stage env j (.ofResult r)
  | other {p : Py Handled} (hcode : j.1.code ≠ Constants.register)
      (huses : Within env (fun _ _ => True) (fun _ => True) j.1 j.2 p fun _ => True) :
      Stage env j p

section Stages

variable {env : Env} {crypto : Crypto} {j : Header × Bytes} {p : Py Handled} {name name' : Str}

theorem Registers.unique {header : Header} {payload : Bytes} (h : Registers header payload name)
    (h' : Registers header payload name') : name = name' :=
  Option.some.inj (h.name.symm.trans h'.name)

theorem not_inWindow_ofResult {r : Except Raised Handled} : ¬ InWindow j (.ofResult r) name := by
  rintro ⟨-, h | ⟨uid, h⟩ | ⟨uid, now, h⟩⟩
  all_goals exact absurd h.symm Program.perform_ne_ofResult

theorem not_inWindow_lookup : ¬ InWindow j (Registration.lookup name') name := by
  rintro ⟨-, h | ⟨uid, h⟩ | ⟨uid, now, h⟩⟩
  all_goals
    injection h with h
    cases h

theorem Takes.inWindow {w : World} (h : Takes env w j p name) : InWindow j p name := by
  obtain ⟨uid, now, hp, -⟩ := h.insert
  exact ⟨h.registers, .inr (.inr ⟨uid, now, hp⟩)⟩

/-- A reply is gone on with, or it ends the request with the error response at most. -/
theorem orRefuse_cases {α : Type} {code : Nat} (hcode : code ≠ Constants.generalError)
    (k : α → Py Handled) (r : Except Raised α) :
    (∃ a, r = .ok a ∧ orRefuse errorResponse k r = k a) ∨
      ∃ r', orRefuse errorResponse k r = .ofResult r' ∧ answerCode r' ≠ some code := by
  rcases r with e | a
  · cases e with
    | exception e =>
      refine .inr ⟨.ok (.response errorResponse), rfl, fun h => hcode ?_⟩
      exact (Option.some.inj h).symm
    | systemExit => exact .inr ⟨.error .systemExit, rfl, nofun⟩
  · exact .inl ⟨a, rfl, rfl⟩

/-! ## How a request starts and goes on -/

/-- A move of one thread that takes no name. At most it finds one free. -/
structure Quiet (j : Header × Bytes) (w w' : World) (p' : Py Handled) : Prop where
  names : w'.userNames = w.userNames
  window : ∀ name, InWindow j p' name → name ∉ w.userNames
  result : ∀ name r, p' = .ofResult r → ¬ Granted name (j, r)

variable {w w' : World}

/-- A move that ends a request without a 1600. -/
theorem quiet_of_result {r : Except Raised Handled} (hnames : w'.userNames = w.userNames)
    (hp : p = .ofResult r) (hr : answerCode r ≠ some Constants.initRegistrationSucc) :
    Quiet j w w' p where
  names := hnames
  window name h := absurd (hp ▸ h) not_inWindow_ofResult
  result name r' hr' hgranted := by
    obtain rfl := Program.ofResult_inj (hp.symm.trans hr')
    exact hr hgranted.2.2

/-- A move within an 825, to its next operation. -/
theorem quiet_of_perform {o : Op} {k : Except Raised o.Reply → Py Handled}
    (h : Registers j.1 j.2 name) (hnames : w'.userNames = w.userNames)
    (hfree : name ∉ w.userNames) : Quiet j w w' (.perform o k) where
  names := hnames
  window _ hwindow := h.unique hwindow.1 ▸ hfree
  result _ _ h := absurd h Program.perform_ne_ofResult

/-- A move of a request other than 825. -/
theorem quiet_of_other (hnames : w'.userNames = w.userNames)
    (hcode : j.1.code ≠ Constants.register) : Quiet j w w' p where
  names := hnames
  window _ h := absurd h.1.code hcode
  result _ _ _ h := absurd h.1 hcode

theorem stage_start : Stage env j (handleJob env crypto j) := by
  by_cases hcode : j.1.code = Constants.register
  · by_cases hregisters : ∃ name, Registers j.1 j.2 name
    · obtain ⟨name, h⟩ := hregisters
      rw [handleJob, reqSelect_register h]
      exact .lookup h
    · rw [handleJob, reqSelect_not_register hcode fun name h => hregisters ⟨name, h⟩]
      exact .done (.ok (.response errorResponse))
  · exact .other hcode (reqSelect_within crypto)

/-- A request starts outside every window. -/
theorem quiet_start : Quiet j w w (handleJob env crypto j) := by
  by_cases hcode : j.1.code = Constants.register
  · by_cases hregisters : ∃ name, Registers j.1 j.2 name
    · obtain ⟨name, h⟩ := hregisters
      rw [handleJob, reqSelect_register h]
      exact ⟨rfl, fun _ h => absurd h not_inWindow_lookup,
        fun _ _ h => absurd h Program.perform_ne_ofResult⟩
    · rw [handleJob, reqSelect_not_register hcode fun name h => hregisters ⟨name, h⟩]
      exact quiet_of_result (r := .ok (.response errorResponse)) rfl rfl (by decide)
  · exact quiet_of_other rfl hcode

/-- **One operation of a request** is quiet, or it is an insert that works and
leaves only the answer to give. -/
theorem Stage.advance {o : Op} {k : Except Raised o.Reply → Py Handled}
    (h : Stage env j (.perform o k))
    (hfree : ∀ name, InWindow j (.perform o k) name → name ∉ w.userNames) :
    Stage env j (k (exec env o w).1) ∧
      (Quiet j w (exec env o w).2 (k (exec env o w).1) ∨
        ∃ name, Takes env w j (.perform o k) name ∧
          (exec env o w).2.userNames = w.userNames ++ [name] ∧
          ∃ r, k (exec env o w).1 = .ofResult r) := by
  generalize hp : (.perform o k : Py Handled) = p at h
  cases h with
  | done r => exact absurd hp Program.perform_ne_ofResult
  | @lookup name h =>
    cases hp
    have hsame : (exec env (.query (.selectUuid name)) w).2.userNames = w.userNames := by
      rw [exec_lookup]
      rfl
    rcases @orRefuse_cases _ Constants.initRegistrationSucc (by decide) _
      (exec env (.query (.selectUuid name)) w).1 with
      ⟨found, hfound, hk⟩ | ⟨r, hk, hr⟩
    · rw [hk]
      rcases found with _ | uid
      · -- the name is free, and the window opens
        exact ⟨.draw h, .inl (quiet_of_perform h hsame (free_of_lookup hfound).2)⟩
      · have hcode : answerCode (.ok (.response (uidResponse Constants.registrationFail uid))) ≠
            some Constants.initRegistrationSucc := by
          rw [answerCode, responseCode_uidResponse (by decide)]
          decide
        exact ⟨.done (.ok (.response _)), .inl (quiet_of_result hsame rfl hcode)⟩
    · rw [hk]
      exact ⟨.done r, .inl (quiet_of_result hsame rfl hr)⟩
  | @draw name h =>
    cases hp
    exact ⟨.stamp h, .inl (quiet_of_perform h rfl (hfree name ⟨h, .inl rfl⟩))⟩
  | @stamp name uid h =>
    cases hp
    exact ⟨.insert h, .inl (quiet_of_perform h rfl (hfree name ⟨h, .inr (.inl ⟨uid, rfl⟩)⟩))⟩
  | @insert name uid now h =>
    cases hp
    rcases @exec_insert env ⟨uid, name, publicKeyPlaceholder, now, aesKeyPlaceholder⟩ w with
      ⟨n, hreply, hworks, hnew, hnames⟩ | ⟨e, hreply, hnames⟩
    · -- the row is there, and the window closes
      refine ⟨?_, .inr ⟨name, ⟨h, ⟨uid, now, rfl, hnew⟩, hworks⟩, ?_, ?_⟩⟩
      · rw [hreply]
        exact .done (.ok (.response _))
      · rw [World.userNames, hnames, List.map_append]
        rfl
      · rw [hreply]
        exact ⟨.ok (.response _), rfl⟩
    · -- nothing is inserted, and the answer is an error
      rw [hreply]
      rcases @orRefuse_cases Nat Constants.initRegistrationSucc (by decide) (fun _ =>
        .ret (.response (uidResponse Constants.initRegistrationSucc uid))) (.error e) with
        ⟨n, hn, -⟩ | ⟨r, hk, hr⟩
      · cases hn
      · exact ⟨hk ▸ .done r,
          .inl (quiet_of_result (congrArg (List.map Prod.snd) hnames) hk hr)⟩
  | other hcode huses =>
    subst hp
    have hnames : (exec env o w).2.names = w.names := by
      rcases names_exec huses.1 w with hsame | ⟨hregister, -⟩
      · exact hsame
      · exact absurd hregister hcode
    exact ⟨.other hcode (huses.2 _ (replies_trivial o _)),
      .inl (quiet_of_other (congrArg (List.map Prod.snd) hnames) hcode)⟩

end Stages

/-! ## All threads together -/

section Threads

variable {env : Env} {crypto : Crypto} {c c' : Threads} {a : Action (Header × Bytes)}

/-- A name is inserted only while no other thread is in the window of that
name. -/
def Alone (env : Env) (c : Threads) (a : Action (Header × Bytes)) : Prop :=
  ∀ t j p name, a = .advance t → c.threads t = some (j, p) → Takes env c.shared j p name →
    ∀ t' j' p', t' ≠ t → c.threads t' = some (j', p') → ¬ InWindow j' p' name

/-- The state of the threads and of the table while inserts are alone. -/
structure Orderly (env : Env) (c : Threads) : Prop where
  stage : ∀ t j p, c.threads t = some (j, p) → Stage env j p
  rows : c.shared.userNames.Nodup
  free : ∀ t j p name, c.threads t = some (j, p) → InWindow j p name →
    name ∉ c.shared.userNames
  once : ∀ name, c.Once (Granted name)
  taken : ∀ name, c.Issued (Granted name) → name ∈ c.shared.userNames

theorem orderly_initial (disk : Disk) : Orderly env (.initial (.init disk)) where
  stage _ _ _ h := by cases h
  rows := List.nodup_nil
  free _ _ _ _ h := by cases h
  once _ := Pool.once_initial
  taken _ h := absurd h Pool.not_issued_initial

/-- A quiet move of one thread. -/
theorem Orderly.quiet {w' : World} {t : Nat} {j : Header × Bytes} {p' : Py Handled}
    (h : Orderly env c) (hstage : Stage env j p') (hquiet : Quiet j c.shared w' p') :
    Orderly env
      { c with shared := w', threads := Function.update c.threads t (some (j, p')) } where
  stage t' j' q ht' := by
    rcases Pool.threads_update.mp ht' with ⟨-, hmoved⟩ | ⟨-, ht'⟩
    · cases hmoved
      exact hstage
    · exact h.stage t' j' q ht'
  rows := by
    show w'.userNames.Nodup
    rw [hquiet.names]
    exact h.rows
  free t' j' q name ht' hname := by
    show name ∉ w'.userNames
    rw [hquiet.names]
    rcases Pool.threads_update.mp ht' with ⟨-, hmoved⟩ | ⟨-, ht'⟩
    · cases hmoved
      exact hquiet.window name hname
    · exact h.free t' j' q name ht' hname
  once name := (h.once name).move fun ⟨r, hr, hgranted⟩ =>
    absurd hgranted (hquiet.result name r hr)
  taken name hissued := by
    show name ∈ w'.userNames
    rw [hquiet.names]
    rcases hissued.of_move with ⟨r, hr, hgranted⟩ | hissued
    · exact absurd hgranted (hquiet.result name r hr)
    · exact h.taken name hissued

/-- An insert, with no other thread in the window. -/
theorem Orderly.take {w' : World} {t : Nat} {j : Header × Bytes} {p p' : Py Handled} {name : Str}
    {r : Except Raised Handled} (h : Orderly env c) (ht : c.threads t = some (j, p))
    (htakes : Takes env c.shared j p name) (hnames : w'.userNames = c.shared.userNames ++ [name])
    (hp' : p' = .ofResult r)
    (halone : ∀ t' j' q, t' ≠ t → c.threads t' = some (j', q) → ¬ InWindow j' q name) :
    Orderly env
      { c with shared := w', threads := Function.update c.threads t (some (j, p')) } := by
  have hfree : name ∉ c.shared.userNames := h.free t j p name ht htakes.inWindow
  -- whatever the thread answers now, it answers for `name`
  have hname : ∀ name' r', Granted name' (j, r') → name' = name := fun name' r' hgranted =>
    Option.some.inj (hgranted.2.1.symm.trans htakes.registers.name)
  constructor
  case stage =>
    intro t' j' q ht'
    rcases Pool.threads_update.mp ht' with ⟨-, hmoved⟩ | ⟨-, ht'⟩
    · cases hmoved
      rw [hp']
      exact .done r
    · exact h.stage t' j' q ht'
  case rows =>
    show w'.userNames.Nodup
    rw [hnames]
    exact List.nodup_append.mpr ⟨h.rows, List.nodup_singleton _, fun x hx y hy hxy => by
      obtain rfl := List.mem_singleton.mp hy
      exact hfree (hxy ▸ hx)⟩
  case free =>
    intro t' j' q name' ht' hwindow
    show name' ∉ w'.userNames
    rcases Pool.threads_update.mp ht' with ⟨-, hmoved⟩ | ⟨hne, ht'⟩
    · cases hmoved
      exact absurd (hp' ▸ hwindow) not_inWindow_ofResult
    · rw [hnames, List.mem_append, List.mem_singleton]
      rintro (hmem | rfl)
      · exact h.free t' j' q name' ht' hwindow hmem
      · exact halone t' j' q hne ht' hwindow
  case once =>
    refine fun name' => (h.once name').move fun ⟨r', _, hgranted⟩ hissued => hfree ?_
    rw [← hname name' r' hgranted]
    exact h.taken name' hissued
  case taken =>
    intro name' hissued
    show name' ∈ w'.userNames
    rw [hnames]
    rcases hissued.of_move with ⟨r', -, hgranted⟩ | hissued
    · exact List.mem_append_right _ (List.mem_singleton.mpr (hname name' r' hgranted))
    · exact List.mem_append_left _ (h.taken name' hissued)

/-- A thread gives its answer. -/
theorem Orderly.answer {t : Nat} {j : Header × Bytes} {r : Except Raised Handled}
    (h : Orderly env c) (ht : c.threads t = some (j, .ofResult r)) :
    Orderly env { c with
      threads := Function.update c.threads t none
      answered := c.answered ++ [(j, r)] } where
  stage t' j' q ht' := by
    rcases Pool.threads_update.mp ht' with ⟨-, hmoved⟩ | ⟨-, ht'⟩
    · cases hmoved
    · exact h.stage t' j' q ht'
  rows := h.rows
  free t' j' q name ht' hname := by
    rcases Pool.threads_update.mp ht' with ⟨-, hmoved⟩ | ⟨-, ht'⟩
    · cases hmoved
    · exact h.free t' j' q name ht' hname
  once name := (h.once name).answer ht
  taken name hissued := h.taken name (hissued.of_answer ht)

theorem Orderly.step (h : Orderly env c) (halone : Alone env c a)
    (hstep : Pool.step (exec env) (handleJob env crypto) c a = some c') : Orderly env c' := by
  rcases Pool.step_cases (exec env) (handleJob env crypto) hstep with
    ⟨t, j, rfl, hidle, rfl⟩ | ⟨t, j, r, rfl, ht, rfl⟩ | ⟨t, j, o, k, rfl, ht, rfl⟩
  · exact h.quiet stage_start quiet_start
  · exact h.answer ht
  · obtain ⟨hstage, hquiet | ⟨name, htakes, hnames, r, hr⟩⟩ :=
      (h.stage t j _ ht).advance fun name => h.free t j _ name ht
    · exact h.quiet hstage hquiet
    · exact h.take ht htakes hnames hr (halone t j _ name rfl ht htakes)

/-- No two rows share a user name, and no name is granted twice. -/
structure NamesUnique (c : Threads) : Prop where
  rows : c.shared.userNames.Nodup
  granted : ∀ name, c.answered.countP (fun x => decide (Granted name x)) ≤ 1

/-- **User names stay unique** under every interleaving in which inserts are
alone. -/
theorem names_stay_unique {disk : Disk}
    (hrun : Pool.Run (exec env) (handleJob env crypto) (Alone env) (.initial (.init disk)) c) :
    NamesUnique c := by
  have h : Orderly env c := hrun.invariant _ _ (orderly_initial disk) fun _ _ _ => Orderly.step
  exact ⟨h.rows, fun name => (h.once name).countP_le_one⟩

/-- Threads that register different names are alone. -/
theorem alone_of_distinct
    (h : ∀ t t' j j' p p' name, c.threads t = some (j, p) → c.threads t' = some (j', p') →
      Registers j.1 j.2 name → Registers j'.1 j'.2 name → t = t') : Alone env c a := by
  intro t j p name _ ht htakes t' j' p' hne ht' hwindow
  exact hne (h t' t j' j p' p name ht' ht hwindow.1 htakes.registers)

end Threads

/-! ## Two threads -/

/-- Two threads register a name each, taking turns. -/
def takeTurns (first second : Bytes) : List (Action (Header × Bytes)) :=
  [.start 0 (request (Uid.ofNat 0) 825 first), .start 1 (request (Uid.ofNat 0) 825 second)] ++
    [0, 1, 0, 1, 0, 1, 0, 1, 0, 1].map .advance

/-- The first two threads register `u` and `v`. -/
def OwnName (t : Nat) (j : Header × Bytes) : Prop :=
  t < 2 ∧ j = request (Uid.ofNat 0) 825 [UInt8.ofNat (0x75 + t), 0x00]

instance (t : Nat) (j : Header × Bytes) : Decidable (OwnName t j) :=
  inferInstanceAs (Decidable (t < 2 ∧ j = request (Uid.ofNat 0) 825 [UInt8.ofNat (0x75 + t), 0x00]))

theorem OwnName.unique {t t' : Nat} {j j' : Header × Bytes} {name : Str} (h : OwnName t j)
    (h' : OwnName t' j') (hname : Registers j.1 j.2 name) (hname' : Registers j'.1 j'.2 name) :
    t = t' := by
  have hsame : asciiDecode j.2 = asciiDecode j'.2 := hname.name.trans hname'.name.symm
  have hnames : ∀ t < 2, ∀ t' < 2, asciiDecode [UInt8.ofNat (0x75 + t), 0x00] =
      asciiDecode [UInt8.ofNat (0x75 + t'), 0x00] → t = t' := by decide
  obtain ⟨ht, rfl⟩ := h
  obtain ⟨ht', rfl⟩ := h'
  exact hnames t ht t' ht' hsame

/-- No thread starts anything else. -/
def ownNames (_ : Threads) : Action (Header × Bytes) → Bool
  | .start t j => decide (OwnName t j)
  | .advance _ => true

/-- Two names: both are granted, once each. -/
theorem twoNames_stay_unique :
    ∃ c : Threads, c.shared.userNames = [['u', '\x00'], ['v', '\x00']] ∧ c.answered.length = 2 ∧
      NamesUnique c := by
  obtain ⟨c, hc, hnames⟩ : ∃ c, Pool.follow (exec (.calm Uid.ofNat))
      (handleJob (.calm Uid.ofNat) toyCrypto) ownNames (.initial (.init .bare))
      (takeTurns [0x75, 0x00] [0x76, 0x00]) = some c ∧
      (c.shared.userNames, c.answered.length) = ([['u', '\x00'], ['v', '\x00']], 2) :=
    Option.map_eq_some_iff.mp (by decide +kernel)
  obtain ⟨hrows, hlength⟩ := Prod.mk.inj hnames
  refine ⟨c, hrows, hlength, names_stay_unique (Pool.run_of_follow _ _
    (I := fun c => ∀ t j p, c.threads t = some (j, p) → OwnName t j) ?_ ?_ .refl nofun hc)⟩
  · intro c c' a hI hcheck
    refine Pool.jobs_step _ _ hI fun t j hstart => ?_
    subst hstart
    exact of_decide_eq_true hcheck
  · intro c a hI _
    exact alone_of_distinct fun t t' j j' p p' name ht ht' =>
      (hI t j p ht).unique (hI t' j' p' ht')

/-- **One name, granted twice**: both threads look `u` up before either inserts
it, so there are two rows with it and two answers 1600. -/
theorem one_name_granted_twice :
    ∃ c, Pool.Run (exec (.calm Uid.ofNat)) (handleJob (.calm Uid.ofNat) toyCrypto)
        (fun _ _ => True) (.initial (.init .bare)) c ∧
      c.shared.userNames = [['u', '\x00'], ['u', '\x00']] ∧
      c.answered.countP (fun x => decide (Granted ['u', '\x00'] x)) = 2 ∧ ¬ NamesUnique c := by
  obtain ⟨c, hc, hnames⟩ : ∃ c, Pool.follow (exec (.calm Uid.ofNat))
      (handleJob (.calm Uid.ofNat) toyCrypto) (fun _ _ => true) (.initial (.init .bare))
      (takeTurns [0x75, 0x00] [0x75, 0x00]) = some c ∧
      (c.shared.userNames, c.answered.countP fun x => decide (Granted ['u', '\x00'] x)) =
        ([['u', '\x00'], ['u', '\x00']], 2) :=
    Option.map_eq_some_iff.mp (by decide +kernel)
  obtain ⟨hrows, hgranted⟩ := Prod.mk.inj hnames
  refine ⟨c, Pool.run_of_follow _ _ (I := fun _ => True) (fun _ _ _ _ _ _ => trivial)
    (fun _ _ _ _ => trivial) .refl trivial hc, hrows, hgranted, fun h => ?_⟩
  have htwo := h.granted ['u', '\x00']
  omega

end FileTransfer.Server
