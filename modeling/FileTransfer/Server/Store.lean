import FileTransfer.Server.Undisturbed

/-!
# The store that clients see

From outside the server is a store: it knows users, keeps the files of each, and
lists one file a client. Requests change it in four ways, and the answer tells which.
As long as nothing fails from outside and names are plain, the tables and the disk
show this store after any list of requests.
-/

namespace FileTransfer.Server

open FileTransfer.Effect
open FileTransfer.PurePath

/-! ## The abstract store -/

/-- What is listed of a client: the name of a file, and whether it was approved. -/
structure Listing where
  name : Str
  approved : Bool
deriving DecidableEq

structure Store where
  user : Uid → Option Str
  file : Uid → Str → Option Bytes
  listed : Uid → Option Listing

/-- What a request has done. -/
inductive Event where
  | joined (uid : Uid) (user : Str)
  | saved (uid : Uid) (name : Str) (content : Bytes)
  | approved (uid : Uid) (name : Str)
  | dropped (uid : Uid) (name : Str)
  | nothing

namespace Store

def empty : Store := ⟨fun _ => none, fun _ _ => none, fun _ => none⟩

/-- The empty name stands for all names. -/
def approve (name : Str) (listing : Listing) : Listing :=
  if name = [] ∨ listing.name = name then { listing with approved := true } else listing

/-- Approved files stay listed. -/
def unlist (name : Str) (listing : Listing) : Option Listing :=
  if listing.approved = false ∧ listing.name = name then none else some listing

/-- The first file of a client is listed, as long as it is listed. -/
def apply (s : Store) : Event → Store
  | .joined uid user => { s with user := Function.update s.user uid (some user) }
  | .saved uid name content => { s with
      file := Function.update s.file uid (Function.update (s.file uid) name (some content))
      listed := Function.update s.listed uid (some ((s.listed uid).getD ⟨name, false⟩)) }
  | .approved uid name => { s with
      listed := Function.update s.listed uid ((s.listed uid).map (approve name)) }
  | .dropped uid name => { s with
      file := Function.update s.file uid (Function.update (s.file uid) name none)
      listed := Function.update s.listed uid ((s.listed uid).bind (unlist name)) }
  | .nothing => s

end Store

/-! ## What an answer tells -/

/-- The codes of requests that change something, and the answers to those that do. -/
def acceptances : List (Nat × Nat) :=
  [(Constants.register, Constants.initRegistrationSucc),
    (Constants.sendFile, Constants.validFileCrc), (Constants.validCrc, Constants.fileApproval),
    (Constants.exitCrc, Constants.fileApproval)]

namespace Step

variable (env : Env) (crypto : Crypto) (s : Step)

/-- The answer says that something was done. -/
def Accepted : Prop :=
  ∃ answer, (s.header.code, answer) ∈ acceptances ∧ s.Answered env crypto answer

/-- The event that a request and its answer tell of. -/
inductive Tells : Event → Prop where
  | joined {uid : Uid} {user : Str} : Registers s.header s.payload user →
      s.response env crypto = some (uidResponse Constants.initRegistrationSucc uid) →
      Tells (.joined uid user)
  | saved {name : Str} {row : ClientRow} {content : Bytes} :
      s.header.code = Constants.sendFile → s.Answered env crypto Constants.validFileCrc →
      uploadName s.payload = some name →
      s.before.clients.find? (·.uuid = s.header.uid) = some row →
      decrypted crypto row s.payload = .ok content → Tells (.saved s.header.uid name content)
  | approved {name : Str} : s.header.code = Constants.validCrc →
      s.Answered env crypto Constants.fileApproval → finalName s.payload = some name →
      Tells (.approved s.header.uid name)
  | dropped {name : Str} : s.header.code = Constants.exitCrc →
      s.Answered env crypto Constants.fileApproval → finalName s.payload = some name →
      Tells (.dropped s.header.uid name)
  | nothing : ¬ s.Accepted env crypto → Tells .nothing

end Step

/-! ## How the server shows the store -/

/-- A row of the files table, as the listing has it. -/
def FileRow.listing (row : FileRow) : Listing := ⟨row.fileName, decide (row.verified ≠ 0)⟩

/-- The tables and the disk show `store`. -/
structure World.Shows (env : Env) (w : World) (store : Store) : Prop where
  user : ∀ uid user, store.user uid = some user ↔ w.Registered uid user
  listed : ∀ uid, store.listed uid = (w.files.find? (·.uuid = uid)).map FileRow.listing
  file : ∀ uid user name, w.Registered uid user → Plain name →
    w.disk.fileAt (fileLocation env user name) = store.file uid name

variable {env : Env} {crypto : Crypto} {s : Step} {w w' : World} {store : Store} {uid : Uid}
  {user name : Str}

/-! ## One request -/

/-- The store is shown, and what it does not speak of is empty. -/
structure World.Keeps (env : Env) (w : World) (store : Store) : Prop where
  shows : w.Shows env store
  tidy : Tidy w
  stranger : ∀ uid, (∀ user, ¬ w.Registered uid user) → ∀ name, store.file uid name = none
  vacant : ∀ user name, Terminated user → Plain name → (∀ uid, ¬ w.Registered uid user) →
    w.disk.fileAt (fileLocation env user name) = none

/-- The names stay: what is listed and one file may change. -/
theorem World.Keeps.replace {listed : Uid → Option Listing} {content : Option Bytes}
    (h : w.Keeps env store) (hnames : w'.names = w.names) (huser : w.Registered uid user)
    (hname : Plain name)
    (hlisted : ∀ u, listed u = (w'.files.find? (·.uuid = u)).map FileRow.listing)
    (hfile : ∀ loc, w'.disk.fileAt loc =
      if loc = fileLocation env user name then content else w.disk.fileAt loc) :
    w'.Keeps env { store with
      file := Function.update store.file uid (Function.update (store.file uid) name content)
      listed := listed } := by
  have hregistered := registered_congr hnames
  constructor
  · constructor
    · rw [hregistered]
      exact h.shows.user
    · exact hlisted
    · intro u user' name' huser' hname'
      rw [hregistered] at huser'
      show w'.disk.fileAt _ =
        Function.update store.file uid (Function.update (store.file uid) name content) u name'
      rw [hfile]
      by_cases hsame : fileLocation env user' name' = fileLocation env user name
      · obtain ⟨rfl, rfl⟩ := h.tidy.eq_of_location huser' huser hname' hname hsame
        rw [if_pos hsame, Function.update_self, Function.update_self]
      · rw [if_neg hsame, h.shows.file u user' name' huser' hname']
        by_cases huid : u = uid
        · subst huid
          obtain rfl := huser.unique huser'
          have hother : name' ≠ name := fun heq => hsame (by rw [heq])
          rw [Function.update_self, Function.update_of_ne hother]
        · rw [Function.update_of_ne huid]
  · exact h.tidy.congr hnames
  · intro u hstranger name'
    rw [hregistered] at hstranger
    have hother : u ≠ uid := by
      rintro rfl
      exact hstranger user huser
    show Function.update store.file uid _ u name' = none
    rw [Function.update_of_ne hother]
    exact h.stranger u hstranger name'
  · intro user' name' huser' hname' hfree
    rw [hregistered] at hfree
    rw [hfile, if_neg, h.vacant user' name' huser' hname' hfree]
    intro hsame
    obtain ⟨base, hbase, rfl⟩ := huser'
    obtain ⟨base', hbase', rfl⟩ := h.tidy.terminated uid user huser
    rw [fileLocation_eq env hbase hname', fileLocation_eq env hbase' hname] at hsame
    obtain ⟨hdir, -⟩ := List.append_inj' hsame rfl
    obtain rfl : base = base' := by simpa using hdir
    exact hfree uid huser

/-- The names and the files stay: only what is listed may change. -/
theorem World.Keeps.relist {listed : Uid → Option Listing} (h : w.Keeps env store)
    (hnames : w'.names = w.names)
    (hlisted : ∀ u, listed u = (w'.files.find? (·.uuid = u)).map FileRow.listing)
    (hdisk : ∀ loc, env.BacksUp loc → w'.disk.fileAt loc = w.disk.fileAt loc) :
    w'.Keeps env { store with listed := listed } := by
  have hregistered := registered_congr hnames
  constructor
  · constructor
    · rw [hregistered]
      exact h.shows.user
    · exact hlisted
    · intro u user' name' huser' hname'
      rw [hregistered] at huser'
      rw [hdisk _ ((h.tidy.terminated u user' huser').backsUp env hname')]
      exact h.shows.file u user' name' huser' hname'
  · exact h.tidy.congr hnames
  · rw [hregistered]
    exact h.stranger
  · intro user' name' huser' hname' hfree
    rw [hregistered] at hfree
    rw [hdisk _ (huser'.backsUp env hname')]
    exact h.vacant user' name' huser' hname' hfree

/-- Nothing changes but the clock and the disk elsewhere. -/
theorem World.Keeps.still (h : w.Keeps env store) (hnames : w'.names = w.names)
    (hfiles : w'.files = w.files)
    (hdisk : ∀ loc, env.BacksUp loc → w'.disk.fileAt loc = w.disk.fileAt loc) :
    w'.Keeps env store := by
  have hlisted := h.shows.listed
  rw [← hfiles] at hlisted
  exact h.relist hnames hlisted hdisk

/-- A client that joins has no files yet. -/
theorem World.Keeps.join (h : w.Keeps env store) (hnames : w'.names = w.names ++ [(uid, user)])
    (hfresh : ∀ x ∈ w.names, x.1 ≠ uid) (hfree : user ∉ w.userNames) (huser : Terminated user)
    (hfiles : w'.files = w.files) (hdisk : ∀ loc, w'.disk.fileAt loc = w.disk.fileAt loc) :
    w'.Keeps env { store with user := Function.update store.user uid (some user) } := by
  have hregistered : ∀ u v, w'.Registered u v ↔ w.Registered u v ∨ u = uid ∧ v = user := by
    intro u v
    rw [World.Registered, hnames, World.Registered, List.mem_append, List.mem_singleton,
      Prod.mk.injEq]
  have hnew : ∀ v, ¬ w.Registered uid v := fun v hv => hfresh _ hv rfl
  have hfreeName : ∀ u, ¬ w.Registered u user := fun u hu =>
    hfree (List.mem_map.mpr ⟨(u, user), hu, rfl⟩)
  constructor
  · constructor
    · intro u v
      show Function.update store.user uid (some user) u = some v ↔ _
      rw [hregistered]
      by_cases huid : u = uid
      · subst huid
        rw [Function.update_self]
        constructor
        · intro hv
          exact .inr ⟨rfl, (Option.some.inj hv).symm⟩
        · intro hv
          rcases hv with hv | hv
          · exact absurd hv (hnew v)
          · rw [hv.2]
      · rw [Function.update_of_ne huid, h.shows.user]
        exact ⟨.inl, fun hv => hv.resolve_right fun hboth => huid hboth.1⟩
    · rw [hfiles]
      exact h.shows.listed
    · intro u v name' hv hname'
      rw [hdisk]
      rcases (hregistered u v).mp hv with hv | ⟨rfl, rfl⟩
      · exact h.shows.file u v name' hv hname'
      · rw [h.vacant v name' huser hname' hfreeName]
        exact (h.stranger u hnew name').symm
  · constructor
    · intro u v hv
      rcases (hregistered u v).mp hv with hv | ⟨rfl, rfl⟩
      · exact h.tidy.terminated u v hv
      · exact huser
    · intro u u' v hv hv'
      rcases (hregistered u v).mp hv with hv | ⟨rfl, rfl⟩
      · rcases (hregistered u' v).mp hv' with hv' | ⟨rfl, rfl⟩
        · exact h.tidy.unique u u' v hv hv'
        · exact absurd hv (hfreeName u)
      · rcases (hregistered u' v).mp hv' with hv' | ⟨rfl, -⟩
        · exact absurd hv' (hfreeName u')
        · rfl
  · intro u hu name'
    exact h.stranger u (fun v hv => hu v ((hregistered u v).mpr (.inl hv))) name'
  · intro v name' hv hname' hnone
    rw [hdisk]
    exact h.vacant v name' hv hname' fun u hu => hnone u ((hregistered u v).mpr (.inl hu))

/-! ## What is listed -/

theorem listed_insertOrIgnore {files : Table FileRow.uuid} {path : Str} (u : Uid) :
    ((files.insertOrIgnore ⟨uid, name, path, 0⟩).find? (·.uuid = u)).map FileRow.listing =
      if u = uid then
        some (((files.find? (·.uuid = uid)).map FileRow.listing).getD ⟨name, false⟩)
      else (files.find? (·.uuid = u)).map FileRow.listing := by
  rw [Table.find?_insertOrIgnore]
  by_cases hu : u = uid
  · subst hu
    rw [if_pos rfl, if_pos rfl]
    cases files.find? fun row => decide (row.uuid = u) with
    | none => rfl
    | some row => rfl
  · rw [if_neg hu, if_neg fun heq : uid = u => hu heq.symm]

theorem listed_markVerified {files : Table FileRow.uuid} (u : Uid) :
    ((markVerified files uid name).find? (·.uuid = u)).map FileRow.listing =
      if u = uid then
        ((files.find? (·.uuid = uid)).map FileRow.listing).map (Store.approve name)
      else (files.find? (·.uuid = u)).map FileRow.listing := by
  -- marking keeps the keys, so the same row is found
  have hkey : ∀ row : FileRow,
      (if row.uuid = uid ∧ (name = [] ∨ row.fileName = name) then { row with verified := 1 }
        else row).uuid = row.uuid := by
    intro row
    split <;> rfl
  cases hrow : files.find? fun row => decide (row.uuid = u) with
  | none =>
    have hnone : (markVerified files uid name).find? (fun row => decide (row.uuid = u)) = none := by
      rw [Table.find?_eq_none] at hrow ⊢
      intro row hmem
      obtain ⟨r, hr, rfl⟩ := mem_markVerified.mp hmem
      rw [hkey]
      exact hrow r hr
    rw [hnone]
    by_cases hu : u = uid
    · subst hu
      rw [if_pos rfl, hrow]
      rfl
    · rw [if_neg hu]
  | some row =>
    obtain ⟨hmem, huid⟩ := Table.find?_key_eq_some.mp hrow
    rw [Table.find?_key_eq_some.mpr ⟨mem_markVerified.mpr ⟨row, hmem, rfl⟩, (hkey row).trans huid⟩]
    by_cases hu : u = uid
    · subst hu
      rw [if_pos rfl, hrow]
      by_cases hmark : name = [] ∨ row.fileName = name
      · simp [Store.approve, FileRow.listing, huid, hmark]
      · simp [Store.approve, FileRow.listing, huid, hmark]
    · rw [if_neg hu, if_neg fun h => hu (huid.symm.trans h.1)]

theorem listed_dropUnverified {files : Table FileRow.uuid} (u : Uid) :
    ((dropUnverified files uid name).find? (·.uuid = u)).map FileRow.listing =
      if u = uid then
        ((files.find? (·.uuid = uid)).map FileRow.listing).bind (Store.unlist name)
      else (files.find? (·.uuid = u)).map FileRow.listing := by
  rw [dropUnverified, Table.find?_delete]
  by_cases hu : u = uid
  · subst hu
    rw [if_pos rfl]
    cases hfind : files.find? fun row => decide (row.uuid = u) with
    | none => rfl
    | some row =>
      have huid : row.uuid = u := (Table.find?_key_eq_some.mp hfind).2
      by_cases hdrop : row.verified = 0 ∧ row.fileName = name
      · simp [Option.filter, Store.unlist, FileRow.listing, huid, hdrop]
      · simp [Option.filter, Store.unlist, FileRow.listing, huid, hdrop]
  · rw [if_neg hu]
    cases hfind : files.find? fun row => decide (row.uuid = u) with
    | none => rfl
    | some row =>
      have huid : row.uuid ≠ uid := fun heq => hu ((Table.find?_key_eq_some.mp hfind).2 ▸ heq)
      simp [Option.filter, huid]

/-- A change of one client's listing, as the store records it. -/
theorem listed_update {files files' : Table FileRow.uuid} {listing : Option Listing}
    (hbefore : ∀ u, store.listed u = (files.find? (·.uuid = u)).map FileRow.listing)
    (hafter : ∀ u, (files'.find? (·.uuid = u)).map FileRow.listing =
      if u = uid then listing else (files.find? (·.uuid = u)).map FileRow.listing) (u : Uid) :
    Function.update store.listed uid listing u =
      (files'.find? (·.uuid = u)).map FileRow.listing := by
  rw [hafter]
  by_cases hu : u = uid
  · subst hu
    rw [Function.update_self, if_pos rfl]
  · rw [Function.update_of_ne hu, if_neg hu, hbefore]

/-! ## The step -/

/-- A refusal tells of nothing. -/
theorem Step.not_accepted {answer : Nat} (hnot : ¬ s.Answered env crypto answer)
    (hall : ∀ x ∈ acceptances, x.1 = s.header.code → x.2 = answer) :
    ¬ s.Accepted env crypto := by
  intro h
  obtain ⟨answer', hmem, hanswer⟩ := h
  obtain rfl : answer' = answer := hall _ hmem rfl
  exact hnot hanswer

/-- **One request, as the store sees it**: the answer tells of an event, and the server
shows what the event makes of the store. -/
theorem Step.tells_and_keeps (henv : env.Reliable) (hplain : PlainNames s.header s.payload)
    (h : s.before.Keeps env store) :
    ∃ event, s.Tells env crypto event ∧ (s.after env crypto).Keeps env (store.apply event) := by
  by_cases hregister : s.header.code = Constants.register
  · have hfiles : (s.after env crypto).files = s.before.files :=
      files_after_of_code (by rw [hregister]; decide) (by rw [hregister]; decide)
        (by rw [hregister]; decide)
    have hdisk : ∀ loc, (s.after env crypto).disk.fileAt loc = s.before.disk.fileAt loc :=
      fileAt_after_of_code (by rw [hregister]; decide) (by rw [hregister]; decide)
    rcases @registration_outcome env crypto s hregister with
      ⟨user, hadmits, htold, hnames⟩ | ⟨hnames, hnot⟩
    · refine ⟨_, .joined hadmits.registers htold, ?_⟩
      exact h.join hnames hadmits.fresh hadmits.free
        (hplain.user hregister user hadmits.registers.name) hfiles hdisk
    · refine ⟨.nothing, .nothing (Step.not_accepted hnot ?_), ?_⟩
      · rw [hregister]
        decide
      · exact h.still hnames hfiles fun loc _ => hdisk loc
  have hnames : (s.after env crypto).names = s.before.names := Step.names_after hregister
  by_cases hupload : s.header.code = Constants.sendFile
  · rcases @upload_cases env crypto s henv hupload with
      ⟨name, row, content, hanswer, hname, hrow, hcontent, hfiles, hfile⟩ | ⟨hnot, hsame⟩
    · refine ⟨_, .saved hupload hanswer hname hrow hcontent, ?_⟩
      apply h.replace hnames (registered_of_find? hrow) (hplain.upload hupload name hname)
      · apply listed_update h.shows.listed
        intro u
        rw [hfiles, listed_insertOrIgnore, ← h.shows.listed]
      · exact hfile
    · refine ⟨.nothing, .nothing (Step.not_accepted hnot ?_), ?_⟩
      · rw [hupload]
        decide
      · exact h.still hnames hsame.2 hsame.1
  by_cases hconfirm : s.header.code = Constants.validCrc
  · have hdisk : ∀ loc, (s.after env crypto).disk.fileAt loc = s.before.disk.fileAt loc :=
      fileAt_after_of_code hupload (by rw [hconfirm]; decide)
    rcases @Step.files_after_validCrc env crypto s hconfirm with
      ⟨hfiles, hnot⟩ | ⟨-, -, hanswer, name, hname, hfiles⟩
    · refine ⟨.nothing, .nothing (Step.not_accepted hnot ?_), ?_⟩
      · rw [hconfirm]
        decide
      · exact h.still hnames hfiles fun loc _ => hdisk loc
    · refine ⟨_, .approved hconfirm hanswer hname, ?_⟩
      apply h.relist hnames
      · apply listed_update h.shows.listed
        intro u
        rw [hfiles, listed_markVerified, ← h.shows.listed]
      · exact fun loc _ => hdisk loc
  by_cases habort : s.header.code = Constants.exitCrc
  · rcases @abort_cases env crypto s henv habort with
      ⟨name, hanswer, hname, hfiles, hdisk⟩ | ⟨hnot, hsame⟩
    · refine ⟨_, .dropped habort hanswer hname, ?_⟩
      have hlisted := @listed_update store s.header.uid s.before.files (s.after env crypto).files
        ((store.listed s.header.uid).bind (Store.unlist name)) h.shows.listed fun u => by
          rw [hfiles, listed_dropUnverified, ← h.shows.listed]
      cases hrow : s.before.clients.find? (·.uuid = s.header.uid) with
      | none =>
        have hstranger : ∀ user, ¬ s.before.Registered s.header.uid user := by
          intro user huser
          obtain ⟨row, hmem, huid, -⟩ := registered_iff.mp huser
          have hfree := Table.find?_eq_none.mp hrow row hmem
          exact of_decide_eq_false hfree huid
        have hnofile : Function.update store.file s.header.uid
            (Function.update (store.file s.header.uid) name none) = store.file := by
          rw [← h.stranger s.header.uid hstranger name, Function.update_eq_self,
            Function.update_eq_self]
        show (s.after env crypto).Keeps env { store with
          file := Function.update store.file s.header.uid
            (Function.update (store.file s.header.uid) name none)
          listed := Function.update store.listed s.header.uid
            ((store.listed s.header.uid).bind (Store.unlist name)) }
        rw [hnofile]
        apply h.relist hnames hlisted
        intro loc _
        rw [hdisk, disk_afterRemoval_stranger hrow]
      | some row =>
        have huser := registered_of_find? hrow
        apply h.replace hnames huser (hplain.abort habort name hname) hlisted
        intro loc
        rw [hdisk]
        exact fileAt_afterRemoval henv hrow (h.tidy.terminated _ _ huser)
          (hplain.abort habort name hname) loc
    · refine ⟨.nothing, .nothing (Step.not_accepted hnot ?_), ?_⟩
      · rw [habort]
        decide
      · rw [hsame]
        exact h
  · have hno : ¬ s.Accepted env crypto := by
      intro haccepted
      obtain ⟨answer, hmem, -⟩ := haccepted
      simp only [acceptances, List.mem_cons, Prod.mk.injEq, hregister, hupload, hconfirm, habort,
        false_and, or_self, List.not_mem_nil] at hmem
    refine ⟨.nothing, .nothing hno, h.still hnames ?_ fun loc _ => ?_⟩
    · exact files_after_of_code hupload hconfirm habort
    · exact fileAt_after_of_code hupload habort loc

/-! ## Whole runs -/

variable {disk : Disk} {requests : List (Header × Bytes)}

theorem keeps_init (hdisk : ∀ loc, env.BacksUp loc → disk.fileAt loc = none) :
    (World.init disk).Keeps env .empty := by
  have hnobody : ∀ uid user, ¬ (World.init disk).Registered uid user := by
    intro uid user h
    cases h
  constructor
  · constructor
    · intro uid user
      exact iff_of_false (fun h => by cases h) (hnobody uid user)
    · intro uid
      rfl
    · intro uid user name huser
      exact absurd huser (hnobody uid user)
  · constructor
    · intro uid user huser
      exact absurd huser (hnobody uid user)
    · intro uid uid' user huser
      exact absurd huser (hnobody uid user)
  · intro uid _ name
    rfl
  · intro user name huser hname _
    exact hdisk _ (huser.backsUp env hname)

theorem mem_script {requests : List (Header × Bytes)} (hs : s ∈ script env crypto w requests) :
    (s.header, s.payload) ∈ requests := by
  induction requests generalizing w with
  | nil => cases hs
  | cons j rest ih =>
    rcases List.mem_cons.mp hs with rfl | hs
    · exact List.mem_cons_self ..
    · exact List.mem_cons_of_mem _ (ih hs)

theorem told_events (henv : env.Reliable)
    (hdisk : ∀ loc, env.BacksUp loc → disk.fileAt loc = none)
    (hplain : ∀ j ∈ requests, PlainNames j.1 j.2) :
    ∃ events, List.Forall₂ (Step.Tells env crypto) (script env crypto (.init disk) requests)
        events ∧
      (handleAll env crypto (.init disk) requests).Shows env
        (events.foldl Store.apply .empty) := by
  have hrun : Run env crypto (fun s => PlainNames s.header s.payload) (.init disk)
      (script env crypto (.init disk) requests) (handleAll env crypto (.init disk) requests) :=
    run_script env crypto fun s hs => hplain _ (mem_script hs)
  obtain ⟨events, htold, hkeeps⟩ := hrun.simulates (keeps_init hdisk)
    fun s store hnames h => Step.tells_and_keeps henv hnames h
  exact ⟨events, htold, hkeeps.shows⟩

/-- **The server is a store**: whatever is requested, with plain names, from empty tables
and an empty backup directory on, the answers tell of events, and the tables and the disk
show the store that these events make. -/
theorem serves_a_store (henv : env.Reliable)
    (hdisk : ∀ loc, env.BacksUp loc → disk.fileAt loc = none)
    (hplain : ∀ j ∈ requests, PlainNames j.1 j.2) :
    ∃ events, List.Forall₂ (Step.Tells env crypto) (script env crypto (.init disk) requests)
        events ∧
      (handleAll env crypto (.init disk) requests).Shows env
        (events.foldl Store.apply .empty) :=
  told_events henv hdisk hplain

/-- What the client `u` requests to upload `f` and confirm it has plain names. -/
theorem confirmedUpload_plainNames : ∀ j ∈ confirmedUpload, PlainNames j.1 j.2 := by
  have hupload : uploadName (uploadRequest (Uid.ofNat 1) [0x66]).2 = some ['f'] :=
    uploadName_uploadRequest _ (by decide) (by decide) (by decide)
  intro j hj
  simp only [confirmedUpload, List.mem_cons, List.not_mem_nil, or_false] at hj
  rcases hj with rfl | rfl | rfl | rfl
  · refine ⟨fun _ user huser => ?_, fun hcode => absurd hcode (by decide),
      fun hcode => absurd hcode (by decide)⟩
    obtain rfl : ['u', '\x00'] = user := Option.some.inj huser
    exact ⟨['u'], by decide, rfl⟩
  · exact ⟨fun hcode => absurd hcode (by decide), fun hcode => absurd hcode (by decide),
      fun hcode => absurd hcode (by decide)⟩
  · refine ⟨fun hcode => absurd hcode (by decide), fun _ name hname => ?_,
      fun hcode => absurd hcode (by decide)⟩
    cases hupload.symm.trans hname
    decide
  · exact ⟨fun hcode => absurd hcode (by decide), fun hcode => absurd hcode (by decide),
      fun hcode => absurd hcode (by decide)⟩

theorem fileAt_bare (loc : Location) : Disk.bare.fileAt loc = none := by
  by_cases hloc : loc = [] <;> simp [Disk.fileAt, Disk.bare, hloc]

theorem confirmedUpload_shows_store :
    ∃ events, List.Forall₂ (Step.Tells (.calm Uid.ofNat) toyCrypto)
        (script (.calm Uid.ofNat) toyCrypto (.init .bare) confirmedUpload) events ∧
      (handleAll (.calm Uid.ofNat) toyCrypto (.init .bare) confirmedUpload).Shows
        (.calm Uid.ofNat) (events.foldl Store.apply .empty) :=
  serves_a_store (Env.calm_reliable _) (fun loc _ => fileAt_bare loc) confirmedUpload_plainNames

/-! ## The last upload -/

namespace Step

variable (env crypto s uid name)

/-- An upload of the client's file `name` that was answered with 1603. -/
def Saves : Prop :=
  s.header.code = Constants.sendFile ∧ s.header.uid = uid ∧ uploadName s.payload = some name ∧
    s.Answered env crypto Constants.validFileCrc

/-- An abort of the client's file `name` that was answered with 1604. -/
def Drops : Prop := s.Aborts uid name ∧ s.Answered env crypto Constants.fileApproval

/-- What the upload carries, under the key that its client had. -/
def Carries (content : Bytes) : Prop :=
  ∃ row, s.before.clients.find? (·.uuid = s.header.uid) = some row ∧
    decrypted crypto row s.payload = .ok content

variable {env crypto s uid name}

/-- An upload that was saved is in the store. -/
theorem Tells.file_saves {event : Event} (h : s.Tells env crypto event)
    (hsaves : s.Saves env crypto uid name) (content : Bytes) :
    (store.apply event).file uid name = some content ↔ s.Carries crypto content := by
  obtain ⟨hcode, rfl, hname, hanswer⟩ := hsaves
  cases h with
  | joined hregisters htold =>
    have hother := hregisters.code.symm.trans hcode
    cases hother
  | @saved name' row content' _ _ hname' hrow hcontent =>
    obtain rfl : name' = name := Option.some.inj (hname'.symm.trans hname)
    show Function.update store.file s.header.uid (Function.update (store.file s.header.uid) name'
      (some content')) s.header.uid name' = some content ↔ _
    rw [Function.update_self, Function.update_self]
    constructor
    · intro hsame
      obtain rfl := Option.some.inj hsame
      exact ⟨row, hrow, hcontent⟩
    · intro hcarries
      obtain ⟨row', hrow', hcontent'⟩ := hcarries
      obtain rfl : row = row' := Option.some.inj (hrow.symm.trans hrow')
      exact congrArg some (Except.ok.inj (hcontent.symm.trans hcontent'))
  | approved hcode' => exact absurd (hcode.symm.trans hcode') (by decide)
  | dropped hcode' => exact absurd (hcode.symm.trans hcode') (by decide)
  | nothing hnot => exact absurd ⟨_, by rw [hcode]; decide, hanswer⟩ hnot

/-- A file that was dropped is not. -/
theorem Tells.file_drops {event : Event} (h : s.Tells env crypto event)
    (hdrops : s.Drops env crypto uid name) : (store.apply event).file uid name = none := by
  obtain ⟨⟨hcode, rfl, hname⟩, hanswer⟩ := hdrops
  cases h with
  | joined hregisters htold =>
    have hother := hregisters.code.symm.trans hcode
    cases hother
  | saved hcode' => exact absurd (hcode.symm.trans hcode') (by decide)
  | approved hcode' => exact absurd (hcode.symm.trans hcode') (by decide)
  | @dropped name' _ _ hname' =>
    obtain rfl : name' = name := Option.some.inj (hname'.symm.trans hname)
    show Function.update store.file s.header.uid (Function.update (store.file s.header.uid) name'
      none) s.header.uid name' = none
    rw [Function.update_self, Function.update_self]
  | nothing hnot => exact absurd ⟨_, by rw [hcode]; decide, hanswer⟩ hnot

/-- Any other file is what it was. -/
theorem Tells.file_other {event : Event} (h : s.Tells env crypto event)
    (hsaves : ¬ s.Saves env crypto uid name) (hdrops : ¬ s.Drops env crypto uid name) :
    (store.apply event).file uid name = store.file uid name := by
  have hput : ∀ {name' : Str} {content : Option Bytes},
      (s.header.uid = uid → name' ≠ name) →
      Function.update store.file s.header.uid (Function.update (store.file s.header.uid) name'
        content) uid name = store.file uid name := by
    intro name' content hne
    by_cases huid : s.header.uid = uid
    · rw [huid, Function.update_self, Function.update_of_ne (hne huid).symm]
    · rw [Function.update_of_ne fun heq => huid heq.symm]
  cases h with
  | joined => rfl
  | saved hcode hanswer hname =>
    apply hput
    rintro huid rfl
    exact hsaves ⟨hcode, huid, hname, hanswer⟩
  | approved => rfl
  | dropped hcode hanswer hname =>
    apply hput
    rintro huid rfl
    exact hdrops ⟨⟨hcode, huid, hname⟩, hanswer⟩
  | nothing => rfl

end Step

theorem forall₂_concat {α β : Type} {R : α → β → Prop} {as : List α} {a : α} {bs : List β}
    (h : List.Forall₂ R (as ++ [a]) bs) :
    ∃ bs' b, bs = bs' ++ [b] ∧ List.Forall₂ R as bs' ∧ R a b := by
  rcases List.eq_nil_or_concat bs with rfl | ⟨bs', b, rfl⟩
  · have hlength := h.length_eq
    simp at hlength
  · rw [List.concat_eq_append] at h
    have hlength : as.length = bs'.length := by simpa using h.length_eq
    have hfront := List.forall₂_take_append _ _ _ h
    have hback := List.forall₂_drop_append _ _ _ h
    rw [← hlength, List.take_left] at hfront
    rw [← hlength, List.drop_left] at hback
    cases hback with
    | cons hab _ => exact ⟨bs', b, List.concat_eq_append, hfront, hab⟩

/-- The client's file `name` was saved with `content`, and neither saved nor dropped since. -/
def LastSaved (env : Env) (crypto : Crypto) (uid : Uid) (name : Str) (content : Bytes) :
    List Step → Prop :=
  History.Since (fun s => s.Saves env crypto uid name ∧ s.Carries crypto content)
    fun s => s.Saves env crypto uid name ∨ s.Drops env crypto uid name

/-- A file of the store is the last upload that was saved, unless it was dropped since. -/
theorem file_of_told {hist : List Step} {events : List Event}
    (h : List.Forall₂ (Step.Tells env crypto) hist events) (content : Bytes) :
    (events.foldl Store.apply .empty).file uid name = some content ↔
      LastSaved env crypto uid name content hist := by
  induction hist using List.reverseRecOn generalizing events with
  | nil =>
    cases h
    exact iff_of_false (fun hfile => by cases hfile) History.not_since_nil
  | append_singleton hist s ih =>
    obtain ⟨earlier, event, rfl, hearlier, htells⟩ := forall₂_concat h
    rw [List.foldl_concat, LastSaved, History.since_concat, ← LastSaved]
    by_cases hsaves : s.Saves env crypto uid name
    · rw [htells.file_saves hsaves content]
      simp [hsaves]
    · by_cases hdrops : s.Drops env crypto uid name
      · rw [htells.file_drops hdrops]
        simp [hsaves, hdrops]
      · rw [htells.file_other hsaves hdrops, ih hearlier]
        simp [hsaves, hdrops]

/-- **What is on the disk is the last upload that was saved**, unless it was dropped since:
in any history of requests of any clients, with plain names. -/
theorem file_is_last_upload (henv : env.Reliable)
    (hdisk : ∀ loc, env.BacksUp loc → disk.fileAt loc = none)
    (hplain : ∀ j ∈ requests, PlainNames j.1 j.2)
    (huser : (handleAll env crypto (.init disk) requests).Registered uid user)
    (hname : Plain name) (content : Bytes) :
    (handleAll env crypto (.init disk) requests).disk.fileAt (fileLocation env user name) =
        some content ↔
      LastSaved env crypto uid name content (script env crypto (.init disk) requests) := by
  obtain ⟨events, htold, hshows⟩ := told_events henv hdisk hplain
  rw [hshows.file uid user name huser hname]
  exact file_of_told htold content

theorem confirmedUpload_is_last :
    LastSaved (.calm Uid.ofNat) toyCrypto (Uid.ofNat 1) ['f'] [0x76, 0x31]
      (script (.calm Uid.ofNat) toyCrypto (.init .bare) confirmedUpload) := by
  obtain ⟨huser, hfile⟩ :
      (Uid.ofNat 1, ['u', '\x00']) ∈ (handleAll (.calm Uid.ofNat) toyCrypto (.init .bare)
        confirmedUpload).names ∧
      (handleAll (.calm Uid.ofNat) toyCrypto (.init .bare) confirmedUpload).disk.fileAt
        (fileLocation (.calm Uid.ofNat) ['u', '\x00'] ['f']) = some [0x76, 0x31] := by
    rw [handleAll_confirmedUpload]
    decide +kernel
  exact (file_is_last_upload (Env.calm_reliable _) (fun loc _ => fileAt_bare loc)
    confirmedUpload_plainNames huser (by decide) [0x76, 0x31]).mp hfile

end FileTransfer.Server
