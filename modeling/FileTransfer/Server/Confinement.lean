import FileTransfer.Server.Saving
import FileTransfer.Server.Touch

/-!
# Where uploads and deletions land

Both names in a path come from clients, and nothing between the socket and
`open` looks at them. So a request stays in its client's directory exactly when
the components of the two names do: each name has to amount to one level down
from where it is joined. Paths are those of `PurePosixPath`, on a file tree that
tells upper from lower case and accepts names of any length.
-/

namespace FileTransfer.Server

open FileTransfer.Effect
open FileTransfer.PurePath

namespace Step

variable (env : Env) (crypto : Crypto) (s : Step)

/-- `loc` lies directly in the directory of the step's client, and that directory
directly in the backup path. -/
def OwnFile (loc : Location) : Prop :=
  ∃ user dir file, s.before.Registered s.header.uid user ∧
    (userDir env user).resolve = env.backupPath.path.resolve ++ [dir] ∧
    loc = env.backupPath.path.resolve ++ [dir, file]

/-- Whatever the step opens for writing or removes is the client's own file, and
so is every file that is different afterwards. -/
structure Confined : Prop where
  paths : ∀ loc ∈ s.touches env crypto, s.OwnFile env loc
  files : ∀ loc, (s.after env crypto).disk.fileAt loc ≠ s.before.disk.fileAt loc →
    s.OwnFile env loc

/-- If the request gets as far as opening or removing a file, the components of the
user name without its last character amount to one level down from the backup path,
and those of the file name to one level down from there. -/
def StaysInside : Prop :=
  ∀ user name loc, s.before.Registered s.header.uid user → s.fileName = some name →
    s.Opens env crypto loc ∨ s.Removes env loc →
    OneDown env.backupPath.path.resolve user.dropLast ∧
      OneDown (userDir env user).resolve name

variable {env crypto s}

theorem confined_of_staysInside (h : s.StaysInside env crypto) : s.Confined env crypto := by
  have hown : ∀ loc ∈ s.touches env crypto, s.OwnFile env loc := by
    intro loc htouches
    obtain ⟨user, name, huser, hname, hloc⟩ := mem_touches htouches
    obtain ⟨huserDown, hnameDown⟩ := h user name loc huser hname (mem_touches_iff.mp htouches)
    obtain ⟨dir, hdir⟩ := (descends_iff _ _).mpr huserDown
    obtain ⟨file, hfile⟩ := (descends_iff _ _).mpr hnameDown
    refine ⟨user, dir, file, huser, hdir, ?_⟩
    have hdir' : (userDir env user).resolve = env.backupPath.path.resolve ++ [dir] := hdir
    rw [hloc, hfile, hdir', List.append_assoc]
    rfl
  refine ⟨hown, fun loc hchanged => hown loc ?_⟩
  by_contra hnot
  exact hchanged (fileAt_after hnot)

theorem staysInside_of_confined (h : s.Confined env crypto) : s.StaysInside env crypto := by
  intro user name loc huser hname hreach
  have htouches := mem_touches_iff.mpr hreach
  obtain ⟨user', dir, file, huser', hdir, hfile⟩ := h.paths loc htouches
  obtain rfl := huser.unique huser'
  obtain ⟨user', name', huser', hname', hloc⟩ := mem_touches htouches
  obtain rfl := huser.unique huser'
  obtain rfl : name = name' := Option.some.inj (hname.symm.trans hname')
  refine ⟨(descends_iff _ _).mp ⟨dir, hdir⟩, (descends_iff _ _).mp ⟨file, ?_⟩⟩
  rw [← hloc, hfile, hdir, List.append_assoc]
  rfl

/-- **Exactly the names decide where a request lands**, in whatever world the
server meets it. -/
theorem confined_iff (s : Step) : s.Confined env crypto ↔ s.StaysInside env crypto :=
  ⟨staysInside_of_confined, confined_of_staysInside⟩

end Step

/-! ## Runs with plain names -/

section Plain

variable {env : Env} {crypto : Crypto} {disk : Disk} {hist : List Step} {w : World}

/-- The step brings in plain names only. -/
structure Step.Plainly (s : Step) : Prop where
  user : ∀ name, s.header.code = Constants.register → asciiDecode s.payload = some name →
    Plain name.dropLast
  file : ∀ name, s.fileName = some name → Plain name

theorem plain_users (hrun : Run env crypto Step.Plainly (.init disk) hist w) {uid : Uid}
    {user : Str} (huser : w.Registered uid user) : Plain user.dropLast := by
  refine hrun.invariant
    (I := fun w => ∀ uid user, w.Registered uid user → Plain user.dropLast) ?_ ?_ uid user huser
  · intro uid user huser
    cases huser
  · intro s hs hbefore uid user huser
    rcases Step.registered_before huser with huser | ⟨hadmits, -⟩
    · exact hbefore uid user huser
    · exact hs.user user hadmits.registers.code hadmits.registers.name

/-- **Plain names keep every client in its own directory.** -/
theorem confined_of_plain_names
    (hrun : Run env crypto Step.Plainly (.init disk) hist w) :
    ∀ s ∈ hist, s.Confined env crypto := by
  intro s hs
  obtain ⟨hplain, pre, hbefore⟩ := hrun.of_mem hs
  refine Step.confined_of_staysInside fun user name loc huser hname _ => ⟨?_, ?_⟩
  · exact oneDown_of_plain _ (plain_users hbefore huser)
  · exact oneDown_of_plain _ (hplain.file name hname)

end Plain

/-! ## A file name that climbs out -/

/-- A client `u`, registered and with a key, uploads `../../x`. -/
def climbingUpload : Step :=
  ⟨(uploadRequest (Uid.ofNat 1) [0x2e, 0x2e, 0x2f, 0x2e, 0x2e, 0x2f, 0x78]).1,
    (uploadRequest (Uid.ofNat 1) [0x2e, 0x2e, 0x2f, 0x2e, 0x2e, 0x2f, 0x78]).2,
    handleAll (.calm Uid.ofNat) toyCrypto (.init .bare)
      [request (Uid.ofNat 0) 825 [0x75, 0x00], keyRequest (Uid.ofNat 1)]⟩

/-- **It writes `/x`**, although the backup path is `/b`. -/
theorem climbingUpload_escapes :
    (∃ hist, Run (.calm Uid.ofNat) toyCrypto (fun _ => True) (.init .bare) hist
      climbingUpload.before) ∧
    climbingUpload.header.code = 828 ∧
    [['x']] ∈ climbingUpload.touches (.calm Uid.ofNat) toyCrypto ∧
    ¬ climbingUpload.Confined (.calm Uid.ofNat) toyCrypto := by
  have hrequest : reqSelect (.calm Uid.ofNat) toyCrypto climbingUpload.header
      climbingUpload.payload = _ :=
    Saving.reqSelect_uploadRequest (.calm Uid.ofNat) toyCrypto (Uid.ofNat 1)
      (show utf8Encode ['.', '.', '/', '.', '.', '/', 'x'] = _ by decide) (by decide) (by decide)
  have htouches : [['x']] ∈ climbingUpload.touches (.calm Uid.ofNat) toyCrypto := by
    rw [Step.touches, hrequest]
    decide +kernel
  refine ⟨?_, rfl, htouches, fun h => ?_⟩
  · dsimp only [climbingUpload]
    exact ⟨_, run_script _ _ fun _ _ => trivial⟩
  · obtain ⟨user, dir, file, -, -, hloc⟩ := h.paths _ htouches
    cases hloc

end FileTransfer.Server
