import FileTransfer.Lib.PosixPath

/-!
# A file tree and its system calls

A `Disk` maps locations to directories and files. Every node hangs below a
directory, and that is part of the type, so each call shows once that it keeps
the tree a tree. There are no links: `..` leaves a directory the way the names
came in.
-/

namespace FileTransfer

inductive Node where
  | dir
  | file (content : Bytes)
deriving DecidableEq

/-- Why a call on a path failed: a NUL character inside it (refused before the
system is asked), or an error of the system. -/
inductive PathError where
  | embeddedNul
  | os
deriving DecidableEq

structure Disk where
  node : Location → Option Node
  root_dir : node [] = some .dir
  parent_dir : ∀ loc c, (node (loc ++ [c])).isSome → node loc = some .dir

namespace Disk

open PurePath

def IsDir (d : Disk) (loc : Location) : Prop := d.node loc = some .dir

instance (d : Disk) (loc : Location) : Decidable (d.IsDir loc) :=
  inferInstanceAs (Decidable (_ = _))

/-- The content of the file at `loc`, if there is a file. -/
def fileAt (d : Disk) (loc : Location) : Option Bytes :=
  match d.node loc with
  | some (.file content) => some content
  | _ => none

/-- The disk with nothing but its root. -/
def bare : Disk where
  node loc := if loc = [] then some .dir else none
  root_dir := rfl
  parent_dir := by
    intro loc c h
    simp at h

theorem IsDir.dropLast {d : Disk} {loc : Location} (h : d.IsDir loc) :
    d.IsDir loc.dropLast := by
  rcases List.eq_nil_or_concat loc with rfl | ⟨l, c, rfl⟩
  · exact d.root_dir
  · rw [List.concat_eq_append] at h ⊢
    rw [List.dropLast_concat]
    exact d.parent_dir l c (by rw [show d.node (l ++ [c]) = some .dir from h]; rfl)

/-- Replace what is at `loc`. What appears there appears below a directory, and
a directory is not replaced by anything else, since nodes may hang below it. -/
def put (d : Disk) (loc : Location) (n : Option Node) (hroot : loc ≠ [])
    (hparent : d.IsDir loc.dropLast) (hleaf : d.IsDir loc → n = some .dir) : Disk where
  node := Function.update d.node loc n
  root_dir := by rw [Function.update_of_ne hroot.symm]; exact d.root_dir
  parent_dir := by
    intro l c h
    by_cases hlc : l ++ [c] = loc
    · have hl : l ≠ loc := by
        intro hl
        rw [← hlc] at hl
        simpa using congrArg List.length hl
      rw [Function.update_of_ne hl]
      rw [← hlc, List.dropLast_concat] at hparent
      exact hparent
    · rw [Function.update_of_ne hlc] at h
      have hdir := d.parent_dir l c h
      by_cases hl : l = loc
      · subst hl
        rw [Function.update_self]
        exact hleaf hdir
      · rw [Function.update_of_ne hl]
        exact hdir

/-! ## Finding a path -/

/-- Follow the components of a path; every one is looked up in a directory. -/
def walk (d : Disk) : Location → List Str → Option Location
  | loc, [] => some loc
  | loc, c :: rest =>
    if d.IsDir loc then d.walk (if c = dotdot then loc.dropLast else loc ++ [c]) rest
    else none

/-- The location a call on `p` acts on. -/
def locate (d : Disk) (p : PurePath) : Except PathError Location :=
  if p.parts.any ('\x00' ∈ ·) then .error .embeddedNul
  else
    match d.walk [] p.parts with
    | none => .error .os
    | some loc => .ok loc

/-- On a tree without links the walk ends where the path says it does. -/
theorem walk_eq_climb {d : Disk} {loc loc' : Location} {cs : List Str}
    (h : d.walk loc cs = some loc') : loc' = climb loc cs := by
  induction cs generalizing loc with
  | nil => cases h; rfl
  | cons c rest ih =>
    simp only [walk] at h
    split at h
    · exact ih h
    · cases h

theorem locate_eq_resolve {d : Disk} {p : PurePath} {loc : Location}
    (h : d.locate p = .ok loc) : loc = p.resolve := by
  simp only [locate] at h
  split at h
  · cases h
  · split at h
    · cases h
    · next hw => cases h; exact walk_eq_climb hw

/-- A walk through directories takes the next name too. -/
theorem walk_concat {d : Disk} {loc dir : Location} {cs : List Str} {c : Str}
    (h : d.walk loc cs = some dir) (hdir : d.IsDir dir) (hc : c ≠ dotdot) :
    d.walk loc (cs ++ [c]) = some (dir ++ [c]) := by
  induction cs generalizing loc with
  | nil =>
    cases h
    simp [walk, hdir, hc]
  | cons e rest ih =>
    simp only [walk, List.cons_append] at h ⊢
    split at h
    · next hd => rw [if_pos hd]; exact ih h
    · cases h

/-! ## The calls -/

/-- `open(p, 'wb')`, `write(content)`, `close()`: create the file or replace its
content. -/
def write (d : Disk) (p : PurePath) (content : Bytes) : Except PathError Disk :=
  match d.locate p with
  | .error e => .error e
  | .ok loc =>
    if h : loc ≠ [] ∧ d.IsDir loc.dropLast ∧ ¬ d.IsDir loc then
      .ok (d.put loc (some (.file content)) h.1 h.2.1 fun hd => absurd hd h.2.2)
    else .error .os

/-- `open(p, 'rb').read()`. -/
def read (d : Disk) (p : PurePath) : Except PathError Bytes :=
  match d.locate p with
  | .error e => .error e
  | .ok loc =>
    match d.fileAt loc with
    | some content => .ok content
    | none => .error .os

/-- `os.remove(p)`: files only. -/
def remove (d : Disk) (p : PurePath) : Except PathError Disk :=
  match d.locate p with
  | .error e => .error e
  | .ok loc =>
    if h : loc ≠ [] ∧ d.IsDir loc.dropLast ∧ ¬ d.IsDir loc ∧ (d.fileAt loc).isSome then
      .ok (d.put loc none h.1 h.2.1 fun hd => absurd hd h.2.2.1)
    else .error .os

/-- Make the directories along `cs`, from the directory `loc` on. -/
def mkdirsFrom (d : Disk) : Location → List Str → Except PathError Unit × Disk
  | _, [] => (.ok (), d)
  | loc, c :: rest =>
    if c = dotdot then d.mkdirsFrom loc.dropLast rest
    else
      match hn : d.node (loc ++ [c]) with
      | some .dir => d.mkdirsFrom (loc ++ [c]) rest
      | some (.file _) => (.error .os, d)
      | none =>
        if h : d.IsDir loc then
          (d.put (loc ++ [c]) (some .dir) (by simp) (by simpa using h) fun _ => rfl).mkdirsFrom
            (loc ++ [c]) rest
        else (.error .os, d)

/-- `Path.mkdir(parents=True, exist_ok=True)`: the parents made before a failure
stay. -/
def mkdirs (d : Disk) (p : PurePath) : Except PathError Unit × Disk :=
  if p.parts.any ('\x00' ∈ ·) then (.error .embeddedNul, d)
  else d.mkdirsFrom [] p.parts

/-! ## What the calls do -/

theorem write_ok {d d' : Disk} {p : PurePath} {content : Bytes}
    (h : d.write p content = .ok d') :
    d.locate p = .ok p.resolve ∧
      d'.node = Function.update d.node p.resolve (some (.file content)) := by
  simp only [write] at h
  split at h
  · cases h
  · next loc hloc =>
    obtain rfl := locate_eq_resolve hloc
    split at h
    · cases h; exact ⟨hloc, rfl⟩
    · cases h

theorem remove_ok {d d' : Disk} {p : PurePath} (h : d.remove p = .ok d') :
    d.locate p = .ok p.resolve ∧ d'.node = Function.update d.node p.resolve none := by
  simp only [remove] at h
  split at h
  · cases h
  · next loc hloc =>
    obtain rfl := locate_eq_resolve hloc
    split at h
    · cases h; exact ⟨hloc, rfl⟩
    · cases h

/-- A path without NUL whose walk succeeds is located. -/
theorem locate_of_walk {d : Disk} {p : PurePath} {loc : Location}
    (hnul : ∀ c ∈ p.parts, '\x00' ∉ c) (h : d.walk [] p.parts = some loc) :
    d.locate p = .ok loc := by
  have hany : p.parts.any (fun c => decide ('\x00' ∈ c)) = false := by
    simpa using hnul
  simp [locate, hany, h]

theorem fileAt_of_node_update {d d' : Disk} {loc : Location} {n : Option Node}
    (h : d'.node = Function.update d.node loc n) {loc' : Location} (hne : loc' ≠ loc) :
    d'.fileAt loc' = d.fileAt loc' := by
  simp [fileAt, h, Function.update_of_ne hne]

/-- A walk succeeds on every tree that has at least the same directories. -/
theorem walk_mono {d d' : Disk} (hdir : ∀ l, d.IsDir l → d'.IsDir l) {loc loc' : Location}
    {cs : List Str} (h : d.walk loc cs = some loc') : d'.walk loc cs = some loc' := by
  induction cs generalizing loc with
  | nil => exact h
  | cons c rest ih =>
    simp only [walk] at h ⊢
    split at h
    · next hd => rw [if_pos (hdir loc hd)]; exact ih h
    · cases h

/-- **What was written is read back.** -/
theorem read_of_write {d d' : Disk} {p : PurePath} {content : Bytes}
    (h : d.write p content = .ok d') : d'.read p = .ok content := by
  obtain ⟨hloc, hnode⟩ := write_ok h
  have hfree : ¬ d.IsDir p.resolve := by
    intro hdir
    simp only [write, hloc] at h
    split at h
    · next hwhere => exact hwhere.2.2 hdir
    · cases h
  have hkeep : ∀ l, d.IsDir l → d'.IsDir l := by
    intro l hl
    have hne : l ≠ p.resolve := fun heq => hfree (heq ▸ hl)
    rw [IsDir, hnode, Function.update_of_ne hne]
    exact hl
  have hloc' : d'.locate p = .ok p.resolve := by
    simp only [locate] at hloc ⊢
    split at hloc
    · cases hloc
    · next hnul =>
      rw [if_neg hnul]
      split at hloc
      · cases hloc
      · next l hw =>
        cases hloc
        rw [walk_mono hkeep hw]
  simp [read, hloc', fileAt, hnode]

/-- Making directories leaves every file as it is. -/
theorem mkdirsFrom_fileAt (d : Disk) (loc : Location) (cs : List Str) (l : Location) :
    (d.mkdirsFrom loc cs).2.fileAt l = d.fileAt l := by
  induction cs generalizing d loc with
  | nil => rfl
  | cons c rest ih =>
    simp only [mkdirsFrom]
    split
    · exact ih d _
    · split
      · exact ih d _
      · rfl
      · next hn =>
        split
        · rw [ih]
          by_cases hl : l = loc ++ [c]
          · subst hl
            simp [fileAt, put, hn]
          · simp [fileAt, put, Function.update_of_ne hl]
        · rfl

theorem mkdirs_fileAt (d : Disk) (p : PurePath) (l : Location) :
    (d.mkdirs p).2.fileAt l = d.fileAt l := by
  simp only [mkdirs]
  split
  · rfl
  · exact mkdirsFrom_fileAt d [] p.parts l

theorem isDir_put {d : Disk} {loc l : Location} {hroot hparent hleaf} (h : d.IsDir l) :
    (d.put loc (some .dir) hroot hparent hleaf).IsDir l := by
  by_cases hl : l = loc
  · subst hl
    simp [IsDir, put]
  · simpa [IsDir, put, Function.update_of_ne hl] using h

/-- Directories stay directories while others are made. -/
theorem isDir_mkdirsFrom {d : Disk} {loc l : Location} {cs : List Str} (h : d.IsDir l) :
    (d.mkdirsFrom loc cs).2.IsDir l := by
  induction cs generalizing d loc with
  | nil => exact h
  | cons c rest ih =>
    simp only [mkdirsFrom]
    split
    · exact ih h
    · split
      · exact ih h
      · exact h
      · split
        · exact ih (isDir_put h)
        · exact h

/-- **Made directories are there**: after success the whole path can be walked
and ends in a directory. -/
theorem walk_of_mkdirsFrom {d d' : Disk} {loc : Location} {cs : List Str}
    (hloc : d.IsDir loc) (h : d.mkdirsFrom loc cs = (.ok (), d')) :
    d'.walk loc cs = some (climb loc cs) ∧ d'.IsDir (climb loc cs) := by
  induction cs generalizing d loc with
  | nil => cases h; exact ⟨rfl, hloc⟩
  | cons c rest ih =>
    have hloc' : d'.IsDir loc := by
      have hkept : (d.mkdirsFrom loc (c :: rest)).2.IsDir loc := isDir_mkdirsFrom hloc
      rwa [h] at hkept
    simp only [mkdirsFrom] at h
    simp only [walk, if_pos hloc', climb]
    split at h
    · next hc =>
      rw [if_pos hc]
      exact ih hloc.dropLast h
    · next hc =>
      rw [if_neg hc]
      split at h
      · next hn => exact ih hn h
      · cases h
      · exact ih (by simp [IsDir, put]) h

/-- After `mkdir` a plain name below the directory is found. -/
theorem locate_join_of_mkdirs {d d' : Disk} {p : PurePath} {c : Str}
    (h : d.mkdirs p = (.ok (), d')) (hc : Plain c) :
    d'.IsDir p.resolve ∧ d'.locate (p.join c) = .ok (p.resolve ++ [c]) := by
  simp only [mkdirs] at h
  split at h
  · cases h
  · next hnul =>
    obtain ⟨hw, hdir⟩ := walk_of_mkdirsFrom d.root_dir h
    have hnul' : ∀ e ∈ (p.join c).parts, '\x00' ∉ e := by
      rw [join_plain p hc]
      simpa [or_imp, forall_and, hc.noNul] using hnul
    refine ⟨hdir, locate_of_walk hnul' ?_⟩
    rw [join_plain p hc]
    exact walk_concat hw hdir hc.notDotdot

/-- After `mkdir` a plain name that is not a directory can be written. -/
theorem write_of_mkdirs {d d' : Disk} {p : PurePath} {c : Str}
    (h : d.mkdirs p = (.ok (), d')) (hc : Plain c) (hfree : ¬ d'.IsDir (p.join c).resolve)
    (content : Bytes) : ∃ d'', d'.write (p.join c) content = .ok d'' := by
  obtain ⟨hdir, hloc⟩ := locate_join_of_mkdirs h hc
  rw [resolve_join_plain p hc] at hfree
  have hwhere : p.resolve ++ [c] ≠ [] ∧ d'.IsDir (p.resolve ++ [c]).dropLast ∧
      ¬ d'.IsDir (p.resolve ++ [c]) := ⟨by simp, by simpa using hdir, hfree⟩
  exact ⟨_, by simp only [write, hloc]; rw [dif_pos hwhere]⟩

/-! ## What is there is found -/

/-- Above a node there are directories, so names alone lead to it. -/
theorem walk_of_node {d : Disk} {cs : List Str} (hcs : ∀ c ∈ cs, c ≠ dotdot)
    (h : (d.node cs).isSome) : d.walk [] cs = some cs := by
  induction cs using List.reverseRecOn with
  | nil => rfl
  | append_singleton cs c ih =>
    have hdir : d.IsDir cs := d.parent_dir cs c h
    have hup : d.walk [] cs = some cs := by
      apply ih
      · intro c' hc'
        exact hcs c' (List.mem_append_left _ hc')
      · rw [show d.node cs = some .dir from hdir]
        rfl
    exact walk_concat hup hdir (hcs c (by simp))

/-- A path of plain names leads where it says. -/
theorem resolve_of_plain {p : PurePath} (hplain : ∀ c ∈ p.parts, Plain c) :
    p.resolve = p.parts := by
  rw [resolve, climb_plain fun c hc => (hplain c hc).notDotdot, List.nil_append]

theorem not_isDir_of_fileAt {d : Disk} {loc : Location} (h : (d.fileAt loc).isSome) :
    ¬ d.IsDir loc := by
  intro hdir
  rw [fileAt, show d.node loc = some .dir from hdir] at h
  cases h

/-- **A file that is there can be removed**, by a path of plain names. -/
theorem remove_of_fileAt {d : Disk} {p : PurePath} (hplain : ∀ c ∈ p.parts, Plain c)
    (h : (d.fileAt p.resolve).isSome) : ∃ d', d.remove p = .ok d' := by
  rw [resolve_of_plain hplain] at h
  have hfree : ¬ d.IsDir p.parts := not_isDir_of_fileAt h
  have hsome : (d.node p.parts).isSome := by
    cases hnode : d.node p.parts with
    | none =>
      rw [fileAt, hnode] at h
      cases h
    | some n => rfl
  have hloc : d.locate p = .ok p.parts := by
    apply locate_of_walk
    · exact fun c hc => (hplain c hc).noNul
    · exact walk_of_node (fun c hc => (hplain c hc).notDotdot) hsome
  have hroot : p.parts ≠ [] := by
    intro hnil
    rw [hnil] at hfree
    exact hfree d.root_dir
  have hparent : d.IsDir p.parts.dropLast := by
    apply d.parent_dir _ (p.parts.getLast hroot)
    rw [List.dropLast_append_getLast]
    exact hsome
  have hwhere : p.parts ≠ [] ∧ d.IsDir p.parts.dropLast ∧ ¬ d.IsDir p.parts ∧
      (d.fileAt p.parts).isSome := ⟨hroot, hparent, hfree, h⟩
  exact ⟨_, by simp only [remove, hloc]; rw [dif_pos hwhere]⟩

end Disk

end FileTransfer
