import FileTransfer.Lib.Lines
import FileTransfer.Client.RequestHandler

/-!
# Reading `transfer.info`

`getTransferInfo` and its three setters, over the members that they set. Text streams
preserve bytes, and no byte above 127 is a blank. `Says` is the grammar of the file,
stated without the parser.
-/

namespace FileTransfer.Client

open FileTransfer.Lines

/-- The members of `TransferInfo` that come out of the file. -/
structure TransferMembers where
  host : Bytes
  port : Bytes
  userName : Bytes
  path : Bytes
deriving DecidableEq

/-- `std::getline` as a condition: false where nothing is left to read. -/
def readLine (s : Bytes) : Option (Bytes × Bytes) :=
  if s.isEmpty then none else some (getline s)

namespace TransferMembers

/-- `setHostPort`. -/
def setHostPort (ti : TransferMembers) (line : Bytes) : Bool × TransferMembers :=
  match line.findIdx? (· == 0x3a) with
  | none => (false, ti)
  | some token =>
    let portLength := line.length - token
    (true, { ti with
      host := line.take token
      port := (line.drop (token + 1)).take portLength })

/-- `isValidUserName`. -/
def isValidUserName (ti : TransferMembers) (username : Bytes) : Bool × TransferMembers :=
  if username.length + 1 > 100 ∨ username.isEmpty then (false, ti)
  else (true, { ti with userName := username })

/-- `while (count > 0 && isspace(path[count - 1])) count--`. -/
def trimmed (path : Bytes) : Nat → Nat
  | 0 => 0
  | count + 1 => if path[count]?.any isSpace then trimmed path count else count + 1

/-- `isValidPath`. The path is trimmed after it was found not to be empty. -/
def isValidPath (ti : TransferMembers) (path : Bytes) : Bool × TransferMembers :=
  if path.isEmpty then (false, ti)
  else
    let count := trimmed path path.length
    (true, { ti with path := if count < path.length then path.take count else path })

/-- `getTransferInfo`, on what `transfer.info` holds. -/
def getTransferInfo (ti : TransferMembers) (file : Option Bytes) : Bool × TransferMembers :=
  match file with
  | none => (false, ti)
  | some content =>
    match readLine content with
    | none => (false, ti)
    | some (networkDetails, rest) =>
      match ti.setHostPort networkDetails with
      | (false, ti) => (false, ti)
      | (true, ti) =>
        match readLine rest with
        | none => (false, ti)
        | some (userName, rest) =>
          match ti.isValidUserName userName with
          | (false, ti) => (false, ti)
          | (true, ti) =>
            match readLine rest with
            | none => (false, ti)
            | some (path, _) => ti.isValidPath path

/-- The constructor: no object without a file that is accepted. -/
def construct (file : Option Bytes) : Except Fault TransferMembers :=
  match getTransferInfo ⟨[], [], [], []⟩ file with
  | (true, ti) => .ok ti
  | (false, _) => .error .exception

/-! ## The setters -/

variable {ti ti' : TransferMembers}

theorem findIdx?_colon {l : Bytes} (h : 0x3a ∉ l) : l.findIdx? (· == 0x3a) = none := by
  rw [List.findIdx?_eq_none_iff]
  intro b hb
  have hne : b ≠ 0x3a := fun heq => h (heq ▸ hb)
  simpa using hne

/-- The host is the text before the first `:`, the port all the text behind it. -/
theorem setHostPort_eq_true {line : Bytes} : ti.setHostPort line = (true, ti') ↔
    0x3a ∈ line ∧
      { ti with host := (nextLine 0x3a line).1, port := (nextLine 0x3a line).2 } = ti' := by
  have hfree := @notMem_nextLine _ _ (0x3a : UInt8) line
  rcases @eq_nextLine _ _ (0x3a : UInt8) line with hlast | hmore
  · -- no separator
    rw [← hlast] at hfree
    simp only [setHostPort, findIdx?_colon hfree]
    constructor
    · intro h
      cases h
    · intro h
      exact absurd h.1 hfree
  · generalize nextLine 0x3a line = parts at hfree hmore ⊢
    obtain ⟨host, port⟩ := parts
    have hmem : 0x3a ∈ line := by
      rw [hmore]
      simp
    have hfound : line.findIdx? (· == 0x3a) = some host.length := by
      rw [hmore, List.findIdx?_append, findIdx?_colon hfree]
      simp [List.findIdx?_cons]
    have hhost : line.take host.length = host := by
      rw [hmore]
      exact List.take_left
    have hport : (line.drop (host.length + 1)).take (line.length - host.length) = port := by
      have hdrop : line.drop (host.length + 1) = port := by
        rw [hmore, ← List.drop_drop, List.drop_left]
        rfl
      rw [hdrop, hmore, List.length_append, List.length_cons]
      apply List.take_of_length_le
      show port.length ≤ host.length + (port.length + 1) - host.length
      omega
    simp only [setHostPort, hfound, hhost, hport]
    constructor
    · intro h
      exact ⟨hmem, congrArg Prod.snd h⟩
    · intro h
      rw [h.2]

/-- A setter that checks first and assigns then. -/
theorem checked_eq_true {bad : Prop} [Decidable bad] {old new ti : TransferMembers} :
    (if bad then (false, old) else (true, new)) = (true, ti) ↔ ¬ bad ∧ new = ti := by
  split
  · next hbad => simp [hbad]
  · next hgood => simp [hgood]

theorem isValidUserName_eq_true {username : Bytes} :
    ti.isValidUserName username = (true, ti') ↔
      (1 ≤ username.length ∧ username.length ≤ 99) ∧ { ti with userName := username } = ti' := by
  have hbounds : ¬ (username.length + 1 > 100 ∨ username.isEmpty) ↔
      1 ≤ username.length ∧ username.length ≤ 99 := by
    rw [List.isEmpty_iff, ← List.length_eq_zero_iff]
    omega
  rw [isValidUserName, checked_eq_true, hbounds]

/-- The loop stops behind the last character that is no blank. -/
theorem take_trimmed (path : Bytes) {count : Nat} (h : count ≤ path.length) :
    path.take (trimmed path count) = (path.take count).rdropWhile isSpace := by
  induction count with
  | zero => simp [trimmed]
  | succ count ih =>
    have hget : path[count]? = some path[count] := List.getElem?_eq_getElem (by omega)
    rw [List.take_add_one, hget, trimmed, hget, Option.any_some, Option.toList_some]
    split
    · next hblank => rw [List.rdropWhile_concat_pos _ _ _ hblank, ih (by omega)]
    · next hother =>
      rw [List.rdropWhile_concat_neg _ _ _ hother, List.take_add_one, hget, Option.toList_some]

theorem isValidPath_eq_true {path : Bytes} : ti.isValidPath path = (true, ti') ↔
    path ≠ [] ∧ { ti with path := path.rdropWhile isSpace } = ti' := by
  have hcut : (if trimmed path path.length < path.length
      then path.take (trimmed path path.length) else path) = path.rdropWhile isSpace := by
    have htake := take_trimmed path (Nat.le_refl path.length)
    rw [List.take_length] at htake
    split
    · exact htake
    · rw [← htake, List.take_of_length_le (by omega)]
  have hfull : ¬ path.isEmpty ↔ path ≠ [] := by rw [List.isEmpty_iff]
  simp only [isValidPath, hcut]
  rw [checked_eq_true, hfull]

/-! ## The file -/

/-- The file starts with these three lines. -/
def StartsWith (content first second third : Bytes) : Prop :=
  ∃ rest, lines 0x0a content = first :: second :: third :: rest

theorem StartsWith.unique {content l₁ l₂ l₃ l₁' l₂' l₃' : Bytes}
    (h : StartsWith content l₁ l₂ l₃) (h' : StartsWith content l₁' l₂' l₃') :
    l₁ = l₁' ∧ l₂ = l₂' ∧ l₃ = l₃' := by
  obtain ⟨rest, hlines⟩ := h
  obtain ⟨rest', hlines'⟩ := h'
  rw [hlines] at hlines'
  obtain ⟨hfirst, hlines'⟩ := List.cons.inj hlines'
  obtain ⟨hsecond, hlines'⟩ := List.cons.inj hlines'
  exact ⟨hfirst, hsecond, (List.cons.inj hlines').1⟩

/-- A line that is read is the first of the lines that are left. -/
theorem readLine_eq_some {s l rest : Bytes} :
    readLine s = some (l, rest) ↔ s ≠ [] ∧ getline s = (l, rest) := by
  rw [readLine]
  split
  · next hempty => simp [List.isEmpty_iff.mp hempty]
  · next hfull =>
    have hne : s ≠ [] := fun hnil => hfull (List.isEmpty_iff.mpr hnil)
    simp [hne]

/-- Three lines are read, and each is checked before the next one is. -/
theorem getTransferInfo_steps {content : Bytes} :
    ti.getTransferInfo (some content) = (true, ti') ↔
      ∃ first second third r₁ r₂ r₃ t₁ t₂, readLine content = some (first, r₁) ∧
        ti.setHostPort first = (true, t₁) ∧ readLine r₁ = some (second, r₂) ∧
        t₁.isValidUserName second = (true, t₂) ∧ readLine r₂ = some (third, r₃) ∧
        t₂.isValidPath third = (true, ti') := by
  constructor
  · intro h
    simp only [getTransferInfo] at h
    split at h
    · cases h
    next first r₁ hfirst =>
    split at h
    · cases h
    next t₁ hhost =>
    split at h
    · cases h
    next second r₂ hsecond =>
    split at h
    · cases h
    next t₂ hname =>
    split at h
    · cases h
    next third r₃ hthird =>
    exact ⟨_, _, _, _, _, _, _, _, hfirst, hhost, hsecond, hname, hthird, h⟩
  · intro h
    obtain ⟨_, _, _, _, _, _, _, _, hfirst, hhost, hsecond, hname, hthird, hpath⟩ := h
    simp only [getTransferInfo, hfirst, hhost, hsecond, hname, hthird, hpath]

/-- What the parser accepts, and what it makes of it. -/
theorem getTransferInfo_eq_true {content : Bytes} :
    ti.getTransferInfo (some content) = (true, ti') ↔
      ∃ first second third, StartsWith content first second third ∧ 0x3a ∈ first ∧
        (1 ≤ second.length ∧ second.length ≤ 99) ∧ third ≠ [] ∧
        ⟨(nextLine 0x3a first).1, (nextLine 0x3a first).2, second,
          third.rdropWhile isSpace⟩ = ti' := by
  rw [getTransferInfo_steps]
  simp only [readLine_eq_some, setHostPort_eq_true, isValidUserName_eq_true, isValidPath_eq_true]
  constructor
  · intro h
    obtain ⟨first, second, third, r₁, r₂, r₃, t₁, t₂, ⟨hne₁, hfirst⟩, ⟨hcolon, rfl⟩,
      ⟨hne₂, hsecond⟩, ⟨hname, rfl⟩, ⟨hne₃, hthird⟩, hpath, rfl⟩ := h
    refine ⟨first, second, third, ⟨lines 0x0a r₃, ?_⟩, hcolon, hname, hpath, rfl⟩
    have hlines : ∀ {s l r : Bytes}, s ≠ [] → getline s = (l, r) →
        lines 0x0a s = l :: lines 0x0a r := by
      intro s l r hne hline
      have hcons := @lines_of_ne_nil _ _ (0x0a : UInt8) s hne
      rw [show nextLine 0x0a s = (l, r) from hline] at hcons
      exact hcons
    rw [hlines hne₁ hfirst, hlines hne₂ hsecond, hlines hne₃ hthird]
  · intro h
    obtain ⟨first, second, third, ⟨rest, hlines⟩, hcolon, hname, hpath, rfl⟩ := h
    obtain ⟨hne₁, hfirst, hlines⟩ := lines_eq_cons.mp hlines
    obtain ⟨hne₂, hsecond, hlines⟩ := lines_eq_cons.mp hlines
    obtain ⟨hne₃, hthird, -⟩ := lines_eq_cons.mp hlines
    exact ⟨first, second, third, _, _, _, _, _, ⟨hne₁, Prod.ext hfirst rfl⟩, ⟨hcolon, rfl⟩,
      ⟨hne₂, Prod.ext hsecond rfl⟩, ⟨hname, rfl⟩, ⟨hne₃, Prod.ext hthird rfl⟩, hpath, rfl⟩

/-- The user name of an object that was constructed. -/
theorem construct_userName {file : Option Bytes} (h : construct file = .ok ti) :
    (1 ≤ ti.userName.length ∧ ti.userName.length ≤ 99) ∧ 0x0a ∉ ti.userName := by
  rw [construct] at h
  split at h
  swap
  · cases h
  next ti₀ hinfo =>
  cases h
  cases file with
  | none => cases hinfo
  | some content =>
    obtain ⟨first, second, third, ⟨rest, hlines⟩, -, hname, -, rfl⟩ :=
      getTransferInfo_eq_true.mp hinfo
    obtain ⟨-, -, hlines⟩ := lines_eq_cons.mp hlines
    obtain ⟨-, hsecond, -⟩ := lines_eq_cons.mp hlines
    exact ⟨hname, hsecond ▸ notMem_nextLine _⟩

/-! ## The grammar -/

/-- A host and a port with a `:` between them, a user name, and a path that is not blank. -/
def WellFormed (content : Bytes) : Prop :=
  ∃ first second third, StartsWith content first second third ∧ 0x3a ∈ first ∧
    (1 ≤ second.length ∧ second.length ≤ 99) ∧ ∃ b ∈ third, isSpace b = false

/-- The members are what the three lines say: the text on either side of the first `:`, the
second line, and the third without the blanks at its end. -/
def Says (content : Bytes) (ti : TransferMembers) : Prop :=
  ∃ blanks, StartsWith content (ti.host ++ 0x3a :: ti.port) ti.userName (ti.path ++ blanks) ∧
    0x3a ∉ ti.host ∧ (∀ b ∈ blanks, isSpace b = true) ∧
    ∃ b, ti.path.getLast? = some b ∧ isSpace b = false

/-- `getTransferInfo` accepts what is well formed and nothing else, and reads it as it is
meant. -/
structure ParsedExactly (content : Bytes) : Prop where
  accepts : ∀ start, (getTransferInfo start (some content)).1 = true ↔ WellFormed content
  reads : ∀ start ti, getTransferInfo start (some content) = (true, ti) → Says content ti

/-- All is there, but the path is nothing but blanks. -/
def BlankPath (content : Bytes) : Prop :=
  ∃ first second third, StartsWith content first second third ∧ 0x3a ∈ first ∧
    (1 ≤ second.length ∧ second.length ≤ 99) ∧ third ≠ [] ∧ ∀ b ∈ third, isSpace b = true

/-- Lines that are accepted and not blank where the path is say what is read from them. -/
theorem says_of_lines {content first second third : Bytes}
    (hstart : StartsWith content first second third) (hcolon : 0x3a ∈ first)
    (hblank : ∃ b ∈ third, isSpace b = false) :
    Says content ⟨(nextLine 0x3a first).1, (nextLine 0x3a first).2, second,
      third.rdropWhile isSpace⟩ := by
  have hfree := @notMem_nextLine _ _ (0x3a : UInt8) first
  have hhost : first = (nextLine 0x3a first).1 ++ 0x3a :: (nextLine 0x3a first).2 := by
    rcases @eq_nextLine _ _ (0x3a : UInt8) first with hlast | hmore
    · exact absurd (hlast ▸ hcolon) hfree
    · exact hmore
  have hpath : third.rdropWhile isSpace ≠ [] := by
    intro hnil
    obtain ⟨b, hb, hother⟩ := hblank
    have hall := List.rdropWhile_eq_nil_iff.mp hnil b hb
    rw [hother] at hall
    cases hall
  refine ⟨third.rtakeWhile isSpace, ?_, hfree, fun b hb => List.mem_rtakeWhile_imp hb,
    _, List.getLast?_eq_some_getLast hpath, ?_⟩
  · show StartsWith content ((nextLine 0x3a first).1 ++ 0x3a :: (nextLine 0x3a first).2) second
      (third.rdropWhile isSpace ++ third.rtakeWhile isSpace)
    rw [← hhost, List.rdropWhile_append_rtakeWhile]
    exact hstart
  · have hlast := List.rdropWhile_last_not isSpace third hpath
    simpa using hlast

/-- **`transfer.info` is parsed by its grammar**, except where the path is nothing but
blanks. -/
theorem parsedExactly_iff (content : Bytes) : ParsedExactly content ↔ ¬ BlankPath content := by
  constructor
  · intro h hblank
    -- it is accepted, and not well formed
    obtain ⟨first, second, third, hstart, hcolon, hname, hpath, hall⟩ := hblank
    have htrue := (@getTransferInfo_eq_true ⟨[], [], [], []⟩ _ content).mpr
      ⟨first, second, third, hstart, hcolon, hname, hpath, rfl⟩
    obtain ⟨_, _, _, hstart', -, -, b, hb, hother⟩ :=
      (h.accepts ⟨[], [], [], []⟩).mp (by rw [htrue])
    obtain ⟨-, -, rfl⟩ := hstart.unique hstart'
    rw [hall b hb] at hother
    cases hother
  · intro h
    have hother : ∀ {first second third : Bytes}, StartsWith content first second third →
        0x3a ∈ first → 1 ≤ second.length ∧ second.length ≤ 99 → third ≠ [] →
        ∃ b ∈ third, isSpace b = false := by
      intro first second third hstart hcolon hname hpath
      by_contra hall
      apply h
      refine ⟨first, second, third, hstart, hcolon, hname, hpath, fun b hb => ?_⟩
      cases hspace : isSpace b with
      | true => rfl
      | false => exact absurd ⟨b, hb, hspace⟩ hall
    constructor
    · intro start
      constructor
      · intro htrue
        obtain ⟨first, second, third, hstart, hcolon, hname, hpath, -⟩ :=
          getTransferInfo_eq_true.mp (Prod.ext htrue rfl)
        exact ⟨first, second, third, hstart, hcolon, hname, hother hstart hcolon hname hpath⟩
      · intro hgood
        obtain ⟨first, second, third, hstart, hcolon, hname, b, hb, -⟩ := hgood
        rw [(@getTransferInfo_eq_true start _ content).mpr
          ⟨first, second, third, hstart, hcolon, hname, List.ne_nil_of_mem hb, rfl⟩]
    · intro start ti htrue
      obtain ⟨first, second, third, hstart, hcolon, hname, hpath, rfl⟩ :=
        getTransferInfo_eq_true.mp htrue
      exact says_of_lines hstart hcolon (hother hstart hcolon hname hpath)

/-- `h:1`, `u` and a blank. -/
def blankPath : Bytes := [0x68, 0x3a, 0x31, 0x0a, 0x75, 0x0a, 0x20, 0x0a]

/-- It is accepted, with an empty path. -/
theorem blankPath_accepted :
    ¬ ParsedExactly blankPath ∧
      construct (some blankPath) = .ok ⟨[0x68], [0x31], [0x75], []⟩ := by
  constructor
  · intro h
    have htrue : getTransferInfo ⟨[], [], [], []⟩ (some blankPath) =
        (true, ⟨[0x68], [0x31], [0x75], []⟩) := by decide
    obtain ⟨_, -, -, -, b, hb, -⟩ := h.reads _ _ htrue
    cases hb
  · decide

end TransferMembers

end FileTransfer.Client
