import FileTransfer.Lib.Text

/-!
# POSIX paths

`PurePath` is what `pathlib.PurePosixPath` makes of a text: empty components
and `.` disappear, `..` stays. Paths are POSIX paths only: `/` is the one
separator, there are no drives, names that differ in case are different names,
and a name is one that the system accepts, whatever its length. What a path means
to the operating system is its `resolve`d location, the list of names from the
root, in which `..` has been taken back up.
-/

namespace FileTransfer

/-- The names from the root down to a node of the file tree. -/
abbrev Location := List Str

/-- A parsed path: the root (`""`, `"/"` or `"//"`) and the components. -/
structure PurePath where
  root : Str
  parts : List Str
deriving DecidableEq

namespace PurePath

/-- The component `..`. -/
def dotdot : Str := ['.', '.']

/-- `PurePosixPath(s)`. Exactly two leading slashes are a root of their own. -/
def parse (s : Str) : PurePath where
  root :=
    match s with
    | '/' :: '/' :: '/' :: _ => ['/']
    | '/' :: '/' :: _ => ['/', '/']
    | '/' :: _ => ['/']
    | _ => []
  parts := (s.splitOn '/').filter fun c => c ≠ [] ∧ c ≠ ['.']

/-- `p / s`: an absolute right operand replaces the left one. -/
def join (p : PurePath) (s : Str) : PurePath :=
  let q := parse s
  if q.root = [] then { p with parts := p.parts ++ q.parts } else q

/-- `str(p)`. -/
def str (p : PurePath) : Str :=
  if p.root = [] ∧ p.parts = [] then ['.'] else p.root ++ ['/'].intercalate p.parts

/-- Follow components from a location, `..` going up one level. -/
def climb : Location → List Str → Location
  | loc, [] => loc
  | loc, c :: rest => climb (if c = dotdot then loc.dropLast else loc ++ [c]) rest

/-- The location an absolute path denotes. -/
def resolve (p : PurePath) : Location := climb [] p.parts

/-- One ordinary path component: what a file or directory can be called. -/
structure Plain (s : Str) : Prop where
  nonempty : s ≠ []
  noSlash : '/' ∉ s
  noNul : '\x00' ∉ s
  notDot : s ≠ ['.']
  notDotdot : s ≠ dotdot

instance (s : Str) : Decidable (Plain s) :=
  decidable_of_iff
    (s ≠ [] ∧ '/' ∉ s ∧ '\x00' ∉ s ∧ s ≠ ['.'] ∧ s ≠ dotdot)
    ⟨fun ⟨a, b, c, d, e⟩ => ⟨a, b, c, d, e⟩, fun ⟨a, b, c, d, e⟩ => ⟨a, b, c, d, e⟩⟩

theorem climb_append (loc : Location) (cs ds : List Str) :
    climb loc (cs ++ ds) = climb (climb loc cs) ds := by
  induction cs generalizing loc with
  | nil => rfl
  | cons c cs ih => exact ih _

/-- A plain name parses to the one component it is. -/
theorem parse_plain {s : Str} (h : Plain s) : parse s = ⟨[], [s]⟩ := by
  have hparts : (s.splitOn '/').filter (fun c => c ≠ [] ∧ c ≠ ['.']) = [s] := by
    rw [List.splitOn_eq_singleton h.noSlash]
    simp [h.nonempty, h.notDot]
  have hroot : (parse s).root = [] := by
    obtain ⟨hne, hslash, -, -, -⟩ := h
    cases s with
    | nil => exact absurd rfl hne
    | cons c s =>
      have hc : c ≠ '/' := fun hc => hslash (by simp [hc])
      simp only [parse]
      split <;> simp_all
  calc parse s = ⟨(parse s).root, (parse s).parts⟩ := rfl
    _ = ⟨[], [s]⟩ := by rw [hroot]; exact congrArg _ hparts

theorem join_plain (p : PurePath) {s : Str} (h : Plain s) :
    p.join s = { p with parts := p.parts ++ [s] } := by
  simp [join, parse_plain h]

/-- Joining a plain name goes exactly one level down. -/
theorem resolve_join_plain (p : PurePath) {s : Str} (h : Plain s) :
    (p.join s).resolve = p.resolve ++ [s] := by
  rw [join_plain p h, resolve, climb_append]
  simp [climb, h.notDotdot, resolve]

/-- A path given by plain names only denotes the list of these names. -/
theorem climb_plain {loc : Location} {cs : List Str} (h : ∀ c ∈ cs, c ≠ dotdot) :
    climb loc cs = loc ++ cs := by
  induction cs generalizing loc with
  | nil => simp [climb]
  | cons c cs ih =>
    have hc : c ≠ dotdot := h c (by simp)
    rw [climb, if_neg hc, ih fun d hd => h d (by simp [hd])]
    simp

/-! ## Cancelling `..` -/

/-- One more component behind `ups` times `..` and `names`. -/
def cancel : Nat × List Str → Str → Nat × List Str
  | (ups, names), c =>
    if c = dotdot then
      if names = [] then (ups + 1, []) else (ups, names.dropLast)
    else (ups, names ++ [c])

/-- The components with every `..` cancelled against the name in front of it: how many `..`
are left, all of them first, and the names behind them. -/
def reduce (parts : List Str) : Nat × List Str := parts.foldl cancel (0, [])

theorem climb_cancel (loc : Location) (c : Str) (x : Nat × List Str) :
    climb (loc.take (loc.length - x.1) ++ x.2) [c] =
      loc.take (loc.length - (cancel x c).1) ++ (cancel x c).2 := by
  obtain ⟨ups, names⟩ := x
  simp only [climb, cancel]
  by_cases hup : c = dotdot
  · rw [if_pos hup, if_pos hup]
    by_cases hnames : names = []
    · -- nothing to cancel against: one more level of `loc` is left
      rw [if_pos hnames, hnames, List.append_nil, List.append_nil, List.dropLast_eq_take,
        List.take_take, List.length_take]
      congr 1
      omega
    · rw [if_neg hnames, List.dropLast_append_of_ne_nil hnames]
  · rw [if_neg hup, if_neg hup, List.append_assoc]

/-- Following components goes up as often as `..` are left, then down the names. -/
theorem climb_eq (loc : Location) (cs : List Str) :
    climb loc cs = loc.take (loc.length - (reduce cs).1) ++ (reduce cs).2 := by
  have hfrom : ∀ x, climb (loc.take (loc.length - x.1) ++ x.2) cs =
      loc.take (loc.length - (cs.foldl cancel x).1) ++ (cs.foldl cancel x).2 := by
    induction cs with
    | nil => exact fun _ => rfl
    | cons c cs ih =>
      intro x
      rw [← List.singleton_append, climb_append, climb_cancel, ih]
      rfl
  have hstart : climb (loc.take (loc.length - 0) ++ []) cs =
      loc.take (loc.length - (reduce cs).1) ++ (reduce cs).2 := hfrom (0, [])
  rwa [Nat.sub_zero, List.take_length, List.append_nil] at hstart

/-! ## One level down -/

/-- Joined to `p`, the name `s` leads from the location of `p` to something
directly inside it. -/
def Descends (p : PurePath) (s : Str) : Prop := ∃ c, (p.join s).resolve = p.resolve ++ [c]

/-- What the components of `s` have to be for that, `loc` being where it starts: as many of
the last names of `loc` as it climbs out of, and one more. Behind a leading slash, all the
names of `loc` and one more. -/
def OneDown (loc : Location) (s : Str) : Prop :=
  ∃ c, (reduce (parse s).parts).2 =
    (if (parse s).root = [] then loc.drop (loc.length - (reduce (parse s).parts).1) else loc) ++
      [c]

/-- **A name leads one level down exactly if its components say so.** -/
theorem descends_iff (p : PurePath) (s : Str) : Descends p s ↔ OneDown p.resolve s := by
  unfold Descends OneDown
  rw [join]
  by_cases hroot : (parse s).root = []
  · -- what the name climbs out of, it has to go down again
    have hback := List.take_append_drop (p.resolve.length - (reduce (parse s).parts).1) p.resolve
    have hresolve : ∀ c, climb p.resolve (parse s).parts = p.resolve ++ [c] ↔
        (reduce (parse s).parts).2 =
          p.resolve.drop (p.resolve.length - (reduce (parse s).parts).1) ++ [c] := by
      intro c
      have hsplit : p.resolve ++ [c] =
          p.resolve.take (p.resolve.length - (reduce (parse s).parts).1) ++
            (p.resolve.drop (p.resolve.length - (reduce (parse s).parts).1) ++ [c]) := by
        rw [← List.append_assoc, hback]
      rw [climb_eq, hsplit]
      exact List.append_right_inj _
    simp only [if_pos hroot, resolve, climb_append]
    exact exists_congr hresolve
  · simp only [if_neg hroot, resolve, climb_eq [] (parse s).parts, List.take_nil, List.nil_append]

theorem oneDown_of_plain (loc : Location) {s : Str} (h : Plain s) : OneDown loc s := by
  have hreduce : reduce [s] = (0, [s]) := by simp [reduce, cancel, h.notDotdot]
  rw [OneDown, parse_plain h, hreduce]
  exact ⟨s, by simp⟩

theorem descends_of_plain (p : PurePath) {s : Str} (h : Plain s) : Descends p s :=
  (descends_iff p s).mpr (oneDown_of_plain _ h)

/-! ## Printing and parsing -/

/-- What parsing keeps as a component. -/
structure Component (c : Str) : Prop where
  nonempty : c ≠ []
  notDot : c ≠ ['.']
  noSlash : '/' ∉ c

/-- An absolute path as parsing leaves it. -/
structure Absolute (p : PurePath) : Prop where
  root : p.root = ['/'] ∨ p.root = ['/', '/']
  parts : ∀ c ∈ p.parts, Component c

theorem noSlash_of_mem_splitOn {s c : Str} (h : c ∈ s.splitOn '/') : '/' ∉ c := by
  induction s generalizing c with
  | nil =>
    rw [List.splitOn_nil, List.mem_singleton] at h
    simp [h]
  | cons x s ih =>
    rw [List.splitOn_cons_eq_if_modifyHead] at h
    split at h
    · rcases List.mem_cons.mp h with rfl | h
      · simp
      · exact ih h
    · next hx =>
      obtain ⟨d, ds, hds⟩ := List.exists_cons_of_ne_nil (List.splitOn_ne_nil '/' s)
      rw [hds] at h ih
      rcases List.mem_cons.mp h with rfl | h
      · have hd : '/' ∉ d := ih (List.mem_cons_self ..)
        rw [List.mem_cons, not_or]
        exact ⟨fun heq => hx (beq_iff_eq.mpr heq.symm), hd⟩
      · exact ih (List.mem_cons_of_mem _ h)

theorem component_of_mem_parse {s c : Str} (h : c ∈ (parse s).parts) : Component c := by
  simp only [parse, List.mem_filter, ne_eq, decide_eq_true_eq] at h
  exact ⟨h.2.1, h.2.2, noSlash_of_mem_splitOn h.1⟩

theorem root_parse (s : Str) :
    (parse s).root = [] ∨ (parse s).root = ['/'] ∨ (parse s).root = ['/', '/'] := by
  simp only [parse]
  split
  · exact .inr (.inl rfl)
  · exact .inr (.inr rfl)
  · exact .inr (.inl rfl)
  · exact .inl rfl

/-- Joining keeps a path absolute. -/
theorem Absolute.join {p : PurePath} (h : p.Absolute) (s : Str) : (p.join s).Absolute := by
  rw [PurePath.join]
  split
  · refine ⟨h.root, fun c hc => ?_⟩
    rcases List.mem_append.mp hc with hc | hc
    · exact h.parts c hc
    · exact component_of_mem_parse hc
  · next hroot => exact ⟨(root_parse s).resolve_left hroot, fun c => component_of_mem_parse⟩

/-- A leading slash is not a component. -/
theorem parts_parse_slash (s : Str) : (parse ('/' :: s)).parts = (parse s).parts := by
  simp only [parse]
  rw [List.splitOn_cons_eq_if_modifyHead, if_pos (by simp)]
  exact List.filter_cons_of_neg (by simp)

/-- The slashes in front are the root. -/
theorem root_parse_append {root text : Str} (hroot : root = ['/'] ∨ root = ['/', '/'])
    (hhead : ∀ x, text.head? = some x → x ≠ '/') : (parse (root ++ text)).root = root := by
  cases text with
  | nil => rcases hroot with rfl | rfl <;> rfl
  | cons x text =>
    have hx : x ≠ '/' := hhead x rfl
    rcases hroot with rfl | rfl <;> simp [parse, hx]

/-- The components of a path survive printing. -/
theorem parts_parse_intercalate {parts : List Str} (h : ∀ c ∈ parts, Component c) :
    (parse (['/'].intercalate parts)).parts = parts := by
  cases parts with
  | nil => rfl
  | cons c cs =>
    simp only [parse]
    rw [List.splitOn_intercalate '/' (fun c hc => (h c hc).noSlash) (by simp), List.filter_eq_self]
    exact fun c hc => decide_eq_true ⟨(h c hc).nonempty, (h c hc).notDot⟩

/-- **Parsing undoes printing**, on absolute paths. -/
theorem parse_str {p : PurePath} (h : p.Absolute) : parse p.str = p := by
  obtain ⟨root, parts⟩ := p
  have hstr : str ⟨root, parts⟩ = root ++ ['/'].intercalate parts := by
    have hne : ¬ (root = [] ∧ parts = []) := fun ⟨hnil, _⟩ => by
      rcases h.root with hroot | hroot <;> cases hnil.symm.trans hroot
    rw [str, if_neg hne]
  -- the text of the components does not begin with a slash
  have hhead : ∀ x, (['/'].intercalate parts).head? = some x → x ≠ '/' := by
    rintro x hx rfl
    cases parts with
    | nil => cases hx
    | cons c cs =>
      obtain ⟨a, c', rfl⟩ := List.exists_cons_of_ne_nil (h.parts c (by simp)).nonempty
      have ha : a = '/' := by
        cases cs <;> simpa [List.intercalate, List.intersperse] using hx
      have hslash := (h.parts (a :: c') (List.mem_cons_self ..)).noSlash
      exact hslash (List.mem_cons.mpr (.inl ha.symm))
  have hparts : (parse (root ++ ['/'].intercalate parts)).parts = parts := by
    have htext := parts_parse_intercalate h.parts
    rcases h.root with hroot | hroot
    · obtain rfl : root = ['/'] := hroot
      exact (parts_parse_slash _).trans htext
    · obtain rfl : root = ['/', '/'] := hroot
      exact (parts_parse_slash _).trans ((parts_parse_slash _).trans htext)
  calc parse (str ⟨root, parts⟩) =
        ⟨(parse (root ++ ['/'].intercalate parts)).root,
          (parse (root ++ ['/'].intercalate parts)).parts⟩ := by rw [hstr]
    _ = ⟨root, parts⟩ := by rw [root_parse_append h.root hhead, hparts]

end PurePath

end FileTransfer
