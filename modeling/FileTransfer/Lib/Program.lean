import Mathlib

/-!
# Effectful programs

A `Program` is a finitely deep tree of operations: it returns, it throws, or
it performs one operation and goes on according to the reply. Nothing in the
tree says what an operation does; a `Handler` does. One program therefore has
two meanings that cannot drift apart: `run` handles its operations one after
another, and the pool of `FileTransfer.Lib.Interleaving` handles each of them
as one atomic step among those of other threads.

The rules carry a fact about single operations to whole runs: `run_invariant`
for one state, `run_related` for two runs side by side. `Ends` and `Triple` say
where a run can end, the first from the replies alone, the second from the
state it started in.
-/

namespace FileTransfer.Effect

/-- The operations of a machine and the type of reply each one gives. -/
structure Signature where
  Op : Type
  Reply : Op → Type

/-- A program over `S` that ends with an `α` or with an exception of type `ε`.
An operation may itself answer with an exception; the continuation sees it. -/
inductive Program (S : Signature) (ε α : Type) where
  | ret (a : α)
  | throw (e : ε)
  | perform (o : S.Op) (k : Except ε (S.Reply o) → Program S ε α)

/-- What each operation does to a state, and what it answers. -/
abbrev Handler (S : Signature) (ε σ : Type) :=
  (o : S.Op) → σ → Except ε (S.Reply o) × σ

namespace Program

variable {S : Signature} {ε α β σ τ : Type}

protected def bind : Program S ε α → (α → Program S ε β) → Program S ε β
  | .ret a, f => f a
  | .throw e, _ => .throw e
  | .perform o k, f => .perform o fun r => (k r).bind f

/-- `p`, with `h` taking over from the first exception nobody inside `p`
caught. -/
protected def tryCatch : Program S ε α → (ε → Program S ε α) → Program S ε α
  | .ret a, _ => .ret a
  | .throw e, h => h e
  | .perform o k, h => .perform o fun r => (k r).tryCatch h

instance : Monad (Program S ε) where
  pure := .ret
  bind := Program.bind

instance : MonadExceptOf ε (Program S ε) where
  throw := .throw
  tryCatch := Program.tryCatch

/-- Perform one operation and hand its reply on, raising what it raises. -/
def op (o : S.Op) : Program S ε (S.Reply o) :=
  .perform o fun
    | .ok r => .ret r
    | .error e => .throw e

@[simp] theorem pure_eq (a : α) : (pure a : Program S ε α) = .ret a := rfl

@[simp] theorem throw_eq (e : ε) :
    (MonadExcept.throw e : Program S ε α) = .throw e := rfl

@[simp] theorem tryCatch_eq (p : Program S ε α) (h : ε → Program S ε α) :
    MonadExcept.tryCatch p h = p.tryCatch h := rfl

@[simp] theorem ret_bind (a : α) (f : α → Program S ε β) :
    (Program.ret a : Program S ε α) >>= f = f a := rfl

@[simp] theorem throw_bind (e : ε) (f : α → Program S ε β) :
    (Program.throw e : Program S ε α) >>= f = .throw e := rfl

@[simp] theorem perform_bind (o : S.Op) (k : Except ε (S.Reply o) → Program S ε α)
    (f : α → Program S ε β) :
    (Program.perform o k >>= f) = .perform o fun r => k r >>= f := rfl

theorem bind_assoc {γ : Type} (p : Program S ε α) (f : α → Program S ε β)
    (g : β → Program S ε γ) : p >>= f >>= g = p >>= fun a => f a >>= g := by
  induction p with
  | ret a => rfl
  | throw e => rfl
  | perform o k ih => exact congrArg (Program.perform o) (funext ih)

@[simp] theorem tryCatch_ret (a : α) (h : ε → Program S ε α) :
    (Program.ret a).tryCatch h = .ret a := rfl

@[simp] theorem tryCatch_throw (e : ε) (h : ε → Program S ε α) :
    (Program.throw e).tryCatch h = h e := rfl

@[simp] theorem tryCatch_perform (o : S.Op)
    (k : Except ε (S.Reply o) → Program S ε α) (h : ε → Program S ε α) :
    (Program.perform o k).tryCatch h = .perform o fun r => (k r).tryCatch h := rfl

/-! ## Running a program alone -/

/-- Handle the operations of a program one after another. -/
def run (exec : Handler S ε σ) : Program S ε α → σ → Except ε α × σ
  | .ret a, s => (.ok a, s)
  | .throw e, s => (.error e, s)
  | .perform o k, s => run exec (k (exec o s).1) (exec o s).2

/-- The operations a run performs, each with the state it met. -/
def trace (exec : Handler S ε σ) : Program S ε α → σ → List (σ × S.Op)
  | .ret _, _ => []
  | .throw _, _ => []
  | .perform o k, s => (s, o) :: trace exec (k (exec o s).1) (exec o s).2

variable (exec : Handler S ε σ)

@[simp] theorem run_ret (a : α) (s : σ) :
    run exec (.ret a : Program S ε α) s = (.ok a, s) := rfl

@[simp] theorem run_throw (e : ε) (s : σ) :
    run exec (.throw e : Program S ε α) s = (.error e, s) := rfl

theorem run_perform (o : S.Op) (k : Except ε (S.Reply o) → Program S ε α) (s : σ) :
    run exec (.perform o k) s = run exec (k (exec o s).1) (exec o s).2 := rfl

@[simp] theorem run_op (o : S.Op) (s : σ) :
    run exec (op o : Program S ε (S.Reply o)) s = exec o s := by
  simp only [op, run_perform]
  cases h : (exec o s).1 <;> rw [← Prod.eta (exec o s), h] <;> rfl

/-- A sequence runs its second part from where the first one returned. -/
@[simp] theorem run_bind (p : Program S ε α) (f : α → Program S ε β) (s : σ) :
    run exec (p >>= f) s =
      match run exec p s with
      | (.ok a, s') => run exec (f a) s'
      | (.error e, s') => (.error e, s') := by
  induction p generalizing s with
  | ret a => rfl
  | throw e => rfl
  | perform o k ih => exact ih _ _

/-- A handler runs from the state the exception left behind: nothing is rolled
back. -/
@[simp] theorem run_tryCatch (p : Program S ε α) (h : ε → Program S ε α) (s : σ) :
    run exec (p.tryCatch h) s =
      match run exec p s with
      | (.ok a, s') => (.ok a, s')
      | (.error e, s') => run exec (h e) s' := by
  induction p generalizing s with
  | ret a => rfl
  | throw e => rfl
  | perform o k ih => exact ih _ _

@[simp] theorem trace_ret (a : α) (s : σ) :
    trace exec (.ret a : Program S ε α) s = [] := rfl

@[simp] theorem trace_throw (e : ε) (s : σ) :
    trace exec (.throw e : Program S ε α) s = [] := rfl

@[simp] theorem trace_op (o : S.Op) (s : σ) :
    trace exec (op o : Program S ε (S.Reply o)) s = [(s, o)] := by
  simp only [op, trace]
  cases (exec o s).1 <;> rfl

@[simp] theorem trace_bind (p : Program S ε α) (f : α → Program S ε β) (s : σ) :
    trace exec (p >>= f) s = trace exec p s ++
      match run exec p s with
      | (.ok a, s') => trace exec (f a) s'
      | (.error _, _) => [] := by
  induction p generalizing s with
  | ret a => rfl
  | throw e => rfl
  | perform o k ih => exact congrArg ((s, o) :: ·) (ih _ _)

@[simp] theorem trace_tryCatch (p : Program S ε α) (h : ε → Program S ε α) (s : σ) :
    trace exec (p.tryCatch h) s = trace exec p s ++
      match run exec p s with
      | (.ok _, _) => []
      | (.error e, s') => trace exec (h e) s' := by
  induction p generalizing s with
  | ret a => rfl
  | throw e => rfl
  | perform o k ih => exact congrArg ((s, o) :: ·) (ih _ _)

/-- A sequence that returns has two parts that return. -/
theorem run_bind_ok {p : Program S ε α} {f : α → Program S ε β} {s s' : σ} {b : β} :
    run exec (p >>= f) s = (.ok b, s') ↔
      ∃ a s₁, run exec p s = (.ok a, s₁) ∧ run exec (f a) s₁ = (.ok b, s') := by
  rw [run_bind]
  rcases run exec p s with ⟨e | a, s₁⟩
  · simp
  · simp

/-- The second part of a sequence performs operations only if the first one
returned. -/
theorem mem_trace_bind {p : Program S ε α} {f : α → Program S ε β} {s : σ} {x : σ × S.Op} :
    x ∈ trace exec (p >>= f) s ↔ x ∈ trace exec p s ∨
      ∃ a s₁, run exec p s = (.ok a, s₁) ∧ x ∈ trace exec (f a) s₁ := by
  rw [trace_bind, List.mem_append]
  rcases run exec p s with ⟨e | a, s₁⟩
  · simp
  · simp

/-- A handler performs operations only if the guarded part raised. -/
theorem mem_trace_tryCatch {p : Program S ε α} {h : ε → Program S ε α} {s : σ} {x : σ × S.Op} :
    x ∈ trace exec (p.tryCatch h) s ↔ x ∈ trace exec p s ∨
      ∃ e s₁, run exec p s = (.error e, s₁) ∧ x ∈ trace exec (h e) s₁ := by
  rw [trace_tryCatch, List.mem_append]
  rcases run exec p s with ⟨e | a, s₁⟩
  · simp
  · simp

/-- What the operations of a run preserve where they are performed, the run
preserves. -/
theorem run_of_trace {I : σ → Prop} {p : Program S ε α} {s : σ} (hs : I s)
    (h : ∀ x ∈ trace exec p s, I x.1 → I (exec x.2 x.1).2) : I (run exec p s).2 := by
  induction p generalizing s with
  | ret a => exact hs
  | throw e => exact hs
  | perform o k ih =>
    have hhere : I (exec o s).2 := h (s, o) (List.mem_cons_self ..) hs
    exact ih _ hhere fun x hx => h x (List.mem_cons_of_mem _ hx)

/-! ## What a program can do at all -/

/-- Every operation `p` can reach is `allowed` and every value it can return
satisfies `post`, as long as the replies it gets are `possible`. -/
def Uses (allowed : S.Op → Prop) (possible : (o : S.Op) → Except ε (S.Reply o) → Prop)
    (post : α → Prop) : Program S ε α → Prop
  | .ret a => post a
  | .throw _ => True
  | .perform o k => allowed o ∧ ∀ r, possible o r → (k r).Uses allowed possible post

section Uses

variable {allowed : S.Op → Prop} {possible : (o : S.Op) → Except ε (S.Reply o) → Prop}
  {post : α → Prop}

theorem uses_ret {a : α} (h : post a) :
    (Program.ret a : Program S ε α).Uses allowed possible post := h

theorem uses_throw (e : ε) :
    (Program.throw e : Program S ε α).Uses allowed possible post := trivial

theorem uses_trivial (p : Program S ε α) :
    p.Uses (fun _ => True) (fun _ _ => True) fun _ => True := by
  induction p with
  | ret a => trivial
  | throw e => trivial
  | perform o k ih => exact ⟨trivial, fun r _ => ih r⟩

theorem uses_op (possible : (o : S.Op) → Except ε (S.Reply o) → Prop) {o : S.Op}
    (h : allowed o) :
    (op o : Program S ε (S.Reply o)).Uses allowed possible fun a => possible o (.ok a) := by
  refine ⟨h, fun r hr => ?_⟩
  cases r with
  | ok a => exact hr
  | error e => trivial

theorem Uses.bind {post' : β → Prop} {p : Program S ε α} {f : α → Program S ε β}
    (hp : p.Uses allowed possible post)
    (hf : ∀ a, post a → (f a).Uses allowed possible post') :
    (p >>= f).Uses allowed possible post' := by
  induction p with
  | ret a => exact hf a hp
  | throw e => trivial
  | perform o k ih => exact ⟨hp.1, fun r hr => ih r (hp.2 r hr)⟩

theorem Uses.tryCatch {p : Program S ε α} {h : ε → Program S ε α}
    (hp : p.Uses allowed possible post) (hh : ∀ e, (h e).Uses allowed possible post) :
    (p.tryCatch h).Uses allowed possible post := by
  induction p with
  | ret a => exact hp
  | throw e => exact hh e
  | perform o k ih => exact ⟨hp.1, fun r hr => ih r (hp.2 r hr)⟩

theorem Uses.mono {post' : α → Prop} {p : Program S ε α}
    (hp : p.Uses allowed possible post) (h : ∀ a, post a → post' a) :
    p.Uses allowed possible post' := by
  induction p with
  | ret a => exact h a hp
  | throw e => trivial
  | perform o k ih => exact ⟨hp.1, fun r hr => ih r (hp.2 r hr)⟩

/-- **The invariant rule**: what every allowed operation preserves, a run of
allowed operations preserves. -/
theorem run_invariant {exec : Handler S ε σ} {I : σ → Prop}
    (hstep : ∀ o s, allowed o → I s → possible o (exec o s).1 ∧ I (exec o s).2)
    {p : Program S ε α} (hp : p.Uses allowed possible post) {s : σ} (hs : I s) :
    I (run exec p s).2 := by
  induction p generalizing s with
  | ret a => exact hs
  | throw e => exact hs
  | perform o k ih =>
    obtain ⟨hr, hs'⟩ := hstep o s hp.1 hs
    exact ih _ (hp.2 _ hr) hs'

/-- The invariant rule for what happens on the way: each operation of a run is
allowed, and the invariant holds where it is performed. -/
theorem trace_invariant {exec : Handler S ε σ} {I : σ → Prop}
    (hstep : ∀ o s, allowed o → I s → possible o (exec o s).1 ∧ I (exec o s).2)
    {p : Program S ε α} (hp : p.Uses allowed possible post) {s : σ} (hs : I s) :
    ∀ x ∈ trace exec p s, allowed x.2 ∧ I x.1 := by
  induction p generalizing s with
  | ret a => intro x hx; cases hx
  | throw e => intro x hx; cases hx
  | perform o k ih =>
    obtain ⟨hr, hs'⟩ := hstep o s hp.1 hs
    intro x hx
    rcases List.mem_cons.mp hx with rfl | hx
    · exact ⟨hp.1, hs⟩
    · exact ih _ (hp.2 _ hr) hs' x hx

/-- **The two-run rule** (unwinding): if related states answer every allowed
operation alike and stay related, whole runs answer alike and stay related. -/
theorem run_related {exec : Handler S ε σ} {exec' : Handler S ε τ} {R : σ → τ → Prop}
    (hstep : ∀ o s t, allowed o → R s t →
      possible o (exec o s).1 ∧ (exec o s).1 = (exec' o t).1 ∧
        R (exec o s).2 (exec' o t).2)
    {p : Program S ε α} (hp : p.Uses allowed possible post) {s : σ} {t : τ} (hst : R s t) :
    (run exec p s).1 = (run exec' p t).1 ∧
      R (run exec p s).2 (run exec' p t).2 := by
  induction p generalizing s t with
  | ret a => exact ⟨rfl, hst⟩
  | throw e => exact ⟨rfl, hst⟩
  | perform o k ih =>
    obtain ⟨hr, heq, hst'⟩ := hstep o s t hp.1 hst
    simp only [run_perform, ← heq]
    exact ih _ (hp.2 _ hr) hst'

end Uses

/-! ## How a program can end -/

/-- As long as the replies it gets are `possible`, every value `p` returns
satisfies `post` and every exception it throws satisfies `exn`. -/
def Ends (possible : (o : S.Op) → Except ε (S.Reply o) → Prop) (post : α → Prop)
    (exn : ε → Prop) : Program S ε α → Prop
  | .ret a => post a
  | .throw e => exn e
  | .perform o k => ∀ r, possible o r → (k r).Ends possible post exn

section Ends

variable {possible : (o : S.Op) → Except ε (S.Reply o) → Prop} {post : α → Prop}
  {exn : ε → Prop}

theorem ends_trivial (p : Program S ε α) : p.Ends possible (fun _ => True) fun _ => True := by
  induction p with
  | ret a => trivial
  | throw e => trivial
  | perform o k ih => exact fun r _ => ih r

theorem ends_op {o : S.Op} (h : ∀ e, possible o (.error e) → exn e) :
    (op o : Program S ε (S.Reply o)).Ends possible (fun _ => True) exn := by
  intro r hr
  cases r with
  | ok a => trivial
  | error e => exact h e hr

theorem Ends.bind {post' : β → Prop} {p : Program S ε α} {f : α → Program S ε β}
    (hp : p.Ends possible post exn) (hf : ∀ a, post a → (f a).Ends possible post' exn) :
    (p >>= f).Ends possible post' exn := by
  induction p with
  | ret a => exact hf a hp
  | throw e => exact hp
  | perform o k ih => exact fun r hr => ih r (hp r hr)

/-- A handler answers for the exceptions of the guarded part. -/
theorem Ends.tryCatch {exn' : ε → Prop} {p : Program S ε α} {h : ε → Program S ε α}
    (hp : p.Ends possible post exn) (hh : ∀ e, exn e → (h e).Ends possible post exn') :
    (p.tryCatch h).Ends possible post exn' := by
  induction p with
  | ret a => exact hp
  | throw e => exact hh e hp
  | perform o k ih => exact fun r hr => ih r (hp r hr)

/-- How a run ends, when every operation gives a possible reply. -/
theorem run_ends {exec : Handler S ε σ} (hpossible : ∀ o s, possible o (exec o s).1)
    {p : Program S ε α} (hp : p.Ends possible post exn) (s : σ) :
    match (run exec p s).1 with
    | .ok a => post a
    | .error e => exn e := by
  induction p generalizing s with
  | ret a => exact hp
  | throw e => exact hp
  | perform o k ih => exact ih _ (hp _ (hpossible o s)) _

end Ends

/-! ## Triples -/

/-- How a run came out: with a value where `post` holds, or with an exception
where `exn` holds. -/
def Outcome (post : α → σ → Prop) (exn : ε → σ → Prop) : Except ε α × σ → Prop
  | (.ok a, s) => post a s
  | (.error e, s) => exn e s

/-- From every state in which `pre` holds, `p` returns where `post` holds of the
value and the state, or throws where `exn` holds. -/
def Triple (exec : Handler S ε σ) (pre : σ → Prop) (p : Program S ε α) (post : α → σ → Prop)
    (exn : ε → σ → Prop) : Prop :=
  ∀ s, pre s → Outcome post exn (run exec p s)

section Triple

variable {exec : Handler S ε σ} {pre : σ → Prop} {p : Program S ε α} {post : α → σ → Prop}
  {exn : ε → σ → Prop}

theorem triple_op {o : S.Op} {post : S.Reply o → σ → Prop}
    (h : ∀ s, pre s → Outcome post exn (exec o s)) : Triple exec pre (op o) post exn := by
  intro s hs
  rw [run_op]
  exact h s hs

theorem Triple.bind {mid : α → σ → Prop} {f : α → Program S ε β} {post : β → σ → Prop}
    (hp : Triple exec pre p mid exn) (hf : ∀ a, Triple exec (mid a) (f a) post exn) :
    Triple exec pre (p >>= f) post exn := by
  intro s hs
  have hp := hp s hs
  rw [run_bind]
  generalize run exec p s = result at hp ⊢
  rcases result with ⟨e | a, s₁⟩
  · exact hp
  · exact hf a s₁ hp

/-- What holds where the guarded part throws is what the handler starts from. -/
theorem Triple.tryCatch {mid : ε → σ → Prop} {h : ε → Program S ε α}
    (hp : Triple exec pre p post mid) (hh : ∀ e, Triple exec (mid e) (h e) post exn) :
    Triple exec pre (p.tryCatch h) post exn := by
  intro s hs
  have hp := hp s hs
  rw [run_tryCatch]
  generalize run exec p s = result at hp ⊢
  rcases result with ⟨e | a, s₁⟩
  · exact hh e s₁ hp
  · exact hp

/-- The rule of consequence. -/
theorem Triple.imp {pre' : σ → Prop} {post' : α → σ → Prop} {exn' : ε → σ → Prop}
    (h : Triple exec pre p post exn) (hpre : ∀ s, pre' s → pre s)
    (hpost : ∀ a s, post a s → post' a s) (hexn : ∀ e s, exn e s → exn' e s) :
    Triple exec pre' p post' exn' := by
  intro s hs
  have h := h s (hpre s hs)
  generalize run exec p s = result at h ⊢
  rcases result with ⟨e | a, s₁⟩
  · exact hexn e s₁ h
  · exact hpost a s₁ h

/-- What a triple says of the state a run ends in. -/
theorem Triple.run_snd {I : σ → Prop} {s : σ}
    (h : Triple exec pre p (fun _ => I) fun _ => I) (hs : pre s) : I (run exec p s).2 := by
  have h := h s hs
  generalize run exec p s = result at h ⊢
  rcases result with ⟨e | a, s₁⟩ <;> exact h

theorem triple_of_run_snd {I : σ → Prop} (h : ∀ s, pre s → I (run exec p s).2) :
    Triple exec pre p (fun _ => I) fun _ => I := by
  intro s hs
  have h := h s hs
  generalize run exec p s = result at h ⊢
  rcases result with ⟨e | a, s₁⟩ <;> exact h

end Triple

end Program

end FileTransfer.Effect
