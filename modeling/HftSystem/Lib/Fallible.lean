import Mathlib.Tactic.Lemma
import Mathlib.Data.List.Infix

set_option relaxedAutoImplicit false
set_option autoImplicit false

/-!
# Fallible computations and their runs

A step of a program that may fail is a function into `Except ε`. `Safe allow post` is the
weakest precondition of such a computation in which the failures satisfying `allow` are
tolerated: it says at once that the result satisfies `post` and that no other failure occurs.
A run folds a fallible step over a list of inputs; `Always` and `Meets` speak about the states
the run reaches and about the inputs it consumes there.

## Main definitions

* `Fallible.Safe` — partial correctness up to the tolerated failures.
* `Fallible.Always` — a property of every state a run reaches.
* `Fallible.Meets` — a condition on every input of a run, in the state it is consumed in.

## Main results

* `Fallible.Safe.bind`, `Fallible.Safe.mono` — sequencing and consequence.
* `Fallible.safe_foldlM` — the invariant rule for runs, total up to the tolerated failures.
* `Fallible.always_of_step` — the invariant rule for every reached state.
* `Fallible.always_iff_meets`, `Fallible.always_iff_meets_of_completes` — the invariant rules
  for an exact condition.
* `Fallible.safe_foldlM_iff_meets` — the rule for the exact condition of completion.
-/

namespace Fallible

universe u v

variable {ε : Type*} {α β : Type u}

/-- The computation returns a value satisfying `post` or fails in a tolerated way. -/
def Safe (allow : ε → Prop) (post : α → Prop) : Except ε α → Prop
  | .ok a => post a
  | .error e => allow e

section Safe

variable {allow allow' : ε → Prop} {post post' : α → Prop} {x : Except ε α}

/-- Whether a concrete computation is safe can be evaluated. -/
instance [DecidablePred allow] [DecidablePred post] : Decidable (Safe allow post x) :=
  match x with
  | .ok a => inferInstanceAs (Decidable (post a))
  | .error e => inferInstanceAs (Decidable (allow e))

/-- A value is safe if it satisfies the postcondition. -/
@[simp] lemma safe_ok {a : α} : Safe allow post (.ok a) ↔ post a := Iff.rfl

/-- A failure is safe if it is tolerated. -/
@[simp] lemma safe_error {e : ε} : Safe allow post (.error e) ↔ allow e := Iff.rfl

/-- **The rule of consequence.** -/
lemma Safe.mono (h : Safe allow post x) (ha : ∀ e, allow e → allow' e)
    (hp : ∀ a, post a → post' a) : Safe allow' post' x := by
  cases x with
  | ok a => exact hp a h
  | error e => exact ha e h

/-- Two specifications of a computation hold together. -/
lemma Safe.and (h : Safe allow post x) (h' : Safe allow' post' x) :
    Safe (fun e => allow e ∧ allow' e) (fun a => post a ∧ post' a) x := by
  cases x with
  | ok a => exact ⟨h, h'⟩
  | error e => exact ⟨h, h'⟩

/-- **The rule of sequencing.** -/
lemma Safe.bind {f : α → Except ε β} {post' : β → Prop} (h : Safe allow post x)
    (hf : ∀ a, post a → Safe allow post' (f a)) : Safe allow post' (x >>= f) := by
  cases x with
  | ok a => exact hf a h
  | error e => exact h

/-- A safe computation that returns satisfies its postcondition. -/
lemma Safe.of_eq_ok {a : α} (h : Safe allow post x) (hx : x = .ok a) : post a := by
  subst hx; exact h

/-- When no failure is tolerated the computation returns. -/
lemma Safe.exists_ok (h : Safe (fun _ => False) post x) : ∃ a, x = .ok a ∧ post a := by
  cases x with
  | ok a => exact ⟨a, rfl, h⟩
  | error e => exact h.elim

/-- When no tolerated failure occurs the computation returns. -/
lemma Safe.exists_ok_of_forall (h : Safe allow post x) (hallow : ∀ e, ¬ allow e) :
    ∃ a, x = .ok a ∧ post a := by
  cases x with
  | ok a => exact ⟨a, rfl, h⟩
  | error e => exact absurd h (hallow e)

/-- A safe computation that does not fail returns a value satisfying its postcondition. -/
lemma Safe.exists_of_isOk (h : Safe allow post x) (hx : x.isOk = true) :
    ∃ a, x = .ok a ∧ post a := by
  cases x with
  | ok a => exact ⟨a, rfl, h⟩
  | error e => cases hx

/-- **A computation with one failure.** If it returns only where `C` holds and fails, in one way, only where
`C` does not hold, then `C` decides what it does. -/
lemma Safe.exact {e : ε} {C : Prop} (h : Safe (fun e' => e' = e ∧ ¬ C) post x)
    (hpost : ∀ a, post a → C) : ((∃ a, x = .ok a) ↔ C) ∧ (x = .error e ↔ ¬ C) := by
  cases x with
  | ok a =>
    have hC : C := hpost a h
    exact ⟨iff_of_true ⟨a, rfl⟩ hC, iff_of_false (fun he => by cases he) fun hnot => hnot hC⟩
  | error e' =>
    obtain ⟨rfl, hnot⟩ := h
    refine ⟨iff_of_false (fun hok => ?_) hnot, iff_of_true rfl hnot⟩
    obtain ⟨a, ha⟩ := hok
    cases ha

/-- A sequence that returns has returned at both stages. -/
lemma bind_eq_ok {f : α → Except ε β} {b : β} :
    (x >>= f) = .ok b ↔ ∃ a, x = .ok a ∧ f a = .ok b := by
  cases x with
  | ok a => simp [bind, Except.bind]
  | error e => simp [bind, Except.bind]

/-- A sequence that returns does so at both stages. -/
lemma bind_isOk {f : α → Except ε β} :
    (x >>= f).isOk = true ↔ ∃ a, x = .ok a ∧ (f a).isOk = true := by
  cases x with
  | ok a => simp [bind, Except.bind]
  | error e => simp [bind, Except.bind, Except.isOk, Except.toBool]

/-- Behind a value the computation goes on. -/
@[simp] lemma ok_bind {a : α} {f : α → Except ε β} : (Except.ok a >>= f) = f a := rfl

end Safe

/-! ## Runs -/

section Run

variable {σ : Type u} {α : Type v}

variable (step : σ → α → Except ε σ)

/-- `P` holds in every state reached by consuming the inputs in order, the start included. -/
def Always (P : σ → Prop) : σ → List α → Prop
  | s, [] => P s
  | s, a :: as => P s ∧ ∀ s', step s a = .ok s' → Always P s' as

/-- `C` holds of every input of the run and the state that consumes it. -/
def Meets (C : σ → α → Prop) : σ → List α → Prop
  | _, [] => True
  | s, a :: as => C s a ∧ ∀ s', step s a = .ok s' → Meets C s' as

/-- A condition on the inputs of a run that can be evaluated. -/
def decidableMeets (C : σ → α → Prop) [∀ s a, Decidable (C s a)] :
    ∀ s as, Decidable (Meets step C s as)
  | _, [] => .isTrue trivial
  | s, a :: as =>
    match hstep : step s a with
    | .ok s' =>
      letI := decidableMeets C s' as
      decidable_of_iff (C s a ∧ Meets step C s' as)
        (and_congr Iff.rfl ⟨fun h t ht => by cases hstep.symm.trans ht; exact h, fun h => h s' hstep⟩)
    | .error _ =>
      decidable_of_iff (C s a) ⟨fun h => ⟨h, fun t ht => by cases hstep.symm.trans ht⟩, And.left⟩

/-- The instance of `decidableMeets`. -/
instance instDecidableMeets (C : σ → α → Prop) [∀ s a, Decidable (C s a)] (s : σ) (as : List α) :
    Decidable (Meets step C s as) := decidableMeets step C s as

/-- A property of the states of a run that can be evaluated. -/
def decidableAlways (P : σ → Prop) [DecidablePred P] : ∀ s as, Decidable (Always step P s as)
  | s, [] => inferInstanceAs (Decidable (P s))
  | s, a :: as =>
    match hstep : step s a with
    | .ok s' =>
      letI := decidableAlways P s' as
      decidable_of_iff (P s ∧ Always step P s' as)
        (and_congr Iff.rfl ⟨fun h t ht => by cases hstep.symm.trans ht; exact h, fun h => h s' hstep⟩)
    | .error _ =>
      decidable_of_iff (P s)
        ⟨fun h => ⟨h, fun t ht => by cases hstep.symm.trans ht⟩, And.left⟩

/-- The instance of `decidableAlways`. -/
instance instDecidableAlways (P : σ → Prop) [DecidablePred P] (s : σ) (as : List α) :
    Decidable (Always step P s as) := decidableAlways step P s as

variable {step} {P Inv : σ → Prop} {C : σ → α → Prop}

/-- A property of every reached state holds at the start. -/
lemma Always.start {s : σ} {as : List α} (h : Always step P s as) : P s := by
  cases as with
  | nil => exact h
  | cons a as => exact h.1

/-- A property of every reached state may be weakened. -/
lemma Always.mono {Q : σ → Prop} {s : σ} {as : List α} (h : Always step P s as)
    (hPQ : ∀ s, P s → Q s) : Always step Q s as := by
  induction as generalizing s with
  | nil => exact hPQ s h
  | cons a as ih => exact ⟨hPQ s h.1, fun s' hs' => ih (h.2 s' hs')⟩

/-- Two properties of every reached state hold together. -/
lemma Always.and {Q : σ → Prop} {s : σ} {as : List α} (h : Always step P s as)
    (h' : Always step Q s as) : Always step (fun s => P s ∧ Q s) s as := by
  induction as generalizing s with
  | nil => exact ⟨h, h'⟩
  | cons a as ih => exact ⟨⟨h.1, h'.1⟩, fun s' hs' => ih (h.2 s' hs') (h'.2 s' hs')⟩

/-- A property of every state of a run holds in every state of its beginning. -/
lemma Always.of_append {s : σ} {as bs : List α} (h : Always step P s (as ++ bs)) : Always step P s as := by
  induction as generalizing s with
  | nil => exact h.start
  | cons a as ih => exact ⟨h.1, fun s' hs' => ih (h.2 s' hs')⟩

/-- A property of every reached state is a condition on the inputs. -/
lemma Always.meets {s : σ} {as : List α} (h : Always step P s as) :
    Meets step (fun s _ => P s) s as := by
  induction as generalizing s with
  | nil => trivial
  | cons a as ih => exact ⟨h.1, fun s' hs' => ih (h.2 s' hs')⟩

/-- A condition may be weakened. -/
lemma Meets.mono {D : σ → α → Prop} {s : σ} {as : List α} (h : Meets step C s as)
    (hCD : ∀ s a, C s a → D s a) : Meets step D s as := by
  induction as generalizing s with
  | nil => trivial
  | cons a as ih => exact ⟨hCD s a h.1, fun s' hs' => ih (h.2 s' hs')⟩

/-- A condition on the inputs of a run is one on those of its beginning. -/
lemma Meets.of_append {s : σ} {as bs : List α} (h : Meets step C s (as ++ bs)) : Meets step C s as := by
  induction as generalizing s with
  | nil => trivial
  | cons a as ih => exact ⟨h.1, fun s' hs' => ih (h.2 s' hs')⟩

/-- Two conditions hold together. -/
lemma Meets.and {D : σ → α → Prop} {s : σ} {as : List α} (h : Meets step C s as)
    (h' : Meets step D s as) : Meets step (fun s a => C s a ∧ D s a) s as := by
  induction as generalizing s with
  | nil => trivial
  | cons a as ih => exact ⟨⟨h.1, h'.1⟩, fun s' hs' => ih (h.2 s' hs') (h'.2 s' hs')⟩

/-- A condition on the inputs alone may be added to one on the run. -/
lemma Meets.and_forall {D : α → Prop} {s : σ} {as : List α} (h : Meets step C s as)
    (hD : ∀ a ∈ as, D a) : Meets step (fun s a => C s a ∧ D a) s as := by
  induction as generalizing s with
  | nil => trivial
  | cons a as ih =>
    exact ⟨⟨h.1, hD a (List.mem_cons_self ..)⟩, fun s' hs' =>
      ih (h.2 s' hs') fun b hb => hD b (List.mem_cons_of_mem _ hb)⟩

/-- A condition on the inputs alone. -/
lemma Meets.of_forall {D : α → Prop} {s : σ} {as : List α} (hD : ∀ a ∈ as, D a) :
    Meets step (fun _ a => D a) s as := by
  induction as generalizing s with
  | nil => trivial
  | cons a as ih =>
    exact ⟨hD a (List.mem_cons_self ..), fun _ _ => ih fun b hb => hD b (List.mem_cons_of_mem _ hb)⟩

/-- No condition. -/
lemma meets_true {s : σ} {as : List α} : Meets step (fun _ _ => True) s as :=
  Meets.of_forall (D := fun _ => True) fun _ _ => trivial

/-- A condition on the inputs consumed so far, when the state remembers them. -/
lemma Meets.of_history {done : σ → List α}
    (hdone : ∀ s a s', step s a = .ok s' → done s' = done s ++ [a]) {D : List α → Prop} {s : σ}
    {as : List α} (h : ∀ pre a, pre ++ [a] <+: as → D (done s ++ (pre ++ [a]))) :
    Meets step (fun s a => D (done s ++ [a])) s as := by
  induction as generalizing s with
  | nil => trivial
  | cons a as ih =>
    refine ⟨h [] a ⟨as, rfl⟩, fun s' hs' => ih fun pre b hpre => ?_⟩
    rw [hdone s a s' hs', List.append_assoc]
    exact h (a :: pre) b (List.cons_prefix_cons.mpr ⟨rfl, hpre⟩)

/-- The condition holds of an input in the state that the inputs before it lead to. -/
lemma Meets.of_prefix {s s' : σ} (as bs : List α) {a : α} (h : Meets step C s (as ++ a :: bs))
    (hs' : as.foldlM step s = .ok s') : C s' a := by
  induction as generalizing s with
  | nil =>
    cases hs'
    exact h.1
  | cons c as ih =>
    rw [List.foldlM_cons, bind_eq_ok] at hs'
    obtain ⟨t, ht, hs'⟩ := hs'
    exact ih (h.2 t ht) hs'

/-- A condition that the invariant turns into another one. -/
lemma meets_of_meets {D : σ → α → Prop} (hC : ∀ s a, Inv s → D s a → C s a)
    (hstep : ∀ s a s', Inv s → D s a → step s a = .ok s' → Inv s') {s : σ} {as : List α}
    (hs : Inv s) (hD : Meets step D s as) : Meets step C s as := by
  induction as generalizing s with
  | nil => trivial
  | cons a as ih =>
    exact ⟨hC s a hs hD.1, fun s' hs' => ih (hstep s a s' hs hD.1 hs') (hD.2 s' hs')⟩

/-- A condition on the inputs that the invariant turns into one on the run. -/
lemma meets_of_forall {D : α → Prop} (hC : ∀ s a, Inv s → D a → C s a)
    (hstep : ∀ s a s', Inv s → D a → step s a = .ok s' → Inv s') {s : σ} {as : List α}
    (hs : Inv s) (hD : ∀ a ∈ as, D a) : Meets step C s as :=
  meets_of_meets hC hstep hs (Meets.of_forall hD)

/-- `Always` is the statement about all completed prefixes of the run. -/
theorem always_iff_prefix {s : σ} {as : List α} :
    Always step P s as ↔ ∀ pre s', pre <+: as → pre.foldlM step s = .ok s' → P s' := by
  induction as generalizing s with
  | nil =>
    refine ⟨fun h pre s' hpre he => ?_, fun h => h [] s (List.nil_prefix) rfl⟩
    obtain rfl := List.prefix_nil.mp hpre
    cases he
    exact h
  | cons a as ih =>
    refine ⟨fun h pre s' hpre he => ?_, fun h => ⟨h [] s List.nil_prefix rfl, ?_⟩⟩
    · cases pre with
      | nil =>
        cases he
        exact h.1
      | cons b pre =>
        obtain ⟨rfl, hpre'⟩ := List.cons_prefix_cons.mp hpre
        rw [List.foldlM_cons, bind_eq_ok] at he
        obtain ⟨t, ht, he⟩ := he
        exact ih.mp (h.2 t ht) pre s' hpre' he
    · intro t ht
      refine ih.mpr fun pre s' hpre he => h (a :: pre) s' (List.cons_prefix_cons.mpr ⟨rfl, hpre⟩) ?_
      rw [List.foldlM_cons, ht]
      exact he

/-- **The invariant rule for reached states.** -/
theorem always_of_step (hstep : ∀ s a s', Inv s → C s a → step s a = .ok s' → Inv s')
    (hP : ∀ s, Inv s → P s) {s : σ} {as : List α} (hs : Inv s) (hC : Meets step C s as) :
    Always step P s as := by
  induction as generalizing s with
  | nil => exact hP s hs
  | cons a as ih =>
    exact ⟨hP s hs, fun s' hs' => ih (hstep s a s' hs hC.1 hs') (hC.2 s' hs')⟩

/-- A property of every reached state holds at the end of a run that completes. -/
lemma Always.last {s s' : σ} {as : List α} (h : Always step P s as) (hs' : as.foldlM step s = .ok s') :
    P s' := always_iff_prefix.mp h as s' (List.prefix_refl as) hs'

/-- **The invariant rule for runs that complete.** -/
theorem inv_of_foldlM (hstep : ∀ s a s', Inv s → C s a → step s a = .ok s' → Inv s') {s s' : σ}
    {as : List α} (hs : Inv s) (hC : Meets step C s as) (hs' : as.foldlM step s = .ok s') : Inv s' :=
  (always_of_step hstep (fun _ => id) hs hC).last hs'

/-- **The invariant rule for runs.** If every step from the invariant is safe, so is the
whole run. -/
theorem safe_foldlM {allow : ε → Prop}
    (hstep : ∀ s a, Inv s → C s a → Safe allow Inv (step s a)) {s : σ} {as : List α}
    (hs : Inv s) (hC : Meets step C s as) : Safe allow Inv (as.foldlM step s) := by
  induction as generalizing s with
  | nil => exact hs
  | cons a as ih =>
    rw [List.foldlM_cons]
    cases hst : step s a with
    | ok s' => exact ih ((hstep s a hs hC.1).of_eq_ok hst) (hC.2 s' hst)
    | error e =>
      have := hstep s a hs hC.1
      rwa [hst] at this

/-- The rule below for a run that continues another one, which consumed `done`. -/
lemma safe_foldlM_append {allow : ε → Prop} {J : List α → σ → Prop} {done as : List α} {s : σ}
    (hs : J done s)
    (hstep : ∀ pre a post s, as = pre ++ a :: post → J (done ++ pre) s →
      Safe allow (J (done ++ pre ++ [a])) (step s a)) :
    Safe allow (J (done ++ as)) (as.foldlM step s) := by
  induction as generalizing done s with
  | nil => rwa [List.append_nil]
  | cons a as ih =>
    rw [List.foldlM_cons, List.append_cons]
    have ha := hstep [] a as s rfl (by rwa [List.append_nil])
    rw [List.append_nil] at ha
    refine ha.bind fun s' hs' => ih hs' fun pre b post t hsplit ht => ?_
    have := hstep (a :: pre) b post t (by rw [hsplit]; rfl) (by rwa [List.append_cons])
    rwa [List.append_cons done a pre] at this

/-- **The invariant rule for a run over a list that is known.** `J` speaks about the inputs
consumed so far. -/
theorem safe_foldlM_list {allow : ε → Prop} {J : List α → σ → Prop} {as : List α} {s : σ}
    (hs : J [] s)
    (hstep : ∀ pre a post s, as = pre ++ a :: post → J pre s →
      Safe allow (J (pre ++ [a])) (step s a)) : Safe allow (J as) (as.foldlM step s) :=
  safe_foldlM_append hs hstep

/-- **The invariant rule for an exact condition.** Suppose that every input meets `D`. If the
condition preserves the invariant, the invariant gives `P`, and a completed step that violates
the condition ends outside `P`, then `P` holds throughout the run exactly when every completed
step meets the condition. -/
theorem always_iff_meets {D : σ → α → Prop}
    (hstep : ∀ s a s', Inv s → D s a → C s a → step s a = .ok s' → Inv s') (hP : ∀ s, Inv s → P s)
    (hbad : ∀ s a s', Inv s → D s a → ¬ C s a → step s a = .ok s' → ¬ P s')
    {s : σ} {as : List α} (hs : Inv s) (hD : Meets step D s as) :
    Always step P s as ↔ Meets step (fun s a => ∀ s', step s a = .ok s' → C s a) s as := by
  induction as generalizing s with
  | nil => exact iff_of_true (hP s hs) trivial
  | cons a as ih =>
    constructor
    · intro h
      have hC : ∀ s', step s a = .ok s' → C s a := fun s' hs' => by
        by_contra hc
        exact hbad s a s' hs hD.1 hc hs' (h.2 s' hs').start
      exact ⟨hC, fun s' hs' =>
        (ih (hstep s a s' hs hD.1 (hC s' hs') hs') (hD.2 s' hs')).mp (h.2 s' hs')⟩
    · intro h
      exact ⟨hP s hs, fun s' hs' =>
        (ih (hstep s a s' hs hD.1 (h.1 s' hs') hs') (hD.2 s' hs')).mpr (h.2 s' hs')⟩

/-- **The invariant rule for an exact condition on steps that complete.** When a step that
violates the condition always completes, outside `P`, the condition need not speak about
completion. -/
theorem always_iff_meets_of_completes
    (hstep : ∀ s a s', Inv s → C s a → step s a = .ok s' → Inv s') (hP : ∀ s, Inv s → P s)
    (hbad : ∀ s a, Inv s → ¬ C s a → ∃ s', step s a = .ok s' ∧ ¬ P s')
    {s : σ} {as : List α} (hs : Inv s) : Always step P s as ↔ Meets step C s as := by
  refine ⟨fun h => ?_, always_of_step hstep hP hs⟩
  induction as generalizing s with
  | nil => trivial
  | cons a as ih =>
    have hC : C s a := by
      by_contra hc
      obtain ⟨s', hs', hnot⟩ := hbad s a hs hc
      exact hnot (h.2 s' hs').start
    exact ⟨hC, fun s' hs' => ih (hstep s a s' hs hC hs') (h.2 s' hs')⟩

/-- **The invariant rule for completion.** Suppose that every input meets `D`. If a step returns where
the condition holds, and fails in a known way where it does not, then so does the run. -/
theorem safe_foldlM_iff_meets {D : σ → α → Prop} {fails : ε → Prop}
    (hstep : ∀ s a, Inv s → D s a →
      Safe (fun e => fails e ∧ ¬ C s a) (fun s' => Inv s' ∧ C s a) (step s a))
    {s : σ} {as : List α} (hs : Inv s) (hD : Meets step D s as) :
    Safe (fun e => fails e ∧ ¬ Meets step C s as) (fun s' => Inv s' ∧ Meets step C s as)
      (as.foldlM step s) := by
  induction as generalizing s with
  | nil => exact ⟨hs, trivial⟩
  | cons a as ih =>
    have ha := hstep s a hs hD.1
    rw [List.foldlM_cons]
    cases hst : step s a with
    | error e =>
      rw [hst] at ha
      exact ⟨ha.1, fun hmeets => ha.2 hmeets.1⟩
    | ok s' =>
      rw [hst] at ha
      refine (ih ha.1 (hD.2 s' hst)).mono (fun e he => ⟨he.1, fun hmeets => he.2 (hmeets.2 s' hst)⟩)
        fun t ht => ⟨ht.1, ha.2, fun u hu => ?_⟩
      cases hst.symm.trans hu
      exact ht.2

/-- **The rule for two descriptions of a run.** If two states that are related have related successors,
whichever of the two descriptions makes a step, then what is equivalent in related states is so throughout
the run. -/
theorem always_iff_of_related {τ : Type*} {step' : τ → α → Except ε τ} {Q : τ → Prop} {R : σ → τ → Prop}
    {D : α → Prop}
    (hforth : ∀ s t a s', R s t → D a → step s a = .ok s' → ∃ t', step' t a = .ok t' ∧ R s' t')
    (hback : ∀ s t a t', R s t → D a → step' t a = .ok t' → ∃ s', step s a = .ok s' ∧ R s' t')
    (hPQ : ∀ s t, R s t → (P s ↔ Q t)) {s : σ} {t : τ} {as : List α} (hR : R s t)
    (hD : ∀ a ∈ as, D a) : Always step P s as ↔ Always step' Q t as := by
  induction as generalizing s t with
  | nil => exact hPQ s t hR
  | cons a as ih =>
    have ha : D a := hD a (List.mem_cons_self ..)
    have has : ∀ b ∈ as, D b := fun b hb => hD b (List.mem_cons_of_mem _ hb)
    constructor
    · intro h
      refine ⟨(hPQ s t hR).mp h.1, fun t' ht' => ?_⟩
      obtain ⟨s', hs', hR'⟩ := hback s t a t' hR ha ht'
      exact (ih hR' has).mp (h.2 s' hs')
    · intro h
      refine ⟨(hPQ s t hR).mpr h.1, fun s' hs' => ?_⟩
      obtain ⟨t', ht', hR'⟩ := hforth s t a s' hR ha hs'
      exact (ih hR' has).mpr (h.2 t' ht')

end Run

end Fallible
