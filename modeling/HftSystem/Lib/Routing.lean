import Mathlib.Data.List.Basic
import Mathlib.Logic.Function.Basic
import Mathlib.Tactic.Lemma
import Mathlib.Tactic.SplitIfs

set_option relaxedAutoImplicit false
set_option autoImplicit false

/-!
# Routing inputs to parts

A family of parts of one kind, and inputs each of which goes to the part that its key names. A run
of the family is a run of every part on the inputs that go to it, whatever the order in which the
inputs of different parts come.

## Main definitions

* `Routing.Run` — the runs of a step relation.
* `Routing.Routed` — a step of the family: the part that the key names takes it.

## Main results

* `Routing.run_routed_iff` — a run of the family is a run of every part.
* `Routing.foldlM_ok_iff_run`, `Routing.foldlM_some_iff_run` — runs of the functions that can fail.
-/

namespace Routing

universe u v w x

variable {σ : Type u} {α : Type v} {κ : Type w} {ε : Type x}

/-- The runs of a step relation on a list of inputs. -/
def Run (step : σ → α → σ → Prop) : σ → List α → σ → Prop
  | s, [], s' => s = s'
  | s, a :: as, s' => ∃ s₁, step s a s₁ ∧ Run step s₁ as s'

section Run

variable {step step' : σ → α → σ → Prop}

/-- A fold that can fail with an error, as runs. -/
lemma foldlM_ok_iff_run {f : σ → α → Except ε σ} {s s' : σ} {as : List α} :
    as.foldlM f s = .ok s' ↔ Run (fun s a s' => f s a = .ok s') s as s' := by
  induction as generalizing s with
  | nil =>
    refine ⟨fun h => ?_, fun h => ?_⟩
    · cases h
      rfl
    · cases h
      rfl
  | cons a as ih =>
    rw [List.foldlM_cons]
    simp only [Run]
    constructor
    · intro h
      cases hf : f s a with
      | error e =>
        rw [hf] at h
        cases h
      | ok s₁ =>
        rw [hf] at h
        exact ⟨s₁, rfl, ih.mp h⟩
    · rintro ⟨s₁, hf, hrun⟩
      rw [hf]
      exact ih.mpr hrun

/-- A fold that can fail without one. -/
lemma foldlM_some_iff_run {f : σ → α → Option σ} {s s' : σ} {as : List α} :
    as.foldlM f s = some s' ↔ Run (fun s a s' => f s a = some s') s as s' := by
  induction as generalizing s with
  | nil => exact Option.some_inj
  | cons a as ih =>
    rw [List.foldlM_cons, Option.bind_eq_bind, Option.bind_eq_some_iff]
    simp only [Run, ih]

end Run

/-- A step of the family: the part that the key of the input names takes it, and the others stay. -/
def Routed [DecidableEq κ] (key : α → κ) (step : σ → α → σ → Prop) (parts : κ → σ) (a : α)
    (parts' : κ → σ) : Prop :=
  ∃ s, step (parts (key a)) a s ∧ parts' = Function.update parts (key a) s

/-- **A run of the family is a run of every part** on the inputs whose key names it.

**Proof sketch.** By induction on the inputs. The first one moves the part that its key names and no
other, so it is the first input of that part and no input of the others. -/
theorem run_routed_iff [DecidableEq κ] {key : α → κ} {step : σ → α → σ → Prop} {parts parts' : κ → σ}
    {as : List α} :
    Run (Routed key step) parts as parts' ↔
      ∀ k, Run step (parts k) (as.filter fun a => key a = k) (parts' k) := by
  induction as generalizing parts with
  | nil => exact funext_iff
  | cons a as ih =>
    have hself : ((a :: as).filter fun a' => key a' = key a) =
        a :: as.filter fun a' => key a' = key a := List.filter_cons_of_pos (by simp)
    have hother : ∀ k, k ≠ key a → ((a :: as).filter fun a' => key a' = k) =
        as.filter fun a' => key a' = k :=
      fun k hk => List.filter_cons_of_neg (by simpa using Ne.symm hk)
    constructor
    · rintro ⟨_, ⟨s, hstep, rfl⟩, hrun⟩ k
      have hk := ih.mp hrun k
      by_cases he : k = key a
      · subst he
        rw [Function.update_self] at hk
        rw [hself]
        exact ⟨s, hstep, hk⟩
      · rw [Function.update_of_ne he] at hk
        rw [hother k he]
        exact hk
    · intro h
      have hkey := h (key a)
      rw [hself] at hkey
      obtain ⟨s, hstep, hrun⟩ := hkey
      refine ⟨_, ⟨s, hstep, rfl⟩, ih.mpr fun k => ?_⟩
      by_cases he : k = key a
      · subst he
        rw [Function.update_self]
        exact hrun
      · rw [Function.update_of_ne he, ← hother k he]
        exact h k

end Routing
