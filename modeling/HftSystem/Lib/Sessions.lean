import Mathlib.Tactic.Lemma
import Mathlib.Tactic.SplitIfs
import Mathlib.Data.List.Basic

set_option relaxedAutoImplicit false
set_option autoImplicit false

/-!
# One session at a time

A client asks a server for sessions, and the server answers with replies; both channels are lossless
and first-in first-out. The client remembers the last session that it asked for and asks for
another one when it believes to be free, which it comes to believe through the final reply of a
session. `Exclusive` is the invariant of this discipline, with one rule for each thing that can
happen.

## Main definitions

* `Sessions.Exclusive` — the client's memory, the two channels and the server agree about one
  session at most.

## Main results

* `Sessions.Exclusive.ask`, `Sessions.Exclusive.answer`, `Sessions.Exclusive.deliver` — the rules.
* `Sessions.filter_concat`, `Sessions.filter_head` — what one party sees of a channel when a message
  enters it or leaves it.
-/

namespace Sessions

section Channel

variable {α : Type*} (p : α → Prop) [DecidablePred p]

/-- A message enters a channel. -/
lemma filter_concat (l : List α) (a : α) :
    (l ++ [a]).filter (p ·) = l.filter (p ·) ++ if p a then [a] else [] := by
  rw [List.filter_append, List.filter_cons]
  simp only [decide_eq_true_eq, List.filter_nil]

/-- A message leaves a channel. -/
lemma filter_head (a : α) (l : List α) :
    (a :: l).filter (p ·) = (if p a then [a] else []) ++ l.filter (p ·) := by
  rw [List.filter_cons]
  simp only [decide_eq_true_eq]
  split_ifs
  · rfl
  · rfl

end Channel

variable {ι ρ : Type*} {ident : ρ → ι} {Final : ρ → Prop} {Free Free' : Prop} {current : ι}
  {asked live asked' live' : List ι} {replies : List ρ}

/-- The sessions asked for on the way to the server, the sessions that are open there and the
replies on the way back are all about the current session of the client; there is at most one
session, its final reply comes last, and there is none when the client is free. -/
structure Exclusive (ident : ρ → ι) (Final : ρ → Prop) (Free : Prop) (current : ι)
    (asked live : List ι) (replies : List ρ) : Prop where
  session : ∀ i ∈ asked ++ live, i = current
  reply : ∀ r ∈ replies, ident r = current
  atMostOne : (asked ++ live).length ≤ 1
  final : ∀ pre r post, replies = pre ++ r :: post → Final r → post = [] ∧ asked ++ live = []
  free : Free → asked ++ live = [] ∧ replies = []

/-- Nothing has been asked for. -/
lemma exclusive_nil (current : ι) : Exclusive ident Final Free current [] [] [] where
  session := by simp
  reply := by simp
  atMostOne := by simp
  final := by simp
  free := by simp

/-- A client that believes less often to be free. -/
lemma Exclusive.mono (h : Exclusive ident Final Free current asked live replies)
    (hfree : Free' → Free) : Exclusive ident Final Free' current asked live replies :=
  { h with free := fun hf => h.free (hfree hf) }

/-- While there is a session, no final reply is on its way. -/
lemma Exclusive.not_final (h : Exclusive ident Final Free current asked live replies)
    (hne : asked ++ live ≠ []) : ∀ r ∈ replies, ¬ Final r := by
  intro r hr hfinal
  obtain ⟨pre, post, hsplit⟩ := List.append_of_mem hr
  exact hne (h.final pre r post hsplit hfinal).2

/-- **A free client asks for a session.** -/
lemma Exclusive.ask (h : Exclusive ident Final Free current asked live replies) (hfree : Free)
    (hfree' : ¬ Free') (i : ι) : Exclusive ident Final Free' i (asked ++ [i]) live replies := by
  obtain ⟨hnone, rfl⟩ := h.free hfree
  obtain ⟨rfl, rfl⟩ := List.append_eq_nil_iff.mp hnone
  exact
    { session := by simp
      reply := by simp
      atMostOne := by simp
      final := by simp
      free := fun hf => absurd hf hfree' }

/-- **The server answers about a session**: it may open or close it, and the final reply leaves
none. -/
lemma Exclusive.answer (h : Exclusive ident Final Free current asked live replies) {r : ρ}
    (hident : ident r ∈ asked ++ live) (hsub : asked' ++ live' ⊆ asked ++ live)
    (hlength : (asked' ++ live').length ≤ (asked ++ live).length)
    (hfinal : Final r → asked' ++ live' = []) :
    Exclusive ident Final Free current asked' live' (replies ++ [r]) := by
  have hne : asked ++ live ≠ [] := List.ne_nil_of_mem hident
  refine ⟨fun i hi => h.session i (hsub hi), fun r' hr' => ?_, Nat.le_trans hlength h.atMostOne,
    ?_, ?_⟩
  · rcases List.mem_append.mp hr' with hr' | hr'
    · exact h.reply r' hr'
    · rw [List.mem_singleton.mp hr']
      exact h.session _ hident
  · intro pre r' post hsplit hfinal'
    -- no earlier reply is final, since there was a session
    rcases List.append_eq_append_iff.mp hsplit with ⟨mid, rfl, hmid⟩ | ⟨mid, rfl, hmid⟩
    · cases mid with
      | nil =>
        obtain ⟨rfl, rfl⟩ := List.cons.inj hmid
        exact ⟨rfl, hfinal hfinal'⟩
      | cons b mid => simp at hmid
    · cases mid with
      | nil =>
        obtain ⟨rfl, rfl⟩ := List.cons.inj hmid
        exact ⟨rfl, hfinal hfinal'⟩
      | cons b mid =>
        obtain ⟨rfl, -⟩ := List.cons.inj hmid
        exact absurd hfinal' (h.not_final hne r' (by simp))
  · exact fun hf => absurd (h.free hf).1 hne

/-- **The client hears a reply**, and believes to be free after the final one only. -/
lemma Exclusive.deliver {r : ρ}
    (h : Exclusive ident Final Free current asked live (r :: replies))
    (hfree : Free' → Free ∨ Final r) : Exclusive ident Final Free' current asked live replies where
  session := h.session
  reply r' hr' := h.reply r' (List.mem_cons_of_mem r hr')
  atMostOne := h.atMostOne
  final pre r' post hsplit := h.final (r :: pre) r' post (by rw [hsplit]; rfl)
  free hf := by
    rcases hfree hf with hf | hfinal
    · exact absurd (h.free hf).2 (by simp)
    · obtain ⟨hreplies, hnone⟩ := h.final [] r replies rfl hfinal
      exact ⟨hnone, hreplies⟩

end Sessions
