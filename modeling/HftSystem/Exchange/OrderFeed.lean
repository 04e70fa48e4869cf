import HftSystem.Lib.Fallible
import HftSystem.Lib.SortedMap
import HftSystem.Exchange.Messages

set_option relaxedAutoImplicit false
set_option autoImplicit false

/-!
# What a stream of market updates announces

The purpose of the market data of one book: ADD, MODIFY and CANCEL updates announce the orders
that rest there. A stream is well formed when every id is added at most once and the other two
only name an order that is live, with its side and its price.

## Main definitions

* `Exchange.Feed` — the ids that were added and the live orders.
* `Exchange.Feed.announce`, `Exchange.Feed.announceAll` — one update, and a stream of them.
* `Exchange.announceAt` — the feeds of all tickers.
-/

namespace Exchange

open Common

/-- The ids that a stream has added, latest first, and its live orders: each is the ADD update,
with the quantity last announced. -/
structure Feed where
  added : List ℕ := []
  live : SortedMap ℕ MEMarketUpdate := {}

namespace Feed

/-- The live order that a MODIFY or CANCEL names with its side and price. -/
def existing (f : Feed) (u : MEMarketUpdate) : Option MEMarketUpdate :=
  (f.live.find? u.orderId).filter fun o => o.side = u.side ∧ o.price = u.price

/-- Announce one update, if the stream stays well formed. -/
def announce (f : Feed) (u : MEMarketUpdate) : Option Feed :=
  match u.type with
  | .add =>
    if u.orderId ∈ f.added then none
    else some { added := u.orderId :: f.added, live := f.live.insert u.orderId u }
  | .modify =>
    (f.existing u).map fun o => { f with live := f.live.insert u.orderId { o with qty := u.qty } }
  | .cancel => (f.existing u).map fun _ => { f with live := f.live.erase u.orderId }
  | .clear => none
  | .invalid | .trade | .snapshotStart | .snapshotEnd => some f

/-- Announce a stream. -/
def announceAll (f : Feed) (us : List MEMarketUpdate) : Option Feed := us.foldlM announce f

/-- The live orders are ADD updates under their own ids, and their ids were added. -/
structure Tidy (f : Feed) : Prop where
  type : ∀ e ∈ f.live.entries, e.2.type = .add
  orderId : ∀ e ∈ f.live.entries, e.2.orderId = e.1
  added : ∀ e ∈ f.live.entries, e.1 ∈ f.added

/-- A feed without orders. -/
lemma tidy_empty : Tidy {} := ⟨by simp, by simp, by simp⟩

/-- A live order is found by its id, side and price. -/
lemma existing_eq_some {f : Feed} {u o : MEMarketUpdate} :
    f.existing u = some o ↔
      (u.orderId, o) ∈ f.live.entries ∧ o.side = u.side ∧ o.price = u.price := by
  simp [existing, Option.filter_eq_some_iff, SortedMap.find?_eq_some]

/-- The ways in which an update can be announced. -/
inductive Announced (f : Feed) (u : MEMarketUpdate) : Feed → Prop
  | add (htype : u.type = .add) (hnew : u.orderId ∉ f.added) :
      Announced f u { added := u.orderId :: f.added, live := f.live.insert u.orderId u }
  | modify {o : MEMarketUpdate} (htype : u.type = .modify)
      (hlive : (u.orderId, o) ∈ f.live.entries) (hside : o.side = u.side)
      (hprice : o.price = u.price) :
      Announced f u { f with live := f.live.insert u.orderId { o with qty := u.qty } }
  | cancel {o : MEMarketUpdate} (htype : u.type = .cancel)
      (hlive : (u.orderId, o) ∈ f.live.entries) (hside : o.side = u.side)
      (hprice : o.price = u.price) :
      Announced f u { f with live := f.live.erase u.orderId }
  | other (htype : u.type = .invalid ∨ u.type = .trade ∨ u.type = .snapshotStart ∨
      u.type = .snapshotEnd) : Announced f u f

/-- **One update is announced in one of four ways.** -/
lemma announced_of_eq {f f' : Feed} {u : MEMarketUpdate} (h : f.announce u = some f') :
    Announced f u f' := by
  unfold announce at h
  cases htype : u.type with
  | add =>
    simp only [htype] at h
    split at h
    · cases h
    · cases h
      exact .add htype ‹_›
  | modify =>
    simp only [htype, Option.map_eq_some_iff] at h
    obtain ⟨o, ho, rfl⟩ := h
    obtain ⟨hlive, hside, hprice⟩ := existing_eq_some.mp ho
    exact .modify htype hlive hside hprice
  | cancel =>
    simp only [htype, Option.map_eq_some_iff] at h
    obtain ⟨o, ho, rfl⟩ := h
    obtain ⟨hlive, hside, hprice⟩ := existing_eq_some.mp ho
    exact .cancel htype hlive hside hprice
  | clear => simp [htype] at h
  | invalid | trade | snapshotStart | snapshotEnd =>
    simp only [htype, Option.some_inj] at h
    exact h ▸ .other (by simp [htype])

/-- **Announcing keeps a feed tidy.** -/
lemma Tidy.announce {f f' : Feed} {u : MEMarketUpdate} (h : f.Tidy) (hu : f.announce u = some f') :
    f'.Tidy := by
  cases announced_of_eq hu with
  | add htype hnew =>
    have hmem : ∀ e ∈ (f.live.insert u.orderId u).entries,
        e = (u.orderId, u) ∨ e ∈ f.live.entries := fun _ he => SortedMap.mem_insertEntry he
    refine ⟨fun e he => ?_, fun e he => ?_, fun e he => ?_⟩ <;> rcases hmem e he with rfl | he
    · exact htype
    · exact h.type e he
    · rfl
    · exact h.orderId e he
    · exact List.mem_cons_self ..
    · exact List.mem_cons_of_mem _ (h.added e he)
  | @modify o _ hlive _ _ =>
    have hmem : ∀ e ∈ (f.live.insert u.orderId { o with qty := u.qty }).entries,
        e = (u.orderId, { o with qty := u.qty }) ∨ e ∈ f.live.entries :=
      fun _ he => SortedMap.mem_insertEntry he
    refine ⟨fun e he => ?_, fun e he => ?_, fun e he => ?_⟩ <;> rcases hmem e he with rfl | he
    · exact h.type (_, o) hlive
    · exact h.type e he
    · exact h.orderId (_, o) hlive
    · exact h.orderId e he
    · exact h.added (_, o) hlive
    · exact h.added e he
  | cancel _ _ _ _ =>
    have hmem : ∀ e ∈ (f.live.erase u.orderId).entries, e ∈ f.live.entries :=
      fun _ he => (List.mem_filter.mp he).1
    exact ⟨fun e he => h.type e (hmem e he), fun e he => h.orderId e (hmem e he),
      fun e he => h.added e (hmem e he)⟩
  | other _ => exact h

end Feed

/-- Announce an update to the feed of its ticker. -/
def announceAt (fs : ℕ → Feed) (u : MEMarketUpdate) : Option (ℕ → Feed) :=
  ((fs u.tickerId).announce u).map fun f => Function.update fs u.tickerId f

/-- The live orders of a ticker carry its number. -/
def Homed (fs : ℕ → Feed) : Prop :=
  ∀ t, (fs t).Tidy ∧ ∀ e ∈ (fs t).live.entries, e.2.tickerId = t

/-- Feeds without orders. -/
lemma homed_empty : Homed fun _ => {} := fun _ => ⟨Feed.tidy_empty, by simp⟩

/-- **Announcing keeps the live orders of every ticker at home.** -/
lemma Homed.announceAt {fs fs' : ℕ → Feed} {u : MEMarketUpdate} (h : Homed fs)
    (hu : announceAt fs u = some fs') : Homed fs' := by
  obtain ⟨f, hf, rfl⟩ := Option.map_eq_some_iff.mp hu
  intro t
  by_cases ht : t = u.tickerId
  · subst ht
    rw [Function.update_self]
    refine ⟨(h _).1.announce hf, fun e he => ?_⟩
    cases Feed.announced_of_eq hf with
    | add _ _ =>
      rcases SortedMap.mem_insertEntry he with rfl | he
      · rfl
      · exact (h _).2 e he
    | @modify o _ hlive _ _ =>
      rcases SortedMap.mem_insertEntry he with rfl | he
      · exact (h _).2 (_, o) hlive
      · exact (h _).2 e he
    | cancel _ _ _ _ => exact (h _).2 e (List.mem_filter.mp he).1
    | other _ => exact (h _).2 e he
  · rw [Function.update_of_ne ht]
    exact h t

end Exchange
