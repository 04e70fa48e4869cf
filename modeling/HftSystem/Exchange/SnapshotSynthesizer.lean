import HftSystem.Common.MemPool
import HftSystem.Exchange.OrderFeed

set_option relaxedAutoImplicit false
set_option autoImplicit false

/-!
# The snapshot synthesizer

`exchange/market_data/snapshot_synthesizer.{h,cpp}`. The arrays of `ticker_orders_` are sorted
maps: an entry that is null is absent, and an array is read from front to back. A snapshot is
the list of messages that `publishSnapshot` sends.

## Main definitions

* `Exchange.SnapshotSynthesizer` with `addToSnapshot` and `publishSnapshot`.
* `Exchange.SnapshotSynthesizer.Holds` — the synthesizer holds the live orders of a feed.

## Main results

* `Exchange.SnapshotSynthesizer.safe_addToSnapshot` — the synthesizer follows a well-formed
  stream, and none of its assertions about orders fires.
* `Exchange.SnapshotSynthesizer.publishSnapshot_eq` — what a snapshot consists of.
-/

namespace Exchange

open Common Fallible

/-- `SnapshotSynthesizer`. -/
structure SnapshotSynthesizer where
  tickerOrders : ℕ → SortedMap ℕ Ptr := fun _ => {}
  lastIncSeqNum : ℕ := 0
  orderPool : MemPool MEMarketUpdate

/-- The default update of a table. -/
instance : Inhabited MEMarketUpdate := ⟨{}⟩

namespace SnapshotSynthesizer

/-- The constructor. -/
def new : SnapshotSynthesizer := { orderPool := .new meMaxOrderIds }

/-- `ticker_orders_.at(ticker_id)`. -/
def orders (s : SnapshotSynthesizer) (tickerId : ℕ) : Except Fault (SortedMap ℕ Ptr) :=
  if tickerId < meMaxTickers then .ok (s.tickerOrders tickerId) else .error .outOfRange

/-- `orders->at(order_id)`. -/
def orderAt (orders : SortedMap ℕ Ptr) (orderId : ℕ) : Except Fault (Option Ptr) :=
  if orderId < meMaxOrderIds then .ok (orders.find? orderId) else .error .outOfRange

/-- `orders->at(order_id) = order`, for an index that was read before. -/
def setOrder (s : SnapshotSynthesizer) (tickerId orderId : ℕ) (order : Option Ptr) :
    SnapshotSynthesizer :=
  let orders := s.tickerOrders tickerId
  { s with
    tickerOrders := Function.update s.tickerOrders tickerId <|
      match order with
      | some p => orders.insert orderId p
      | none => orders.erase orderId }

/-- The text of the assertion on an ADD. -/
def alreadyExistsMsg (u : MEMarketUpdate) (order : Option MEMarketUpdate) : String :=
  "Received:" ++ u.toString ++ " but order already exists:" ++
    (order.map MEMarketUpdate.toString).getD ""

/-- The text of the first assertion on a MODIFY or CANCEL. -/
def doesNotExistMsg (u : MEMarketUpdate) : String :=
  "Received:" ++ u.toString ++ " but order does not exist."

/-- The text of the other two. -/
def expectingMatchMsg : String := "Expecting existing order to match new one."

/-- The text of the assertion on the sequence number. -/
def expectedIncreaseMsg : String := "Expected incremental seq_nums to increase."

/-- The order that a MODIFY or CANCEL is about, with the three assertions on it. -/
def existingOrder (s : SnapshotSynthesizer) (orders : SortedMap ℕ Ptr) (u : MEMarketUpdate) :
    Except Fault Ptr := do
  let order ← orderAt orders u.orderId
  match order with
  | none => .error (.assert (doesNotExistMsg u))
  | some p =>
    ASSERT ((s.orderPool.get p).orderId = u.orderId) expectingMatchMsg
    ASSERT ((s.orderPool.get p).side = u.side) expectingMatchMsg
    return p

/-- The `switch` of `addToSnapshot`. -/
def applyUpdate (s : SnapshotSynthesizer) (u : MEMarketUpdate) : Except Fault SnapshotSynthesizer := do
  let orders ← s.orders u.tickerId
  match u.type with
  | .add =>
    let order ← orderAt orders u.orderId
    ASSERT (order = none) (alreadyExistsMsg u (order.map s.orderPool.get))
    let (p, pool) ← s.orderPool.allocate u
    return { s with orderPool := pool }.setOrder u.tickerId u.orderId (some p)
  | .modify =>
    let p ← s.existingOrder orders u
    return { s with
      orderPool := s.orderPool.modify p fun o => { o with qty := u.qty, price := u.price } }
  | .cancel =>
    let p ← s.existingOrder orders u
    let pool ← s.orderPool.deallocate p
    return { s with orderPool := pool }.setOrder u.tickerId u.orderId none
  | .snapshotStart | .clear | .snapshotEnd | .trade | .invalid => return s

/-- `addToSnapshot`. -/
def addToSnapshot (s : SnapshotSynthesizer) (marketUpdate : MDPMarketUpdate) :
    Except Fault SnapshotSynthesizer := do
  let s ← s.applyUpdate marketUpdate.meMarketUpdate
  ASSERT (marketUpdate.seqNum = s.lastIncSeqNum + 1) expectedIncreaseMsg
  return { s with lastIncSeqNum := marketUpdate.seqNum }

/-- The messages about one ticker: a CLEAR, and its orders from front to back. -/
def tickerMessages (s : SnapshotSynthesizer) (tickerId : ℕ) : List MEMarketUpdate :=
  { type := .clear, tickerId } :: (s.tickerOrders tickerId).values.map s.orderPool.get

/-- `publishSnapshot`: the messages sent on the snapshot socket. -/
def publishSnapshot (s : SnapshotSynthesizer) : List MDPMarketUpdate :=
  numberedFrom 0 <|
    { type := .snapshotStart, orderId := s.lastIncSeqNum } ::
      ((List.range meMaxTickers).flatMap s.tickerMessages ++
        [{ type := .snapshotEnd, orderId := s.lastIncSeqNum }])

/-! ## The synthesizer follows the stream -/

/-- The synthesizer holds the live orders of every ticker, each in a block of its own. -/
structure Holds (s : SnapshotSynthesizer) (fs : ℕ → Feed) : Prop where
  live : ∀ t, (s.tickerOrders t).mapValues s.orderPool.get = (fs t).live
  inUse : ∀ t, ∀ e ∈ (s.tickerOrders t).entries, s.orderPool.InUse e.2
  inj : ∀ t t' e e', e ∈ (s.tickerOrders t).entries → e' ∈ (s.tickerOrders t').entries →
    e.2 = e'.2 → t = t' ∧ e.1 = e'.1

/-- The tables have entries for an update. -/
def InTables (u : MEMarketUpdate) : Prop :=
  u.tickerId < meMaxTickers ∧
    (u.type = .add ∨ u.type = .modify ∨ u.type = .cancel → u.orderId < meMaxOrderIds)

/-- A new synthesizer holds feeds without orders. -/
lemma holds_new : Holds new fun _ => {} := by
  refine ⟨fun _ => rfl, fun t e he => ?_, fun t t' e e' he => ?_⟩ <;> cases he

/-- The live order of an id, in the pool. -/
lemma Holds.exists_ptr {s : SnapshotSynthesizer} {fs : ℕ → Feed} (h : Holds s fs) {t i : ℕ}
    {o : MEMarketUpdate} (ho : (i, o) ∈ (fs t).live.entries) :
    ∃ p, (i, p) ∈ (s.tickerOrders t).entries ∧ s.orderPool.get p = o := by
  rw [← h.live t] at ho
  obtain ⟨⟨j, p⟩, hp, he⟩ := List.mem_map.mp ho
  obtain ⟨rfl, rfl⟩ := Prod.mk.inj he
  exact ⟨p, hp, rfl⟩

/-- An entry of the tables other than `(i, p)` of ticker `t` has another block. -/
lemma Holds.ne_of_mem {s : SnapshotSynthesizer} {fs : ℕ → Feed} (h : Holds s fs) {t t' i : ℕ}
    {p : Ptr} {e : ℕ × Ptr} (hp : (i, p) ∈ (s.tickerOrders t).entries)
    (he : e ∈ (s.tickerOrders t').entries) (hne : ¬ (t' = t ∧ e.1 = i)) : e.2 ≠ p :=
  fun hep => hne (h.inj t' t e (i, p) he hp hep)

/-- The order that a well-formed stream modifies or cancels is found. -/
lemma safe_existingOrder {s : SnapshotSynthesizer} {fs : ℕ → Feed} (h : Holds s fs)
    {u o : MEMarketUpdate} (htidy : (fs u.tickerId).Tidy)
    (hlive : (u.orderId, o) ∈ (fs u.tickerId).live.entries) (hside : o.side = u.side) :
    Safe (fun f => f = .outOfRange ∧ ¬ u.orderId < meMaxOrderIds)
      (fun p => (u.orderId, p) ∈ (s.tickerOrders u.tickerId).entries ∧ s.orderPool.get p = o)
      (s.existingOrder (s.tickerOrders u.tickerId) u) := by
  obtain ⟨p, hp, hget⟩ := h.exists_ptr hlive
  unfold existingOrder orderAt
  by_cases hid : u.orderId < meMaxOrderIds
  · rw [if_pos hid, SortedMap.find?_eq_some.mpr hp]
    have hoid : (s.orderPool.get p).orderId = u.orderId := by
      rw [hget]
      exact htidy.orderId _ hlive
    simp only [ok_bind, ASSERT_of_true hoid, ASSERT_of_true (hget ▸ hside)]
    exact ⟨hp, hget⟩
  · rw [if_neg hid]
    exact ⟨rfl, hid⟩

/-- An ADD of a new id.

**Proof sketch.** The block that was allocated is new, so it is none of those that the tables lead to
and they hold the same orders as before. The table of the ticker gains one entry, which leads to the
update, as the feed does. -/
lemma Holds.add {s : SnapshotSynthesizer} {fs : ℕ → Feed} (h : Holds s fs) {u : MEMarketUpdate}
    {f : Feed} {p : Ptr} {pool : MemPool MEMarketUpdate}
    (hal : MemPool.Allocated s.orderPool pool u p)
    (hf : f.live = (fs u.tickerId).live.insert u.orderId u) :
    Holds ({ s with orderPool := pool }.setOrder u.tickerId u.orderId (some p))
      (Function.update fs u.tickerId f) := by
  have hne : ∀ t, ∀ e ∈ (s.tickerOrders t).entries, e.2 ≠ p :=
    fun t e he hep => hal.fresh (hep ▸ h.inUse t e he)
  have hget : ∀ t, ((s.tickerOrders t).mapValues pool.get) = (fs t).live := by
    intro t
    rw [← h.live t, hal.get]
    exact SortedMap.mapValues_congr fun e he => Function.update_of_ne (hne t e he) _ _
  have hmem : ∀ t, ∀ e ∈ (({ s with orderPool := pool }.setOrder u.tickerId u.orderId
      (some p)).tickerOrders t).entries,
      t = u.tickerId ∧ e = (u.orderId, p) ∨ e ∈ (s.tickerOrders t).entries := by
    intro t e he
    simp only [setOrder] at he
    by_cases ht : t = u.tickerId
    · subst ht
      rw [Function.update_self] at he
      exact (SortedMap.mem_insertEntry he).imp_left fun he => ⟨rfl, he⟩
    · rw [Function.update_of_ne ht] at he
      exact .inr he
  refine ⟨fun t => ?_, fun t e he => ?_, fun t t' e e' he he' hee => ?_⟩
  · simp only [setOrder]
    by_cases ht : t = u.tickerId
    · subst ht
      rw [Function.update_self, Function.update_self, SortedMap.mapValues_insert, hget, hal.get,
        Function.update_self, hf]
    · rw [Function.update_of_ne ht, Function.update_of_ne ht, hget]
  · rcases hmem t e he with ⟨-, rfl⟩ | he
    · exact (hal.inUse _).mpr (.inl rfl)
    · exact (hal.inUse _).mpr (.inr (h.inUse t e he))
  · rcases hmem t e he with ⟨rfl, rfl⟩ | he <;> rcases hmem t' e' he' with ⟨rfl, rfl⟩ | he'
    · exact ⟨rfl, rfl⟩
    · exact absurd hee.symm (hne t' e' he')
    · exact absurd hee (hne t e he)
    · exact h.inj t t' e e' he he' hee

/-- A MODIFY of a live order. -/
lemma Holds.modify {s : SnapshotSynthesizer} {fs : ℕ → Feed} (h : Holds s fs) {u o : MEMarketUpdate}
    {f : Feed} {p : Ptr} (hp : (u.orderId, p) ∈ (s.tickerOrders u.tickerId).entries)
    (hget : s.orderPool.get p = o) (hlive : (u.orderId, o) ∈ (fs u.tickerId).live.entries)
    (hprice : o.price = u.price)
    (hf : f.live = (fs u.tickerId).live.insert u.orderId { o with qty := u.qty }) :
    Holds { s with
        orderPool := s.orderPool.modify p fun o => { o with qty := u.qty, price := u.price } }
      (Function.update fs u.tickerId f) := by
  have hwrite : (s.orderPool.modify p fun o => { o with qty := u.qty, price := u.price }).get =
      Function.update s.orderPool.get p { o with qty := u.qty } := by
    rw [MemPool.get_modify, hget, ← hprice]
  refine ⟨fun t => ?_, fun t e he => by simpa using h.inUse t e he, h.inj⟩
  by_cases ht : t = u.tickerId
  · subst ht
    have hlive' := h.live u.tickerId
    refine SortedMap.ext ?_
    rw [Function.update_self, hf, SortedMap.entries_insert_of_mem hlive, ← hlive', hwrite]
    simp only [SortedMap.mapValues, List.map_map]
    refine List.map_congr_left fun e he => ?_
    by_cases hi : e.1 = u.orderId
    · have hep : e.2 = p := SortedMap.eq_of_mem (k := u.orderId) (hi ▸ he) hp
      simp [hi, hep]
    · simp [hi, Function.update_of_ne (h.ne_of_mem hp he fun hx => hi hx.2)]
  · rw [Function.update_of_ne ht, ← h.live t, hwrite]
    exact SortedMap.mapValues_congr fun e he =>
      Function.update_of_ne (h.ne_of_mem hp he fun hx => ht hx.1) _ _

/-- A CANCEL of a live order. -/
lemma Holds.cancel {s : SnapshotSynthesizer} {fs : ℕ → Feed} (h : Holds s fs) {u : MEMarketUpdate}
    {f : Feed} {p : Ptr} (hp : (u.orderId, p) ∈ (s.tickerOrders u.tickerId).entries)
    (hf : f.live = (fs u.tickerId).live.erase u.orderId) :
    Holds ({ s with orderPool := s.orderPool.release p }.setOrder u.tickerId u.orderId none)
      (Function.update fs u.tickerId f) := by
  have hmem : ∀ t, ∀ e ∈ (({ s with orderPool := s.orderPool.release p }.setOrder u.tickerId
      u.orderId none).tickerOrders t).entries,
      e ∈ (s.tickerOrders t).entries ∧ ¬ (t = u.tickerId ∧ e.1 = u.orderId) := by
    intro t e he
    simp only [setOrder] at he
    by_cases ht : t = u.tickerId
    · subst ht
      rw [Function.update_self, SortedMap.entries_erase, List.mem_filter] at he
      exact ⟨he.1, by simpa using he.2⟩
    · rw [Function.update_of_ne ht] at he
      exact ⟨he, fun hx => ht hx.1⟩
  refine ⟨fun t => ?_, fun t e he => ?_, fun t t' e e' he he' => ?_⟩
  · simp only [setOrder, MemPool.get_release]
    by_cases ht : t = u.tickerId
    · subst ht
      rw [Function.update_self, Function.update_self, SortedMap.mapValues_erase, h.live, hf]
    · rw [Function.update_of_ne ht, Function.update_of_ne ht, h.live]
  · obtain ⟨he, hne⟩ := hmem t e he
    exact (MemPool.inUse_release _ _ _).mpr ⟨h.ne_of_mem hp he hne, h.inUse t e he⟩
  · exact h.inj t t' e e' (hmem t e he).1 (hmem t' e' he').1

/-- **The `switch` follows a well-formed stream.**

**Proof sketch.** By what the update announces. An ADD finds its entry empty, since the id was never
added, and takes a block. A MODIFY and a CANCEL find the block of the live order that they name
(`safe_existingOrder`). The other types neither announce anything nor change a table. -/
lemma safe_applyUpdate {s : SnapshotSynthesizer} {fs fs' : ℕ → Feed} (h : Holds s fs)
    (hhomed : Homed fs) {u : MEMarketUpdate} (hu : announceAt fs u = some fs') :
    Safe (fun f => NoFreshBlock f ∨ f = .outOfRange ∧ ¬ InTables u)
      (fun s' => Holds s' fs' ∧ s'.lastIncSeqNum = s.lastIncSeqNum) (s.applyUpdate u) := by
  obtain ⟨f, hf, rfl⟩ := Option.map_eq_some_iff.mp hu
  unfold applyUpdate orders
  by_cases ht : u.tickerId < meMaxTickers
  case neg =>
    rw [if_neg ht]
    exact .inr ⟨rfl, fun hin => ht hin.1⟩
  rw [if_pos ht, ok_bind]
  cases Feed.announced_of_eq hf with
  | add htype hnew =>
    simp only [htype]
    unfold orderAt
    by_cases hid : u.orderId < meMaxOrderIds
    case neg =>
      rw [if_neg hid]
      exact .inr ⟨rfl, fun hin => hid (hin.2 (.inl htype))⟩
    have hnone : (s.tickerOrders u.tickerId).find? u.orderId = none := by
      refine SortedMap.find?_eq_none.mpr fun e he hei => hnew ?_
      have hmem : (e.1, s.orderPool.get e.2) ∈ (fs u.tickerId).live.entries := by
        rw [← h.live]
        exact List.mem_map_of_mem (f := fun e => (e.1, s.orderPool.get e.2)) he
      exact hei ▸ (hhomed _).1.added _ hmem
    rw [if_pos hid, ok_bind, hnone, ASSERT_of_true rfl, ok_bind]
    refine Safe.bind ((MemPool.safe_allocate s.orderPool u).mono (fun _ hf => .inl hf)
      fun _ hr => hr) ?_
    rintro ⟨p, pool⟩ hal
    exact ⟨h.add hal rfl, rfl⟩
  | @modify o htype hlive hside hprice =>
    simp only [htype]
    refine Safe.bind ((safe_existingOrder h (hhomed _).1 hlive hside).mono (fun f hf => ?_)
      fun _ hp => hp) ?_
    · exact .inr ⟨hf.1, fun hin => hf.2 (hin.2 (.inr (.inl htype)))⟩
    · rintro p ⟨hp, hget⟩
      exact ⟨h.modify hp hget hlive hprice rfl, rfl⟩
  | @cancel o htype hlive hside hprice =>
    simp only [htype]
    refine Safe.bind ((safe_existingOrder h (hhomed _).1 hlive hside).mono (fun f hf => ?_)
      fun _ hp => hp) ?_
    · exact .inr ⟨hf.1, fun hin => hf.2 (hin.2 (.inr (.inr htype)))⟩
    · rintro p ⟨hp, -⟩
      simp only [MemPool.deallocate_eq (h.inUse _ _ hp), ok_bind]
      exact ⟨h.cancel hp rfl, rfl⟩
  | other htype =>
    rw [Function.update_eq_self]
    rcases htype with htype | htype | htype | htype <;> simp only [htype] <;> exact ⟨h, rfl⟩

/-- **The synthesizer follows a well-formed stream** that is numbered consecutively: none of the
assertions about orders and sequence numbers fires. -/
theorem safe_addToSnapshot {s : SnapshotSynthesizer} {fs fs' : ℕ → Feed} (h : Holds s fs)
    (hhomed : Homed fs) {u : MEMarketUpdate} (hu : announceAt fs u = some fs') :
    Safe (fun f => NoFreshBlock f ∨ f = .outOfRange ∧ ¬ InTables u)
      (fun s' => Holds s' fs' ∧ s'.lastIncSeqNum = s.lastIncSeqNum + 1)
      (s.addToSnapshot { seqNum := s.lastIncSeqNum + 1, meMarketUpdate := u }) := by
  refine Safe.bind (safe_applyUpdate h hhomed hu) ?_
  rintro s' ⟨hs', hseq⟩
  rw [ASSERT_of_true (by simp only [hseq])]
  exact ⟨⟨hs'.live, hs'.inUse, hs'.inj⟩, rfl⟩

/-- **The synthesizer follows a whole stream.** -/
theorem safe_addAllToSnapshot {s : SnapshotSynthesizer} {fs fs' : ℕ → Feed} (h : Holds s fs)
    (hhomed : Homed fs) {us : List MEMarketUpdate} (hus : us.foldlM announceAt fs = some fs') :
    Safe (fun f => NoFreshBlock f ∨ f = .outOfRange ∧ ∃ u ∈ us, ¬ InTables u)
      (fun s' => Holds s' fs' ∧ s'.lastIncSeqNum = s.lastIncSeqNum + us.length)
      ((numberedFrom (s.lastIncSeqNum + 1) us).foldlM addToSnapshot s) := by
  induction us generalizing s fs with
  | nil =>
    cases hus
    exact ⟨h, rfl⟩
  | cons u us ih =>
    rw [List.foldlM_cons] at hus
    obtain ⟨fs₁, hu, hus⟩ := Option.bind_eq_some_iff.mp hus
    rw [numberedFrom_cons, List.foldlM_cons]
    refine Safe.bind ((safe_addToSnapshot h hhomed hu).mono (fun f hf => ?_) fun _ hs => hs) ?_
    · exact hf.imp_right fun ⟨hf, hin⟩ => ⟨hf, u, List.mem_cons_self .., hin⟩
    · rintro s₁ ⟨hs₁, hseq⟩
      rw [← hseq]
      refine (ih hs₁ (hhomed.announceAt hu) hus).mono (fun f hf => ?_) fun s' hs' => ⟨hs'.1, ?_⟩
      · exact hf.imp_right fun ⟨hf, u', hu', hin⟩ => ⟨hf, u', List.mem_cons_of_mem _ hu', hin⟩
      · rw [hs'.2, hseq, List.length_cons]
        omega

/-- **A snapshot** is a START, for every ticker a CLEAR and its live orders in the order of their
ids, and an END, numbered from 0. -/
theorem publishSnapshot_eq {s : SnapshotSynthesizer} {fs : ℕ → Feed} (h : Holds s fs) :
    s.publishSnapshot = numberedFrom 0
      ({ type := .snapshotStart, orderId := s.lastIncSeqNum } ::
        ((List.range meMaxTickers).flatMap
            (fun t => { type := .clear, tickerId := t } :: (fs t).live.values) ++
          [{ type := .snapshotEnd, orderId := s.lastIncSeqNum }])) := by
  have hmessages : s.tickerMessages =
      fun t => { type := .clear, tickerId := t } :: (fs t).live.values := by
    funext t
    rw [tickerMessages, ← h.live t, SortedMap.values_mapValues]
  rw [publishSnapshot, hmessages]

/-! ## Any stream -/

/-- The tables only hold ADD updates. -/
def OnlyAdds (s : SnapshotSynthesizer) : Prop :=
  ∀ t, ∀ e ∈ (s.tickerOrders t).entries, (s.orderPool.get e.2).type = .add

/-- The tables of a new synthesizer are empty. -/
lemma onlyAdds_new : OnlyAdds new := by
  intro t e he
  cases he

/-- Removing an order leaves ADD updates in the tables. -/
lemma OnlyAdds.setOrder_none {s : SnapshotSynthesizer} (h : OnlyAdds s) (tickerId orderId : ℕ) :
    OnlyAdds (s.setOrder tickerId orderId none) := by
  intro t e he
  apply h t e
  by_cases ht : t = tickerId
  · subst ht
    simp only [setOrder, Function.update_self] at he
    exact (List.mem_filter.mp he).1
  · simpa only [setOrder, Function.update_of_ne ht] using he

/-- Entering an order leaves ADD updates in the tables. -/
lemma OnlyAdds.setOrder_some {s : SnapshotSynthesizer} (h : OnlyAdds s) {tickerId orderId : ℕ}
    {p : Ptr} (hp : (s.orderPool.get p).type = .add) :
    OnlyAdds (s.setOrder tickerId orderId (some p)) := by
  intro t e he
  by_cases ht : t = tickerId
  · subst ht
    simp only [setOrder, Function.update_self] at he
    rcases SortedMap.mem_insertEntry he with rfl | he
    · exact hp
    · exact h t e he
  · simp only [setOrder, Function.update_of_ne ht] at he
    exact h t e he

/-- **Whatever the stream is**, the tables only hold ADD updates.

**Proof sketch.** By the type of the update. An ADD puts itself into its entry, a MODIFY changes two
fields of an order that is there, a CANCEL takes an entry out, and the others change no table. -/
lemma OnlyAdds.addToSnapshot {s s' : SnapshotSynthesizer} (h : OnlyAdds s) {m : MDPMarketUpdate}
    (hs' : s.addToSnapshot m = .ok s') : OnlyAdds s' := by
  obtain ⟨s₁, hs₁, hs'⟩ := bind_eq_ok.mp hs'
  obtain ⟨-, -, hs'⟩ := bind_eq_ok.mp hs'
  cases hs'
  suffices hgoal : OnlyAdds s₁ from hgoal
  obtain ⟨orders, -, hs₁⟩ := bind_eq_ok.mp hs₁
  cases htype : m.meMarketUpdate.type with
  | add =>
    simp only [htype] at hs₁
    obtain ⟨_, -, hs₁⟩ := bind_eq_ok.mp hs₁
    obtain ⟨-, -, hs₁⟩ := bind_eq_ok.mp hs₁
    obtain ⟨⟨p, pool⟩, hpool, hs₁⟩ := bind_eq_ok.mp hs₁
    cases hs₁
    have hget := ((MemPool.safe_allocate _ _).of_eq_ok hpool).get
    have hadd : ∀ i, (s.orderPool.get i).type = .add → (pool.get i).type = .add := by
      intro i hi
      rw [hget, Function.update_apply]
      split_ifs
      · exact htype
      · exact hi
    have hpool : OnlyAdds { s with orderPool := pool } := fun t e he => hadd e.2 (h t e he)
    apply hpool.setOrder_some
    show (pool.get p).type = .add
    rw [hget, Function.update_self]
    exact htype
  | modify =>
    simp only [htype] at hs₁
    obtain ⟨p, -, hs₁⟩ := bind_eq_ok.mp hs₁
    cases hs₁
    intro t e he
    have htype := h t e he
    simp only [MemPool.get_modify, Function.update_apply]
    split_ifs with hp
    · rw [← hp]
      exact htype
    · exact htype
  | cancel =>
    simp only [htype] at hs₁
    obtain ⟨p, -, hs₁⟩ := bind_eq_ok.mp hs₁
    obtain ⟨pool, hpool, hs₁⟩ := bind_eq_ok.mp hs₁
    cases hs₁
    obtain ⟨-, -, hpool⟩ := bind_eq_ok.mp hpool
    obtain ⟨-, -, hpool⟩ := bind_eq_ok.mp hpool
    cases hpool
    apply OnlyAdds.setOrder_none
    intro t e he
    show ((s.orderPool.release p).get e.2).type = .add
    rw [MemPool.get_release]
    exact h t e he
  | clear | trade | invalid | snapshotStart | snapshotEnd =>
    simp only [htype] at hs₁
    cases hs₁
    exact h

/-- The tables only hold ADD updates after any messages. -/
lemma onlyAdds_of_run {ms : List MDPMarketUpdate} {s : SnapshotSynthesizer}
    (hs : ms.foldlM SnapshotSynthesizer.addToSnapshot new = .ok s) : OnlyAdds s :=
  inv_of_foldlM (fun _ _ _ h _ hs' => OnlyAdds.addToSnapshot h hs') onlyAdds_new meets_true hs

/-- The markers of a snapshot carry the number of the last incremental update. -/
lemma OnlyAdds.orderId_of_marker {s : SnapshotSynthesizer} (h : OnlyAdds s) {m : MDPMarketUpdate}
    (hm : m ∈ s.publishSnapshot)
    (htype : m.meMarketUpdate.type = .snapshotStart ∨ m.meMarketUpdate.type = .snapshotEnd) :
    m.meMarketUpdate.orderId = s.lastIncSeqNum := by
  obtain ⟨i, hi, rfl⟩ := List.mem_mapIdx.mp hm
  generalize hu : (({ type := .snapshotStart, orderId := s.lastIncSeqNum } : MEMarketUpdate) ::
    ((List.range meMaxTickers).flatMap s.tickerMessages ++
      [{ type := .snapshotEnd, orderId := s.lastIncSeqNum }]))[i] = u at htype ⊢
  have hmem := hu ▸ List.getElem_mem hi
  simp only [List.mem_cons, List.mem_append, List.mem_flatMap, List.not_mem_nil, or_false] at hmem
  rcases hmem with rfl | ⟨t, -, hut⟩ | rfl
  · rfl
  · rcases List.mem_cons.mp hut with rfl | hut
    · simp at htype
    · -- an order of the tables is an ADD
      obtain ⟨p, hp, rfl⟩ := List.mem_map.mp hut
      obtain ⟨e, he, rfl⟩ := List.mem_map.mp hp
      simp [h t e he] at htype
  · rfl

end SnapshotSynthesizer

end Exchange
